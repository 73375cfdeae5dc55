import Scriptlet.CodeGen.Externals
import Scriptlet.Node.Build

/-!
Code for expressions.  A rule yields the operand that holds the value; `visit` generates the code of
the nodes below.
-/

namespace Scriptlet.Emit

open Draft (getField displayField)
open Ir (Ty Operand Opcode Relation Prototype Global)

def irType (type : Value) : Emit Ty :=
  match type with
  | .text "integer" => return Ty.i64
  | .text "double" => return .double
  | .text "string" => return Ty.text
  | .text "boolean" => return Ty.i1
  | .text "void" => return .void
  | other => do refuse (.fault (.unknownType (← Draft.display other)))

def intConstant : Value → Ir.Constant
  | .null => .int 0
  | .int value => .int value
  | .bool value => .word (if value then "true" else "false")
  | .scalar other => .word other.display
  | _ => .word ""

def doubleConstant : Value → Ir.Constant
  | .null => .word "0.0"
  | .double value => .double value
  | .text s => match Number.readFloat? s with
      | some value => .double value
      | none => .unwritable (.unreadableNumber s)
  | .scalar other => match other.toInt? with
      | some i => match Number.ofInt? i with
          | some value => .double value
          | none => .unwritable .tooLargeForDouble
      | none => .unwritable (.notNumeric other.sortName)
  | _ => .unwritable (.notNumeric "list")

/-- Puts a constant into a slot of its own and reads it back. -/
def constantInSlot (type : Ty) (constant : Ir.Constant) (base : String) : Emit Operand := do
  let slot ← alloca type base
  store (.constant type constant) slot
  load slot

def emitInteger (node : Value) : Emit Operand := do
  constantInSlot Ty.i64 (intConstant (← getField node .value)) "int_var"

def emitDouble (node : Value) : Emit Operand := do
  constantInSlot .double (doubleConstant (← getField node .value)) "node.name"

def emitBoolean (node : Value) : Emit Operand := do
  constantInSlot Ty.i1 (intConstant (← getField node .value)) "bool_var"

/-- A text is put on the stack; its value is a pointer to its first byte. -/
def textInSlot (text : String) : Emit Operand := do
  let data := terminatedBytes text
  let count := (← get).stringCount
  modify fun generation => { generation with stringCount := count + 1 }
  let slot ← alloca (bytesType data) ("str_" ++ toString count)
  store (.constant (bytesType data) (.bytes data)) slot
  let first ← elementPointer slot [.int 0, .int 0]
  toText first

def emitString (node : Value) : Emit Operand := do
  match ← getField node .value with
  | .text text => textInSlot text
  | other => do throw ((← Draft.currentGraph).missing other "encode")

def nameText : Value → String
  | .scalar name => name.display
  | _ => ""

def recorded : Reference → Operand
  | .slot name type => .register name (.pointer type)
  | .label text => .label text

def emitReference (node : Value) : Emit Operand := do
  let name ← getField node .name
  let key := nameText name
  let mangled := ((← table).mangledName? key).getD key
  match ← orFail ((← table).reference key) with
  | none =>
      refuse (.ofMessage .general ("Variable '" ++ (← Draft.display name) ++ "' referenced before declaration"))
  | some (.slot name type) => load (recorded (.slot name type)) mangled
  | some (.label text) => return recorded (.label text)

/-- The operation of an operator on integers; powers are not among them. -/
def intOpcode? : Value → Option Opcode
  | .text "+" => some .add
  | .text "-" => some .sub
  | .text "*" => some .mul
  | .text "/" => some .sdiv
  | .text "%" => some .srem
  | _ => none

def doubleOpcode? : Value → Option Opcode
  | .text "+" => some .fadd
  | .text "-" => some .fsub
  | .text "*" => some .fmul
  | .text "/" => some .fdiv
  | .text "%" => some .frem
  | _ => none

def power (left right : Operand) : Emit Operand := do
  call (← global "pow") [left, right]

def unknownOperator (sort : String) (operator : Value) : Emit Operand := do
  refuse (.ofMessage .compilation ("Unknown operator for " ++ sort ++ ": " ++ (← Draft.display operator)))

/-- An operation on doubles; `sort` names the operands in the complaint about an unknown operator. -/
def doubleOperation (sort : String) (operator : Value) (left right : Operand) : Emit Operand := do
  match doubleOpcode? operator with
  | some opcode => binary opcode left right
  | none =>
      if operator.isText "^" then
        require "pow"
        power left right
      else unknownOperator sort operator

def intOperation (operator : Value) (left right : Operand) : Emit Operand := do
  match intOpcode? operator with
  | some opcode => binary opcode left right
  | none =>
      if operator.isText "^" then
        require "pow"
        let pow ← global "pow"
        let base ← toDouble left
        let exponent ← toDouble right
        call pow [base, exponent]
      else unknownOperator "integers" operator

def emitBinary (visit : Value → Emit Operand) (node : Value) : Emit Operand := do
  let left ← visit (← getField node .left)
  let right ← visit (← getField node .right)
  let leftType ← typeOf left
  let rightType ← typeOf right
  let operator ← getField node .operator
  if leftType == Ty.i64 && rightType == Ty.i64 then intOperation operator left right
  else if leftType == .double && rightType == .double then doubleOperation "doubles" operator left right
  else if leftType == Ty.i64 && rightType == .double then do
    doubleOperation "mixed types" operator (← toDouble left) right
  else if leftType == .double && rightType == Ty.i64 then do
    doubleOperation "mixed types" operator left (← toDouble right)
  else
    refuse (.ofMessage .compilation ("Illegal Binary Operation on line " ++ (← displayField node .line) ++
      ": \n\t" ++ (← Draft.display node) ++
      "\nCannot perform binary operations on differing or unsupported types: " ++ leftType.render ++
      " and " ++ rightType.render))

def emitUnary (visit : Value → Emit Operand) (node : Value) : Emit Operand := do
  let operand ← visit (← getField node .left)
  let operator ← getField node .operator
  match operator with
  | .text "-" =>
      let type ← typeOf operand
      if type == .double then negateDouble operand
      else if type == Ty.i64 then negateInt operand
      else do throw ((← Draft.currentGraph).missing node "operand")
  | .text "!" => complement operand
  | .text "+" => return operand
  | other => do refuse (.fault (.unknownOperator (← Draft.display other)))

def relation (operator : Value) : Emit Relation := do
  match operator with
  | .text symbol => match Relation.ofSymbol? symbol with
      | some relation => return relation
      | none => refuse (.fault (.unknownOperator symbol))
  | other => do refuse (.fault (.unknownOperator (← Draft.display other)))

/-- Texts are equal if the library finds no difference between them. -/
def compareTexts (left right : Operand) : Emit Operand := do
  require "strcmp"
  let difference ← call (← global "strcmp") [left, right]
  compareInts .eq difference (.int 0)

def emitComparison (visit : Value → Emit Operand) (node : Value) : Emit Operand := do
  let left ← visit (← getField node .left)
  let right ← visit (← getField node .right)
  let leftType ← typeOf left
  let rightType ← typeOf right
  let operator ← getField node .operator
  let leftNode ← getField node .left
  if (← Draft.typeOf leftNode).isText TypeName.string && operator.isText "==" then compareTexts left right
  else if (leftType == Ty.i64 && rightType == Ty.i64) || (leftType == Ty.i1 && rightType == Ty.i1) then do
    compareInts (← relation operator) left right
  else if leftType == .double && rightType == .double then do
    compareDoubles (← relation operator) left right
  else if leftType == Ty.i64 && rightType == .double then do
    let left ← toDouble left
    compareDoubles (← relation operator) left right
  else if leftType == .double && rightType == Ty.i64 then do
    let right ← toDouble right
    compareDoubles (← relation operator) left right
  else
    let type ← Draft.display (← Draft.typeOf (← getField node .left))
    refuse (.ofMessage .compilation
      ("Cannot perform operation on differing or unsupported types on line " ++ (← displayField node .line) ++
        ": " ++ (← Draft.display node) ++ " with types '" ++ type ++ "' '" ++ (← Draft.display operator) ++
        "' '" ++ (← Draft.display (← Draft.typeOf node)) ++ "'"))

def emitLogical (visit : Value → Emit Operand) (node : Value) : Emit Operand := do
  let left ← visit (← getField node .left)
  let right ← visit (← getField node .right)
  match ← getField node .operator with
  | .text "&&" => binary .and left right
  | .text "||" => binary .or left right
  | other => do refuse (.fault (.unknownOperator (← Draft.display other)))

/-- Writes a number into a new buffer with a given format. -/
def writeNumber (format : String) (size : Nat) (value : Operand) : Emit Operand := do
  let format ← toText (← global format).operand
  let slot ← alloca (.array size Ty.i8)
  let start ← toText slot
  let _ ← call (← global "sprintf") [start, format, value]
  return start

/-- A part of a concatenation as text. -/
def asText (node : Value) (value : Operand) : Emit Operand := do
  let type ← typeOf value
  if type == Ty.text then return value
  else if type == Ty.i64 then writeNumber "sprintf_fmt_int" 22 value
  else if type == .double then writeNumber "sprintf_fmt_double" 32 value
  else if type == Ty.i1 then fail (.missingAttribute "IRBuilder" "global_string_ptr")
  else
    refuse (.ofMessage .compilation
      ("An error occurred during the code generation of the string concatenation: '" ++
        (← Draft.display node) ++ "'"))

/-- Appends the parts one after the other, each behind the last byte of the one before. -/
def appendParts (visit : Value → Emit Operand) (node : Value) : Operand → List Value → Emit Unit
  | _, [] => return
  | place, part :: rest => do
      let value ← match part with
        | .text text => textInSlot text
        | other => visit other
      let text ← asText node value
      let _ ← call (← global "strcat") [place, text]
      let length ← call (← global "strlen") [text]
      appendParts visit node (← elementPointer place [length]) rest

def emitConcat (visit : Value → Emit Operand) (node : Value) : Emit Operand := do
  let evaluated ← getField node .evaluated
  if !evaluated.isNull then emitString evaluated
  else
    let parts ← Draft.itemsOf (← getField node .strings)
    if parts.isEmpty then throw (.ofMessage .compilation "No strings to concatenate")
    require "strcat"
    require "sprintf"
    require "strlen"
    let start ← toText (← global "global_string_buffer").operand
    clearBuffer start
    appendParts visit node start parts
    return start

end Scriptlet.Emit
