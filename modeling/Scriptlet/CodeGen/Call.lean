import Scriptlet.CodeGen.Expression

/-!
Code for calls of functions and methods.
-/

namespace Scriptlet.Emit

open Draft (getField displayField)
open Ir (Ty Operand Global)

def printFormat? (type : Ty) : Option String :=
  if type == Ty.i64 then some "print_fmt_int"
  else if type == .double then some "print_fmt_double"
  else if type == Ty.i1 then some "print_fmt_bool"
  else if type == Ty.text || type == .pointer (.array bufferSize Ty.i8) then some "print_fmt_str"
  else none

/-- Prints a truth value as a word. -/
def printTruth (printf : Global) (format value : Operand) : Emit Unit := do
  let trueText ← global "true_str"
  let falseText ← global "false_str"
  let yes ← appendBlock "if_true_branch"
  let no ← appendBlock "if_false_branch"
  let merge ← appendBlock "if_merge"
  branchIf value yes no
  goToEnd yes
  let shown ← toText trueText.operand
  let _ ← call printf [format, shown]
  branchTo merge
  goToEnd no
  let shown ← toText falseText.operand
  let _ ← call printf [format, shown]
  branchTo merge
  goToEnd merge

def firstArgument (node : Value) : Emit Value := do
  match (← Draft.itemsOf (← getField node .args)).head? with
  | some argument => getField argument .value
  | none => fail (.outOfRange "list")

def emitPrint (visit : Value → Emit Operand) (node : Value) : Emit Operand := do
  let value ← visit (← firstArgument node)
  let type ← Draft.typeOf (← firstArgument node)
  let some formatName := printFormat? (← typeOf value)
    | do fail (.unsupportedValue (← Draft.display type))
  require "printf"
  let format ← toText (← global formatName).operand
  let printf ← global "printf"
  match type with
  | .text "integer" | .text "double" =>
      let _ ← call printf [format, value]
  | .text "string" =>
      let shown ← toText value
      let _ ← call printf [format, shown]
  | .text "boolean" => printTruth printf format value
  | other => do fail (.unsupportedPrint (← Draft.display other))
  return .nothing

/-- Reads a word into the input buffer. -/
def emitInput : Emit Operand := do
  require "scanf"
  let format ← toText (← global "format_scanf").operand
  let start ← toText (← global "global_input_buffer").operand
  clearBuffer start
  let _ ← call (← global "scanf") [format, start]
  return start

def emitArguments (visit : Value → Emit Operand) (node : Value) : Emit (List Operand) := do
  (← Draft.itemsOf (← getField node .args)).mapM fun argument => do visit (← getField argument .value)

def emitCall (visit : Value → Emit Operand) (node : Value) : Emit Operand := do
  let name ← getField node .name
  match name with
  | .text "input" => emitInput
  | .text "print" => emitPrint visit node
  | _ =>
      let function ← global (nameText name)
      let arguments ← emitArguments visit node
      let result ← call function arguments
      let type ← irType (← orFail ((← table).functionType (nameText name)))
      return if type == .void then .nothing else result

def callToInteger (node : Value) (receiver : Operand) : Emit Operand := do
  require "atoi"
  let atoi ← global "atoi"
  let type ← typeOf receiver
  unless type == Ty.text do
    refuse (.ofMessage .type ("Expected string, got " ++ type.render ++ " in 'toInteger' call at line " ++
      (← displayField node .line)))
  call atoi [receiver]

def callToDouble (receiver : Operand) : Emit Operand := do
  require "atof"
  call (← global "atof") [receiver]

def callLength (receiver : Operand) : Emit Operand := do
  require "strlen"
  let length ← call (← global "strlen") [receiver]
  convert .trunc length Ty.i64

def emitMethod (visit : Value → Emit Operand) (node : Value) : Emit Operand := do
  let receiver ← visit (← getField node .receiver)
  let name ← getField node .name
  let receiverType ← getField node .receiverType
  let type := match receiverType with
    | .text type => type
    | _ => ""
  if (Library.method? type (nameText name)).isNone then
    refuse (.ofMessage .compilation ("Method '" ++ (← Draft.display name) ++ "' does not exist for type '" ++
      (← Draft.display receiverType) ++ "'"))
  match name with
  | .text "toInteger" => callToInteger node receiver
  | .text "toDouble" => callToDouble receiver
  | .text "length" => callLength receiver
  | other => do refuse (.fault (.missingMethod ((← Draft.display other) ++ "_call")))

end Scriptlet.Emit
