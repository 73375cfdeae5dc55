import Scriptlet.Ir.Operand

/-!
The instructions of the intermediate code.
-/

namespace Scriptlet.Ir

structure Prototype where
  result : Ty
  parameters : List Ty
  isVariadic : Bool := false
  deriving Inhabited

def Prototype.type (prototype : Prototype) : Ty :=
  .function prototype.result prototype.parameters prototype.isVariadic

inductive Opcode where
  | add | sub | mul | sdiv | srem
  | fadd | fsub | fmul | fdiv | frem
  | and | or | xor
  deriving DecidableEq, Repr, Inhabited

def Opcode.name : Opcode → String
  | add => "add" | sub => "sub" | mul => "mul" | sdiv => "sdiv" | srem => "srem"
  | fadd => "fadd" | fsub => "fsub" | fmul => "fmul" | fdiv => "fdiv" | frem => "frem"
  | and => "and" | or => "or" | xor => "xor"

inductive Relation where
  | eq | ne | lt | le | gt | ge
  deriving DecidableEq, Repr, Inhabited

namespace Relation

def ofSymbol? : String → Option Relation
  | "==" => some eq
  | "!=" => some ne
  | "<" => some lt
  | "<=" => some le
  | ">" => some gt
  | ">=" => some ge
  | _ => none

def signedName : Relation → String
  | eq => "eq" | ne => "ne" | lt => "slt" | le => "sle" | gt => "sgt" | ge => "sge"

/-- The name of a relation of doubles, which holds only between numbers. -/
def orderedName : Relation → String
  | eq => "oeq" | ne => "one" | lt => "olt" | le => "ole" | gt => "ogt" | ge => "oge"

end Relation

inductive Conversion where
  | bitcast | sitofp | fptosi | trunc
  deriving DecidableEq, Repr, Inhabited

def Conversion.name : Conversion → String
  | bitcast => "bitcast" | sitofp => "sitofp" | fptosi => "fptosi" | trunc => "trunc"

/-- `name` is the register that takes the result. -/
inductive Instruction where
  | alloca (name : String) (type : Ty)
  | store (value target : Operand)
  | load (name : String) (type : Ty) (source : Operand)
  | binary (name : String) (opcode : Opcode) (type : Ty) (left right : Operand)
  | negate (name : String) (type : Ty) (operand : Operand)
  | compareInts (name : String) (relation : Relation) (left right : Operand)
  | compareDoubles (name : String) (relation : Relation) (left right : Operand)
  | convert (name : String) (conversion : Conversion) (operand : Operand) (type : Ty)
  | elementPointer (name : String) (base : Operand) (indices : List Operand)
  | call (name : String) (function : String) (prototype : Prototype) (arguments : List Operand)
  | branch (target : Option String)
  | branchIf (condition : Operand) (yes no : String)
  | ret (value : Option Operand)
  | comment (text : String)
  deriving Inhabited

/-- Terminators end a block. -/
def Instruction.isTerminator : Instruction → Bool
  | branch _ | branchIf .. | ret _ => true
  | _ => false

end Scriptlet.Ir
