import Scriptlet.Failure
import Scriptlet.Ir.Type

/-!
Operands of the intermediate code.
-/

namespace Scriptlet.Ir

/-- Constants; the type stands beside them. -/
inductive Constant where
  | int (value : Int)
  /-- A constant by its spelling. -/
  | word (text : String)
  | double (value : Float)
  | bytes (data : List UInt8)
  /-- Zero in every byte. -/
  | zero
  /-- A constant that cannot be written, and why. -/
  | unwritable (fault : Fault)
  deriving Inhabited

/-- `nothing` stands for the result of what has none, `label` for a text that a table of scopes holds in
place of a slot. -/
inductive Operand where
  | nothing
  | label (text : String)
  | constant (type : Ty) (value : Constant)
  | global (name : String) (target : Ty)
  | register (name : String) (type : Ty)
  deriving Inhabited

namespace Operand

def type? : Operand → Option Ty
  | nothing | label _ => none
  | constant type _ => some type
  | global _ target => some (.pointer target)
  | register _ type => some type

def isNothing : Operand → Bool
  | nothing => true
  | _ => false

/-- The name of the sort of value that an operand is. -/
def sortName : Operand → String
  | nothing => Scalar.null.sortName
  | label text => (Scalar.text text).sortName
  | constant _ _ => "Constant"
  | global _ _ => "GlobalVariable"
  | register _ _ => "Instruction"

/-- What is said when an operand is asked for what it does not have. -/
def lacks (operand : Operand) (field : String) : Fault :=
  .missingAttribute operand.sortName field

def type (operand : Operand) : Except Fault Ty :=
  match operand.type? with
  | some type => .ok type
  | none => .error (operand.lacks "type")

def int (value : Int) : Operand :=
  .constant Ty.i64 (.int value)

end Operand

end Scriptlet.Ir
