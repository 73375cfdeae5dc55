/-!
The types of the intermediate code.
-/

namespace Scriptlet.Ir

inductive Ty where
  | void
  | int (width : Nat)
  | double
  | pointer (target : Ty)
  | array (length : Nat) (element : Ty)
  | function (result : Ty) (parameters : List Ty) (isVariadic : Bool)
  deriving Inhabited, Repr

namespace Ty

mutual

def beq : Ty → Ty → Bool
  | void, void => true
  | int a, int b => a == b
  | double, double => true
  | pointer a, pointer b => beq a b
  | array n a, array m b => n == m && beq a b
  | function r ps v, function s qs w => beq r s && beqAll ps qs && v == w
  | _, _ => false

def beqAll : List Ty → List Ty → Bool
  | [], [] => true
  | a :: as, b :: bs => beq a b && beqAll as bs
  | _, _ => false

end

instance : BEq Ty := ⟨beq⟩

abbrev i64 : Ty := .int 64
abbrev i1 : Ty := .int 1
abbrev i8 : Ty := .int 8

/-- The type of texts: a pointer to the first byte. -/
abbrev text : Ty := .pointer i8

mutual

def render : Ty → String
  | void => "void"
  | int width => "i" ++ toString width
  | double => "double"
  | pointer target => render target ++ "*"
  | array length element => "[" ++ toString length ++ " x " ++ render element ++ "]"
  | function result parameters isVariadic =>
      let rest := if isVariadic then (if parameters.isEmpty then "..." else ", ...") else ""
      render result ++ " (" ++ renderAll parameters ++ rest ++ ")"

/-- Types divided by commas. -/
def renderAll : List Ty → String
  | [] => ""
  | [type] => render type
  | type :: rest => render type ++ ", " ++ renderAll rest

end

def isPointer : Ty → Bool
  | pointer _ => true
  | _ => false

end Ty

end Scriptlet.Ir
