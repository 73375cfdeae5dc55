import Scriptlet.Ir.Module
import Scriptlet.Ir.Name
import Scriptlet.Number.Shortest
import Scriptlet.Text.Column

/-!
The text of a module.
-/

namespace Scriptlet.Ir

/-- The bytes that stand for themselves inside a constant text. -/
def plainBytes : String :=
  " !#$%&'()*+,-./:;<=>?@[]^_`\x7b|\x7d~"

def byteText (byte : UInt8) : String :=
  let c := Char.ofNat byte.toNat
  if c.isAlphanum || plainBytes.toList.contains c then c.toString
  else "\\" ++ Text.hexDigits 2 byte.toNat

/-- The bits of a double in base 16, at least 16 characters wide. -/
def doubleText (value : Float) : String :=
  Text.padLeft 16 ("0x" ++ Text.hexDigits 1 value.toBits.toNat)

def Constant.render : Constant → Except Fault String
  | int value => .ok (toString value)
  | word text => .ok text
  | double value => .ok (doubleText value)
  | bytes data => .ok ("c\"" ++ String.join (data.map byteText) ++ "\"")
  | zero => .ok "zeroinitializer"
  | unwritable fault => .error fault

namespace Operand

def render : Operand → Except Fault String
  | nothing => .error (nothing.lacks "get_reference")
  | label text => .error ((label text).lacks "get_reference")
  | constant _ value => value.render
  | global name _ => .ok (globalName name)
  | register name _ => .ok (localName name)

def renderTyped (operand : Operand) : Except Fault String := do
  return (← operand.type).render ++ " " ++ (← operand.render)

end Operand

def commaList (parts : List String) : String :=
  String.intercalate ", " parts

def pointee (type : Ty) : Ty :=
  match type with
  | .pointer target => target
  | other => other

namespace Instruction

/-- What stands behind the result and the equals sign. -/
def body : Instruction → Except Fault String
  | alloca _ type => .ok ("alloca " ++ type.render)
  | store value target => return "store " ++ (← value.renderTyped) ++ ", " ++ (← target.renderTyped)
  | load _ type source => return "load " ++ type.render ++ ", " ++ (← source.renderTyped)
  | binary _ opcode type left right =>
      return opcode.name ++ " " ++ type.render ++ " " ++ (← left.render) ++ ", " ++ (← right.render)
  | negate _ type operand => return "fneg " ++ type.render ++ " " ++ (← operand.render)
  | compareInts _ relation left right =>
      return "icmp " ++ relation.signedName ++ " " ++ (← left.renderTyped) ++ ", " ++ (← right.render)
  | compareDoubles _ relation left right =>
      return "fcmp " ++ relation.orderedName ++ " " ++ (← left.renderTyped) ++ ", " ++ (← right.render)
  | convert _ conversion operand type =>
      return conversion.name ++ " " ++ (← operand.renderTyped) ++ " to " ++ type.render
  | elementPointer _ base indices =>
      return "getelementptr " ++ (pointee (← base.type)).render ++ ", " ++
        commaList (← (base :: indices).mapM Operand.renderTyped)
  | call _ function prototype arguments =>
      let type := if prototype.isVariadic then prototype.type else prototype.result
      return "call " ++ type.render ++ " " ++ globalName function ++ "(" ++
        commaList (← arguments.mapM Operand.renderTyped) ++ ")"
  | branch (some target) => .ok ("br label " ++ localName target)
  | branch none => .error (Operand.nothing.lacks "type")
  | branchIf condition yes no =>
      return "br " ++ (← condition.renderTyped) ++ ", label " ++ localName yes ++ ", label " ++ localName no
  | ret none => .ok "ret void"
  | ret (some value) => return "ret " ++ (← value.renderTyped)
  | comment text => .ok ("; " ++ text)

/-- The register that takes the result, if there is one. -/
def result? : Instruction → Option String
  | alloca name _ | load name .. | binary name .. | negate name .. | compareInts name ..
  | compareDoubles name .. | convert name .. | elementPointer name .. => some name
  | call name _ prototype _ => match prototype.result with
      | .void => none
      | _ => some name
  | store .. | branch _ | branchIf .. | ret _ | comment _ => none

def render (instruction : Instruction) : Except Fault String := do
  match instruction.result? with
  | some name => return localName name ++ " = " ++ (← instruction.body)
  | none => instruction.body

end Instruction

def trimRight (s : String) : String :=
  String.ofList (s.toList.reverse.dropWhile (· == ' ')).reverse

def Block.render (block : Block) : Except Fault String := do
  let lines ← block.instructions.mapM fun instruction =>
    return "  " ++ trimRight (← instruction.render) ++ "\n"
  return labelName block.name ++ ":\n" ++ String.join lines

def Function.head (function : Function) : String :=
  let parameters := (function.prototype.parameters.zip function.arguments).map fun (type, name) =>
    type.render ++ " " ++ localName name
  let rest := if function.prototype.isVariadic then ["..."] else []
  function.prototype.result.render ++ " " ++ globalName function.name ++ "(" ++
    commaList (parameters ++ rest) ++ ")"

def Function.render (function : Function) : Except Fault String := do
  if function.blocks.isEmpty then return "declare " ++ function.head ++ "\n"
  else
    let blocks ← function.blocks.mapM Block.render
    return "define " ++ function.head ++ "\n\x7b\n" ++ String.join blocks ++ "\x7d\n"

def Linkage.name : Linkage → String
  | internal => "internal"
  | external => "external"

/-- A datum without a value is defined elsewhere. -/
def Datum.render (datum : Datum) : Except Fault String := do
  let linkage := match datum.linkage, datum.initializer with
    | some linkage, _ => linkage.name ++ " "
    | none, none => "external "
    | none, some _ => ""
  let sort := if datum.isConstant then "constant " else "global "
  let value ← match datum.initializer with
    | some constant => do pure (" " ++ (← constant.render))
    | none => pure ""
  return globalName datum.name ++ " = " ++ linkage ++ sort ++ datum.type.render ++ value

def Global.render : Global → Except Fault String
  | function f => f.render
  | datum d => d.render

def Module.render (module : Module) : Except Fault String := do
  let globals ← module.globals.mapM Global.render
  return String.intercalate "\n"
    (["; ModuleID = \"module\"", "target triple = \"unknown-unknown-unknown\"",
      "target datalayout = \"\"", ""] ++ globals)

end Scriptlet.Ir
