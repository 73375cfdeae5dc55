import Scriptlet.Ir.Module

/-!
Which modules can be run: every block ends with its only terminator, branches stay inside the function,
and every operand is defined with the type that it is used at.  Comments do not count as instructions.
-/

namespace Scriptlet.Ir

abbrev Signatures := List (String × Ty)

def Instruction.definition? : Instruction → Option (String × Ty)
  | alloca name type => some (name, .pointer type)
  | load name type _ | binary name _ type _ _ | negate name type _ | convert name _ _ type => some (name, type)
  | compareInts name .. | compareDoubles name .. => some (name, Ty.i1)
  | elementPointer name .. => some (name, Ty.text)
  | call name _ prototype _ => match prototype.result with
      | .void => none
      | type => some (name, type)
  | store .. | branch _ | branchIf .. | ret _ | comment _ => none

def Instruction.isComment : Instruction → Bool
  | comment _ => true
  | _ => false

def Block.code (block : Block) : List Instruction :=
  block.instructions.filter fun instruction => !instruction.isComment

/-- A block ends with its only terminator. -/
def Block.isClosed (block : Block) : Bool :=
  match block.code.reverse with
  | last :: before => last.isTerminator && !before.any Instruction.isTerminator
  | [] => false

def Function.signatures (function : Function) : Signatures :=
  function.arguments.zip function.prototype.parameters ++
    function.blocks.flatMap fun block => block.instructions.filterMap Instruction.definition?

/-- Whether a constant can be read at a type. -/
def Constant.suits : Constant → Ty → Bool
  | int _, .int _ => true
  | word text, .int 1 => text == "true" || text == "false"
  | word text, .double => text == "0.0"
  | double _, .double => true
  | bytes data, .array count (.int 8) => data.length == count
  | zero, .array .. => true
  | _, _ => false

structure Surroundings where
  module : Module
  function : Function
  registers : Signatures

namespace Surroundings

/-- The type of an operand that is defined. -/
def typeOf? (around : Surroundings) : Operand → Option Ty
  | .constant type value => if value.suits type then some type else none
  | .global name target => match around.module.global? name with
      | some found => if found.target == target then some (.pointer target) else none
      | none => none
  | .register name type => match around.registers.lookup name with
      | some found => if found == type then some type else none
      | none => none
  | .nothing | .label _ => none

def hasType (around : Surroundings) (operand : Operand) (type : Ty) : Bool :=
  match around.typeOf? operand with
  | some found => found == type
  | none => false

def isInt : Ty → Bool
  | .int _ => true
  | _ => false

def suits (opcode : Opcode) (type : Ty) : Bool :=
  match opcode with
  | .fadd | .fsub | .fmul | .fdiv | .frem => type == .double
  | _ => isInt type

def acceptsArguments (around : Surroundings) (prototype : Prototype) (arguments : List Operand) : Bool :=
  (if prototype.isVariadic then prototype.parameters.length ≤ arguments.length
    else prototype.parameters.length == arguments.length) &&
  (prototype.parameters.zip arguments).all (fun (type, argument) => around.hasType argument type) &&
  arguments.all fun argument => (around.typeOf? argument).isSome

def hasBlock (around : Surroundings) (name : String) : Bool :=
  (around.function.block? name).isSome

def accepts (around : Surroundings) : Instruction → Bool
  | .alloca _ _ | .comment _ => true
  | .store value target => match around.typeOf? value with
      | some type => around.hasType target (.pointer type)
      | none => false
  | .load _ type source => around.hasType source (.pointer type)
  | .binary _ opcode type left right =>
      suits opcode type && around.hasType left type && around.hasType right type
  | .negate _ type operand => type == .double && around.hasType operand type
  | .compareInts _ _ left right => match around.typeOf? left with
      | some type => (isInt type || type.isPointer) && around.hasType right type
      | none => false
  | .compareDoubles _ _ left right => around.hasType left .double && around.hasType right .double
  | .convert _ .bitcast operand type => match around.typeOf? operand with
      | some given => given.isPointer && type.isPointer
      | none => false
  | .convert _ .sitofp operand type => match around.typeOf? operand with
      | some given => isInt given && type == .double
      | none => false
  | .convert _ .fptosi operand type => around.hasType operand .double && isInt type
  | .convert _ .trunc operand type => match around.typeOf? operand with
      | some given => isInt given && isInt type
      | none => false
  | .elementPointer _ base indices => match around.typeOf? base with
      | some type => type.isPointer && indices.all fun index => around.hasType index Ty.i64
      | none => false
  | .call _ callee prototype arguments => match around.module.function? callee with
      | some function => function.prototype.type == prototype.type && around.acceptsArguments prototype arguments
      | none => false
  | .branch (some target) => around.hasBlock target
  | .branch none => false
  | .branchIf condition yes no =>
      around.hasType condition Ty.i1 && around.hasBlock yes && around.hasBlock no
  | .ret none => around.function.prototype.result == .void
  | .ret (some value) => around.hasType value around.function.prototype.result

end Surroundings

/-- Names are written with one byte for a character. -/
def isNarrow (name : String) : Bool :=
  name.toList.all fun c => c.toNat < 256

def Function.isValid (module : Module) (function : Function) : Bool :=
  let around : Surroundings := ⟨module, function, function.signatures⟩
  isNarrow function.name &&
  around.registers.all (fun (name, _) => isNarrow name) &&
  function.blocks.all fun block => block.isClosed && block.instructions.all around.accepts

def Module.isValid (module : Module) : Bool :=
  module.globals.all fun global => match global with
    | .function function => function.isValid module
    | .datum _ => true

end Scriptlet.Ir
