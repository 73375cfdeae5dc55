import Scriptlet.Ir.Instruction
import Scriptlet.Ir.NameScope

/-!
Modules: functions and global variables in the order of their creation.
-/

namespace Scriptlet.Ir

structure Block where
  name : String
  instructions : List Instruction := []
  deriving Inhabited

namespace Block

def isTerminated (block : Block) : Bool :=
  block.instructions.any Instruction.isTerminator

def insert (block : Block) (position : Nat) (instruction : Instruction) : Block :=
  { block with
    instructions := block.instructions.take position ++ instruction :: block.instructions.drop position }

end Block

/-- A function without blocks is defined elsewhere. -/
structure Function where
  name : String
  prototype : Prototype
  arguments : List String
  names : NameScope
  blocks : List Block := []
  deriving Inhabited

namespace Function

def nameArguments : List Ty → NameScope → List String × NameScope
  | [], names => ([], names)
  | _ :: rest, names =>
      let (name, names) := names.fresh ""
      let (others, names) := nameArguments rest names
      (name :: others, names)

/-- A new function; its result takes a name too. -/
def new (name : String) (prototype : Prototype) : Function :=
  let (arguments, names) := nameArguments prototype.parameters {}
  { name, prototype, arguments, names := (names.fresh "").2 }

def block? (function : Function) (name : String) : Option Block :=
  function.blocks.find? fun block => block.name == name

def modifyBlock (function : Function) (name : String) (change : Block → Block) : Function :=
  { function with blocks := function.blocks.map fun block => if block.name == name then change block else block }

def appendBlock (function : Function) (base : String) : String × Function :=
  let (name, names) := function.names.fresh base
  (name, { function with names, blocks := function.blocks ++ [{ name }] })

/-- Gives an argument a new name; the old one stays taken. -/
def renameArgument (function : Function) (position : Nat) (base : String) : String × Function :=
  let (name, names) := function.names.fresh base
  (name, { function with names, arguments := function.arguments.set position name })

end Function

/-- Where a datum can be seen from. -/
inductive Linkage where
  | internal
  | external
  deriving DecidableEq, Repr, Inhabited

structure Datum where
  name : String
  type : Ty
  isConstant : Bool := false
  linkage : Option Linkage := none
  initializer : Option Constant := none
  deriving Inhabited

inductive Global where
  | function (function : Function)
  | datum (datum : Datum)
  deriving Inhabited

namespace Global

def name : Global → String
  | function f => f.name
  | datum d => d.name

def target : Global → Ty
  | function f => f.prototype.type
  | datum d => d.type

def operand (self : Global) : Operand :=
  .global self.name self.target

end Global

structure Module where
  globals : List Global := []
  deriving Inhabited

namespace Module

def global? (module : Module) (name : String) : Option Global :=
  module.globals.find? fun global => global.name == name

def function? (module : Module) (name : String) : Option Function :=
  match module.global? name with
  | some (.function f) => some f
  | _ => none

/-- Adds a global; its name must be new. -/
def add (module : Module) (global : Global) : Except Fault Module :=
  if global.name.isEmpty || (module.global? global.name).isSome then .error (.duplicateName global.name)
  else .ok { globals := module.globals ++ [global] }

def modifyFunction (module : Module) (name : String) (change : Function → Function) : Module :=
  { globals := module.globals.map fun global => match global with
      | .function f => if f.name == name then .function (change f) else global
      | .datum _ => global }

end Module

end Scriptlet.Ir
