import Scriptlet.Ir.Module
import Scriptlet.Library
import Scriptlet.Scope.Table

/-!
The state of code generation: the module built so far and the place where the next instruction goes.

Every instruction takes a name in its function, also one that has no result.
-/

namespace Scriptlet

structure BlockRef where
  function : String
  block : String
  deriving DecidableEq, Repr, Inhabited

structure Generation extends Draft where
  table : ScopeTable := {}
  module : Ir.Module := {}
  place : BlockRef := ⟨"main", "entry"⟩
  /-- The position in the block before which the next instruction goes. -/
  anchor : Nat := 0
  stringCount : Nat := 0
  /-- Where a break leads. -/
  loopExit : Option String := none
  deriving Inhabited

instance : Carries Generation where
  draft generation := generation.toDraft
  withDraft generation draft := { generation with toDraft := draft }

abbrev Emit := EStateM Failure Generation

namespace Emit

open Ir (Ty Operand Instruction Opcode Relation Conversion Prototype Global)

def refuse {α : Type} (failure : Failure) : Emit α := do
  (Journal.announce failure : Draft.Action Unit)
  throw .exit

def table : Emit ScopeTable :=
  return (← get).table

def changeTable (change : ScopeTable → Except Fault ScopeTable) : Emit Unit := do
  let table ← orFail (change (← table))
  modify fun generation => { generation with table }

/-! ### Places -/

def currentBlock : Emit Ir.Block := do
  let generation ← get
  match (generation.module.function? generation.place.function).bind (·.block? generation.place.block) with
  | some block => return block
  | none => return default

def isTerminated : Emit Bool :=
  return (← currentBlock).isTerminated

def goToEnd (place : BlockRef) : Emit Unit := do
  modify fun generation => { generation with place }
  let block ← currentBlock
  modify fun generation => { generation with anchor := block.instructions.length }

def modifyFunction {α : Type} (name : String) (change : Ir.Function → α × Ir.Function) (default : α) :
    Emit α :=
  modifyGet fun generation =>
    match generation.module.function? name with
    | some function =>
        let (result, changed) := change function
        (result, { generation with module := generation.module.modifyFunction name fun _ => changed })
    | none => (default, generation)

def appendBlock (base : String) : Emit BlockRef := do
  let function := (← get).place.function
  let block ← modifyFunction function (fun f => f.appendBlock base) base
  return ⟨function, block⟩

/-! ### Instructions -/

def freshName (base : String := "") : Emit String := do
  modifyFunction (← get).place.function
    (fun f =>
      let (name, names) := f.names.fresh base
      (name, { f with names }))
    base

def insert (instruction : Instruction) : Emit Unit :=
  modify fun generation =>
    { generation with
      module := generation.module.modifyFunction generation.place.function fun f =>
        f.modifyBlock generation.place.block fun block => block.insert generation.anchor instruction
      anchor := generation.anchor + 1 }

def emit (type : Ty) (make : String → Instruction) (base : String := "") : Emit Operand := do
  let name ← freshName base
  insert (make name)
  return .register name type

def emitVoid (instruction : Instruction) : Emit Unit := do
  let _ ← freshName
  insert instruction

/-- Ends the current block, which must not have ended yet. -/
def terminate (instruction : Instruction) : Emit Unit := do
  let _ ← freshName
  if ← isTerminated then fail .failedAssertion
  insert instruction

def typeOf (operand : Operand) : Emit Ty :=
  orFail operand.type

/-- A pointer to a type; there are no pointers to nothing. -/
def pointerTo : Ty → Emit Ty
  | .void => fail .failedAssertion
  | type => return .pointer type

def alloca (type : Ty) (base : String := "") : Emit Operand := do
  emit (← pointerTo type) (.alloca · type) base

def store (value target : Operand) : Emit Unit := do
  match ← typeOf target with
  | .pointer expected =>
      let given ← typeOf value
      unless given == expected do
        fail (.storeMismatch given.render (Ty.pointer expected).render)
      emitVoid (.store value target)
  | other => fail (.notAddress "store to" other.render "")

def load (source : Operand) (base : String := "") : Emit Operand := do
  match ← typeOf source with
  | .pointer type => emit type (.load · type source) base
  | other => fail (.notAddress "load from" other.render "")

def binary (opcode : Opcode) (left right : Operand) : Emit Operand := do
  let leftType ← typeOf left
  let rightType ← typeOf right
  unless leftType == rightType do
    fail (.operandMismatch leftType.render rightType.render)
  emit leftType (.binary · opcode leftType left right)

def negateDouble (operand : Operand) : Emit Operand := do
  let type ← typeOf operand
  emit type (.negate · type operand)

def negateInt (operand : Operand) : Emit Operand := do
  binary .sub (.constant (← typeOf operand) (.int 0)) operand

/-- The complement: a double has the double -1 for the constant. -/
def complement (operand : Operand) : Emit Operand := do
  let type ← typeOf operand
  let ones : Ir.Constant := if type == .double then .double (-1) else .int (-1)
  binary .xor operand (.constant type ones)

def compareInts (relation : Relation) (left right : Operand) : Emit Operand :=
  emit Ty.i1 (.compareInts · relation left right)

def compareDoubles (relation : Relation) (left right : Operand) : Emit Operand :=
  emit Ty.i1 (.compareDoubles · relation left right)

/-- A conversion to the type that a value has anyway is left out. -/
def convert (conversion : Conversion) (operand : Operand) (type : Ty) : Emit Operand := do
  if (← typeOf operand) == type then return operand
  else emit type (.convert · conversion operand type)

def toDouble (operand : Operand) : Emit Operand :=
  convert .sitofp operand .double

def toText (operand : Operand) : Emit Operand :=
  convert .bitcast operand Ty.text

/-- The type reached from a type by one index. -/
def indexed (type : Ty) (index : Operand) : Emit Ty := do
  match ← typeOf index with
  | .int _ =>
      match type with
      | .pointer target => return target
      | .array _ element => return element
      | other => return other
  | other => fail (.notIndex other.render)

/-- The type reached by indices, and the one before it. -/
def indexedAll (last type : Ty) : List Operand → Emit (Ty × Ty)
  | [] => return (last, type)
  | index :: rest => do indexedAll type (← indexed type index) rest

def elementPointer (base : Operand) (indices : List Operand) : Emit Operand := do
  let type ← typeOf base
  let (last, reached) ← indexedAll type type indices
  let result := if !reached.isPointer && last.isPointer then last else .pointer reached
  emit result (.elementPointer · base indices)

/-- Checks the first arguments of a call against the parameters; there may be more arguments. -/
def checkArguments : Nat → List Ty → List Operand → Emit Unit
  | _, [], _ => return
  | _, _ :: _, [] => fail (.outOfRange "list")
  | position, expected :: parameters, argument :: arguments => do
      let given ← typeOf argument
      unless given == expected do
        fail (.argumentMismatch position expected.render given.render)
      checkArguments (position + 1) parameters arguments

def call (callee : Global) (arguments : List Operand) : Emit Operand := do
  match callee with
  | .datum _ => fail (.missingAttribute "GlobalVariable" "function_type")
  | .function function =>
      let prototype := function.prototype
      checkArguments 1 prototype.parameters arguments
      emit prototype.result (.call · function.name prototype arguments)

def branch (target : Option String) : Emit Unit :=
  terminate (.branch target)

def branchTo (target : BlockRef) : Emit Unit :=
  branch (some target.block)

def branchIf (condition : Operand) (yes no : BlockRef) : Emit Unit :=
  terminate (.branchIf condition yes.block no.block)

/-! ### Globals -/

def global? (name : String) : Emit (Option Global) :=
  return (← get).module.global? name

def global (name : String) : Emit Global := do
  match ← global? name with
  | some found => return found
  | none => fail (.missingKey name)

def addGlobal (global : Global) : Emit Unit := do
  let module ← orFail ((← get).module.add global)
  modify fun generation => { generation with module }

def ensureGlobal (global : Global) : Emit Unit := do
  if (← global? global.name).isNone then addGlobal global

end Emit

end Scriptlet
