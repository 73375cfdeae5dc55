import Scriptlet.CodeGen.Call

/-!
Code for statements and whole programs.
-/

namespace Scriptlet.Emit

open Draft (getField displayField)
open Ir (Ty Operand)

def emitDeclaration (visit : Value → Emit Operand) (node : Value) : Emit Unit := do
  let name := nameText (← getField node .name)
  let mangled := ((← table).mangledName? name).getD name
  let value ← visit (← getField node .value)
  let type ← typeOf value
  let slot ← alloca type mangled
  store value slot
  let reference := match slot with
    | .register name _ => some (Reference.slot name type)
    | _ => none
  changeTable fun table => table.setReference name reference

/-- The value that is stored in a variable of a given type; a double loses its fraction in an integer
variable. -/
def fitValue (node name : Value) (value : Operand) (expected : Ty) : Emit Operand := do
  let given ← typeOf value
  if given == expected then return value
  else if given == .double && expected == Ty.i64 then
    let line ← match ← getField node .line with
      | .scalar line => pure line
      | _ => pure .null
    (Journal.report
      { message := "Precision loss. Truncating double to int for Variable '" ++ (← Draft.display name) ++ "'."
        heading := "Warning", isError := false, line } : Draft.Action Unit)
    convert .fptosi value Ty.i64
  else
    refuse (.ofMessage .type ("Invalid assignment for symbol '" ++ (← Draft.display name) ++
      "'. expected '" ++ expected.render ++ "', got: '" ++ given.render ++ " '"))

def emitUpdate (visit : Value → Emit Operand) (node : Value) : Emit Unit := do
  let name ← getField node .name
  let key := nameText name
  if ((← table).mangledName? key).isNone then
    throw (.ofMessage .general ("Could not retrieve mangled name for '" ++ (← Draft.display name) ++
      "' from symbol table"))
  let value ← visit (← getField node .value)
  let expected ← irType (← orFail ((← table).typeOf key))
  match ← orFail ((← table).reference key) with
  | none =>
      throw (.ofMessage .general ("Variable '" ++ (← Draft.display name) ++
        "' referenced before declaration or update"))
  | some reference =>
      let fitted ← fitValue node name value expected
      store fitted (recorded reference)

def emitBlock (visit : Value → Emit Operand) (node : Value) : Emit Unit := do
  changeTable ScopeTable.enterScope
  for statement in ← Draft.itemsOf (← getField node .statements) do
    let _ ← visit statement
  changeTable ScopeTable.exitScope

/-- A block that holds nothing but its terminator gets an instruction without effect in front of it. -/
def padBlock : Emit Unit := do
  let block ← currentBlock
  if block.isTerminated && block.instructions.length = 1 then
    emitVoid (.comment "Nop")
    modify fun generation => { generation with anchor := 0 }
    let _ ← binary .add (.int 0) (.int 0)

/-- Ends a branch of a conditional: unless it has ended, it goes on at the merge block, which is
created when it is first needed. -/
def endBranch (merge : Option BlockRef) : Emit (Option BlockRef) := do
  padBlock
  if ← isTerminated then return merge
  let target ← match merge with
    | some target => pure target
    | none => appendBlock "if_merge"
  branchTo target
  return some target

def pairOf (value : Value) : Emit (Value × Value) := do
  match ← Draft.itemsOf value with
  | condition :: block :: _ => return (condition, block)
  | _ => fail (.outOfRange "tuple")

def emitBranches (visit : Value → Emit Operand) : Nat → List Value → Option BlockRef → Emit (Option BlockRef)
  | _, [], merge => return merge
  | position, branch :: rest, merge => do
      let (condition, block) ← pairOf branch
      let value ← visit condition
      let yes ← appendBlock ("elif" ++ toString position ++ "_true_branch")
      let no ← appendBlock ("elif" ++ toString position ++ "_false_branch")
      branchIf value yes no
      goToEnd yes
      let _ ← visit block
      let merge ← endBranch merge
      goToEnd no
      emitBranches visit (position + 1) rest merge

def emitConditional (visit : Value → Emit Operand) (node : Value) : Emit Unit := do
  let value ← visit (← getField node .comparison)
  let yes ← appendBlock "if_true_branch"
  let no ← appendBlock "if_false_branch"
  branchIf value yes no
  goToEnd yes
  let _ ← visit (← getField node .block)
  let merge ← endBranch none
  goToEnd no
  let branches ← getField node .elifNodes
  let _ ← Draft.lengthOf branches
  let merge ← emitBranches visit 0 (← Draft.itemsOf branches) merge
  let otherwise ← getField node .elseBlock
  unless otherwise.isNull do
    let _ ← visit otherwise
  let merge ← endBranch merge
  if let some target := merge then goToEnd target

def emitLoop (visit : Value → Emit Operand) (node : Value) : Emit Unit := do
  let condition ← appendBlock "while_cond"
  let body ← appendBlock "while_body"
  let after ← appendBlock "after_while"
  let outer := (← get).loopExit
  modify fun generation => { generation with loopExit := some after.block }
  branchTo condition
  goToEnd condition
  let value ← visit (← getField node .comparison)
  branchIf value body after
  goToEnd body
  let _ ← visit (← getField node .block)
  unless ← isTerminated do branchTo condition
  goToEnd after
  modify fun generation => { generation with loopExit := outer }

def emitBreak : Emit Unit := do
  branch (← get).loopExit

def emitParameters (function : String) : Nat → List Value → Emit Unit
  | _, [] => return
  | position, parameter :: rest => do
      let name := nameText (← getField parameter .name)
      let argument ← modifyFunction function (fun f => f.renameArgument position name) name
      let type ← irType (← getField parameter .type)
      let slot ← alloca type name
      store (.register argument type) slot
      let reference := match slot with
        | .register slotName _ => some (Reference.slot slotName type)
        | _ => none
      changeTable fun table => table.setReference name reference
      emitParameters function (position + 1) rest

/-- Goes back to the end of the first block of the main function. -/
def returnToMain : Emit Unit := do
  if let some main := (← get).module.function? "main" then
    match main.blocks.head? with
    | some entry => goToEnd ⟨"main", entry.name⟩
    | none => fail (.outOfRange "list")

def emitFunction (visit : Value → Emit Operand) (node : Value) : Emit Unit := do
  let returnType ← getField node .returnType
  let result ← irType returnType
  let parameters ← Draft.itemsOf (← getField node .parameters)
  let types ← parameters.mapM fun parameter => do irType (← getField parameter .type)
  let name ← getField node .name
  let key := nameText name
  addGlobal (.function (Ir.Function.new key ⟨result, types, false⟩))
  let entry ← modifyFunction key (fun f => f.appendBlock "entry") "entry"
  goToEnd ⟨key, entry⟩
  changeTable ScopeTable.enterScope
  emitParameters key 0 parameters
  for statement in ← Draft.itemsOf (← getField (← getField node .block) .statements) do
    let _ ← visit statement
  unless ← isTerminated do
    if result == .void then terminate (.ret none)
    else
      refuse (.ofMessage .returning ("The function '" ++ (← Draft.display name) ++
        "' expects a return type of '" ++ (← Draft.display returnType) ++
        "'. Please ensure the function is properly terminated. "))
  changeTable ScopeTable.exitScope
  returnToMain

/-- The value that is returned; only what comes out of an instruction can be. -/
def returnable (value : Operand) : Emit Unit :=
  match value with
  | .register _ _ => return
  | other => fail (other.lacks "is_pointer")

def emitReturn (visit : Value → Emit Operand) (node : Value) : Emit Unit := do
  let value ← getField node .value
  if ← Draft.isKind .null value then
    unless ← isTerminated do terminate (.ret none)
  else
    let result ← visit value
    returnable result
    unless ← isTerminated do terminate (.ret (some result))

/-- Generates the code of a program; what goes wrong is announced, and generation given up. -/
def emitProgram (visit : Value → Emit Operand) (node : Value) : Emit Unit := do
  let statements : Emit Unit := do
    for statement in ← Draft.itemsOf (← getField node .statements) do
      let _ ← visit statement
  match ← attempt statements with
  | .ok () | .error .exit => return
  | .error failure =>
      refuse (.ofMessage .compilation
        ("An unknown error occurred during code generation. " ++ failure.wording))

/-- Runs a rule that yields no value. -/
def silently (rule : Emit Unit) : Emit Operand := do
  rule
  return .nothing

def emitNode (visit : Value → Emit Operand) (node : Value) : Kind → Emit Operand
  | .plain | .expression => fail .abstract
  | .parameter => fail (.missingAttribute "LLVMCodeGenerator" "visit_parameter")
  | .argument => fail (.missingAttribute "LLVMCodeGenerator" "visit_argument")
  | .program => silently (emitProgram visit node)
  | .block => silently (emitBlock visit node)
  | .declaration => silently (emitDeclaration visit node)
  | .update => silently (emitUpdate visit node)
  | .reference => emitReference node
  | .function => silently (emitFunction visit node)
  | .returning => silently (emitReturn visit node)
  | .breaking => silently emitBreak
  | .call => emitCall visit node
  | .method => emitMethod visit node
  | .conditional => silently (emitConditional visit node)
  | .loop => silently (emitLoop visit node)
  | .concat => emitConcat visit node
  | .binary => emitBinary visit node
  | .unary => emitUnary visit node
  | .comparison => emitComparison visit node
  | .logical => emitLogical visit node
  | .integer => emitInteger node
  | .double => emitDouble node
  | .boolean => emitBoolean node
  | .string => emitString node
  | .null => return .constant Ty.i64 (.int 0)

/-- How deeply the nodes of a program may nest. -/
def nestingLimit : Nat := 600

def visitWithin : Nat → Value → Emit Operand
  | 0, _ => fail .tooDeep
  | depth + 1, value => do
      let graph ← Draft.currentGraph
      match graph.kindOf? value with
      | none => throw (graph.missing value "accept")
      | some kind => emitNode (visitWithin depth) value kind

def visit (value : Value) : Emit Operand :=
  visitWithin nestingLimit value

end Emit

/-- A module with an empty main function, and the place at the start of it. -/
def Generation.start (table : ScopeTable) (draft : Draft := {}) : Generation :=
  let main := (Ir.Function.new "main" ⟨.void, [], false⟩).appendBlock "entry"
  { toDraft := draft, table, module := ⟨[.function main.2]⟩, place := ⟨"main", main.1⟩ }

namespace Emit

/-- The module of a program; none if there were errors before or code generation was given up. -/
def generate (tree : Value) : Emit (Option Ir.Module) := do
  if (← get).journal.flagged then return none
  let outcome : Except Failure Ir.Operand ← attempt (visit tree)
  match outcome with
  | .error .exit => return none
  | .error failure => throw failure
  | .ok _ =>
      unless ← isTerminated do terminate (.ret none)
      return some (← get).module

end Emit

/-- Generates the module of an analysed program; the table of scopes records where variables are kept. -/
def generateModule (table : ScopeTable) (tree : Value) :
    Draft.Action (Option Ir.Module × ScopeTable) := fun draft =>
  match Emit.generate tree (Generation.start table draft) with
  | .ok module generation => .ok (module, generation.table) generation.toDraft
  | .error failure generation => .error failure generation.toDraft

end Scriptlet
