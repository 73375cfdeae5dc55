import Scriptlet.Node.Sameness
import Scriptlet.Node.Wording

/-!
Putting a new node in the place of an operation or a call.

The place is looked for in the parent, by sameness: an operation is replaced in every operand place
of its parent that holds the same operation, a call in the first place that holds the same call.
-/

namespace Scriptlet.Draft

/-- The attributes in which a replaced node is looked for. -/
def operandFields : List Field :=
  [.value, .receiver, .arguments, .left, .right]

def replaceItem (old new : Value) (items : List Value) : Action (Option (List Value)) := do
  let graph ← currentGraph
  let isOld (item : Value) : Except Failure Bool :=
    if Graph.identical item old then .ok true else graph.same item old
  let rec go : List Value → Except Failure (Option (List Value))
    | [] => .ok none
    | item :: rest => do
        if ← isOld item then return some (new :: rest)
        else return (← go rest).map (item :: ·)
  (go items : Except Failure _)

/-- Replaces an operation in one attribute of its parent. -/
def replaceOperand (operation new parent : Value) (field : Field) : Action Unit := do
  let value ← getField parent field
  if ← same value operation then setField parent field new
  else match value with
    | .list items =>
        if let some replaced ← replaceItem operation new items then
          setField parent field (.list replaced)
    | .tuple items =>
        if let some replaced ← replaceItem operation new items then
          setField parent field (.tuple replaced)
    | _ => pure ()

def replaceOperation (operation new : Value) : Action Unit := do
  let parent ← getField operation .parent
  if parent.isGiven then
    for field in operandFields do
      if ← hasField parent field then
        handling (replaceOperand operation new parent field) fun failure =>
          printLine ("Error replacing node in '" ++ field.label ++ "': " ++ failure.wording)
    setField new .parent parent
    setField operation .transformed (.bool true)
  else printLine "No parent found for replacement"

mutual

/-- Looks for a call in the value of an attribute and below, and replaces it there. -/
def replaceBelow (call new : Value) : Nat → Value → Field → Value → Action Bool
  | 0, _, _, _ => fail .tooDeep
  | depth + 1, owner, field, value => do
      match value with
      | .list items => replaceInItems call new depth owner field .list [] items
      | .tuple items => replaceInItems call new depth owner field .tuple [] items
      | .record entries => replaceInEntries call new depth owner field [] entries
      | other =>
          if ← same other call then
            setField owner field new
            return true
          else replaceInOperands call new depth other operandFields

/-- Looks for a call below a value, attribute by attribute. -/
def replaceInOperands (call new : Value) : Nat → Value → List Field → Action Bool
  | 0, _, _ => fail .tooDeep
  | _, _, [] => return false
  | depth + 1, value, field :: rest => do
      if ← hasField value field then
        if ← replaceBelow call new depth value field (← getField value field) then return true
      replaceInOperands call new depth value rest

/-- Looks for a call in the items of a collection; `before` are those passed, last one first. -/
def replaceInItems (call new : Value) : Nat → Value → Field → (List Value → Value) → List Value →
    List Value → Action Bool
  | 0, _, _, _, _, _ => fail .tooDeep
  | _, _, _, _, _, [] => return false
  | depth + 1, owner, field, make, before, item :: rest => do
      if ← same item call then
        setField owner field (make (before.reverse ++ new :: rest))
        return true
      if ← replaceInOperands call new depth item operandFields then return true
      replaceInItems call new depth owner field make (item :: before) rest

def replaceInEntries (call new : Value) : Nat → Value → Field → List (String × Value) →
    List (String × Value) → Action Bool
  | 0, _, _, _, _ => fail .tooDeep
  | _, _, _, _, [] => return false
  | depth + 1, owner, field, before, (key, item) :: rest => do
      if ← same item call then
        setField owner field (.record (before.reverse ++ (key, new) :: rest))
        return true
      if ← replaceInOperands call new depth item operandFields then return true
      replaceInEntries call new depth owner field ((key, item) :: before) rest

end

def replaceCall (call new : Value) : Action Unit := do
  let parent ← getField call .parent
  if parent.isGiven then
    let .node id := parent | fail .noAttributes
    for (field, value) in ((← currentGraph).node id).fields do
      if ← replaceBelow call new walkDepth parent field value then
        setField new .parent parent
        setField call .transformed (.bool true)
        return
    setField new .parent parent

/-- Replaces a node by another; only operations and calls can be replaced. -/
def replace (old new : Value) : Action Unit := do
  if ← isKind .binary old then replaceOperation old new
  else if ← isKind .call old then replaceCall old new
  else throw ((← currentGraph).missing old "replace_with")

end Scriptlet.Draft
