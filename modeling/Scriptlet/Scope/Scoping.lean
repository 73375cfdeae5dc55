import Scriptlet.Node.Graph
import Scriptlet.Scope.Table

/-!
Work on a table of scopes beside a draft.
-/

namespace Scriptlet

structure Scoping extends Draft where
  table : ScopeTable := {}
  deriving Inhabited

instance : Carries Draft where
  draft := id
  withDraft _ draft := draft

instance : Carries Scoping where
  draft scoping := scoping.toDraft
  withDraft scoping draft := { scoping with toDraft := draft }

namespace Scoping

abbrev Action := EStateM Failure Scoping

def setTable (table : ScopeTable) : Action Unit :=
  modify fun scoping => { scoping with table }

/-- Changes the table, or leaves it as it is. -/
def change (operation : ScopeTable → Except Fault ScopeTable) : Action Unit := do
  setTable (← orFail (operation (← get).table))

/-- Records a type and a value; what was recorded before a refusal stays. -/
def update (name : String) (type value : Value) : Action Unit := do
  let (table, outcome) := (← get).table.update name type value
  setTable table
  orFail outcome

end Scoping

end Scriptlet
