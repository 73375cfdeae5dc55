import Scriptlet.Scope.Listing
import Scriptlet.Scope.Scoping

/-!
Requests to a table of scopes, one for each thing that can be asked of it.

A request ends with an answer or fails.  Either way the table is left in some state, and the next
request starts from there.
-/

namespace Scriptlet

namespace ScopeTable

/-- What can be asked of a table; an index names one scope to look in. -/
inductive Request where
  | createScope
  | enterScope
  | exitScope
  | add (name : String) (symbol : Symbol)
  | addGlobalFunction (name : String) (functionData : Value)
  | update (name : String) (type value : Value)
  | setType (name : String) (type : Value)
  | setReference (name : String) (reference : Option Reference)
  | scopeId
  | inScope (name : String)
  | lookup (name : String) (index : Option Int)
  | isStatic (name : String) (index : Option Int)
  | functionType (name : String)
  | mangledName (name : String)
  | scopeOf (name : String)
  | isDeclared (name : String)
  | typeOf (name : String)
  | referenceOf (name : String)
  | listing

inductive Answer where
  | nothing
  | value (found : Value)
  | symbol (found : Option Symbol)
  | reference (found : Option Reference)

/-- The symbol of a name, in the scope that is given or from the current one outwards. -/
def find (table : ScopeTable) (name : String) : Option Int → Except Fault (Option Symbol)
  | some index => table.lookupIn? index name
  | none => .ok (table.lookup? name)

namespace Request

open Scoping (change)

def silently (action : Scoping.Action Unit) : Scoping.Action Answer := do
  action
  return .nothing

/-- Answers from the table as it is. -/
def reading (question : ScopeTable → Except Fault Answer) : Scoping.Action Answer := do
  orFail (question (← get).table)

def perform : Request → Scoping.Action Answer
  | .createScope => silently (change fun table => .ok table.createScope)
  | .enterScope => silently (change ScopeTable.enterScope)
  | .exitScope => silently (change ScopeTable.exitScope)
  | .add name symbol => silently (change fun table => table.add name symbol)
  | .addGlobalFunction name functionData => silently (change fun table => table.addGlobalFunction name functionData)
  | .update name type value => silently (Scoping.update name type value)
  | .setType name type => silently (change fun table => table.setType name type)
  | .setReference name reference => silently (change fun table => table.setReference name reference)
  | .scopeId => reading fun table => .ok (.value (.int table.currentId))
  | .inScope name => reading fun table => .ok (.symbol (table.inScope? name))
  | .lookup name index => reading fun table => .symbol <$> table.find name index
  | .isStatic name index => reading fun table => do return .value (← ScopeTable.isStatic (← table.find name index))
  | .functionType name => reading fun table => .value <$> table.functionType name
  | .mangledName name => reading fun table => .ok (.value ((table.mangledName? name).elim .null .text))
  | .scopeOf name => reading fun table => .ok (.value ((table.scopeOf? name).elim .null fun index => .int index))
  | .isDeclared name => reading fun table => .ok (.value (.bool (table.isDeclared name)))
  | .typeOf name => reading fun table => .value <$> table.typeOf name
  | .referenceOf name => reading fun table => .reference <$> table.reference name
  | .listing => silently do (← get).table.print

/-- Requests that work on the scopes or declare names: what they cannot do, they leave undone. -/
def isDeclarative : Request → Bool
  | .createScope | .enterScope | .exitScope | .add .. | .addGlobalFunction .. => true
  | _ => false

end Request

end ScopeTable

namespace Scoping

open ScopeTable (Request)

/-- The state in which a request leaves the table, whether it was answered or not. -/
def serve (scoping : Scoping) (request : Request) : Scoping :=
  match request.perform scoping with
  | .ok _ after | .error _ after => after

def serveAll (scoping : Scoping) (requests : List Request) : Scoping :=
  requests.foldl serve scoping

end Scoping

end Scriptlet
