import Scriptlet.Scope.Symbol

/-!
Nested scopes.

A table is built once, by creating scopes, and can be walked again later, by entering them in the
order in which they were created.  Names are looked up from the innermost scope outwards.
-/

namespace Scriptlet

structure Scope where
  id : Nat
  parent : Option Nat
  children : List Nat := []
  symbols : List (String × Symbol) := []
  deriving Inhabited

/-- `path` are the scopes that enclose the current place, innermost first and the global scope last;
`entered` counts, for each of them, the inner scopes walked already. -/
structure ScopeTable where
  scopes : Array Scope := #[⟨0, none, [], []⟩]
  path : List Nat := [0]
  entered : List Nat := [0]
  nextId : Nat := 1
  deriving Inhabited

namespace ScopeTable

def scope (table : ScopeTable) (index : Nat) : Scope :=
  table.scopes.getD index default

def current (table : ScopeTable) : Nat :=
  table.path.headD 0

def currentScope (table : ScopeTable) : Scope :=
  table.scope table.current

def currentId (table : ScopeTable) : Nat :=
  table.currentScope.id

def createScope (table : ScopeTable) : ScopeTable :=
  let index := table.scopes.size
  let scopes := table.scopes.modify table.current fun scope =>
    { scope with children := scope.children ++ [index] }
  { scopes := scopes.push { id := table.nextId, parent := some table.current }
    path := index :: table.path
    entered := 0 :: table.entered
    nextId := table.nextId + 1 }

/-- Enters the next inner scope that has not been walked. -/
def enterScope (table : ScopeTable) : Except Fault ScopeTable :=
  let walked := table.entered.headD 0
  match table.currentScope.children[walked]? with
  | some child =>
      .ok { table with path := child :: table.path, entered := 0 :: (walked + 1) :: table.entered.tail }
  | none => .error .noUnvisitedScope

def exitScope (table : ScopeTable) : Except Fault ScopeTable :=
  match table.path with
  | _ :: outer :: rest => .ok { table with path := outer :: rest, entered := table.entered.tail }
  | _ => .error .atGlobalScope

/-- The scope in which a name is declared, searching outwards. -/
def scopeOf? (table : ScopeTable) (name : String) : Option Nat :=
  table.path.find? fun index => ((table.scope index).symbols.lookup name).isSome

def lookup? (table : ScopeTable) (name : String) : Option Symbol :=
  table.path.findSome? fun index => (table.scope index).symbols.lookup name

/-- The symbol of a name in one given scope; a negative number counts from the end. -/
def lookupIn? (table : ScopeTable) (index : Int) (name : String) : Except Fault (Option Symbol) :=
  if index < table.scopes.size then
    let place := if index < 0 then index + table.scopes.size else index
    if place < 0 then .error (.outOfRange "deque")
    else .ok ((table.scope place.toNat).symbols.lookup name)
  else .ok none

def inScope? (table : ScopeTable) (name : String) : Option Symbol :=
  table.currentScope.symbols.lookup name

def isDeclared (table : ScopeTable) (name : String) : Bool :=
  table.scopes.any fun scope => (scope.symbols.lookup name).isSome

def addTo (table : ScopeTable) (index : Nat) (name : String) (symbol : Symbol) : ScopeTable :=
  { table with scopes := table.scopes.modify index fun scope =>
      { scope with symbols := scope.symbols ++ [(name, symbol)] } }

/-- The name of a variable in the intermediate code: the name and the scope it belongs to. -/
def mangle (table : ScopeTable) (name : String) : String :=
  name ++ "$" ++ toString table.currentId

def add (table : ScopeTable) (name : String) (symbol : Symbol) : Except Fault ScopeTable :=
  if (table.inScope? name).isSome then .error (.alreadyDeclared name)
  else
    let mangledName := if symbol.isVariable then some (table.mangle name) else none
    .ok (table.addTo table.current name { symbol with mangledName })

def addGlobalFunction (table : ScopeTable) (name : String) (functionData : Value) :
    Except Fault ScopeTable :=
  if ((table.scope 0).symbols.lookup name).isSome then .error (.alreadyGlobal name)
  else .ok (table.addTo 0 name { kind := .text Symbol.functionKind, functionData })

def replaceSymbol (name : String) (symbol : Symbol) : List (String × Symbol) → List (String × Symbol)
  | [] => []
  | (key, old) :: rest =>
      if key = name then (key, symbol) :: rest else (key, old) :: replaceSymbol name symbol rest

/-- Replaces the symbol that a name stands for here. -/
def setSymbol (table : ScopeTable) (name : String) (symbol : Symbol) : ScopeTable :=
  match table.scopeOf? name with
  | some index =>
      { table with scopes := table.scopes.modify index fun scope =>
          { scope with symbols := replaceSymbol name symbol scope.symbols } }
  | none => table

/-- Whether a variable keeps the value it was declared with; null for an unknown name. -/
def isStatic (symbol : Option Symbol) : Except Fault Value :=
  match symbol with
  | none => .ok .null
  | some symbol =>
      if symbol.isVariable then Symbol.entry symbol.variableData "isStatic" (.bool false)
      else .ok (.bool false)

def functionType (table : ScopeTable) (name : String) : Except Fault Value :=
  match table.lookup? name with
  | some symbol =>
      if symbol.isFunction then Symbol.entry symbol.functionData "return_type"
      else .error (.unknownFunction name)
  | none => .error (.unknownFunction name)

def mangledName? (table : ScopeTable) (name : String) : Option String :=
  (table.lookup? name).map fun symbol => symbol.mangledName.getD name

def noSymbol : Fault :=
  .missingAttribute Scalar.null.sortName "get"

def typeOf (table : ScopeTable) (name : String) : Except Fault Value :=
  match table.lookup? name with
  | some symbol => symbol.type
  | none => .error noSymbol

def setType (table : ScopeTable) (name : String) (type : Value) : Except Fault ScopeTable := do
  match table.lookup? name with
  | none => .error noSymbol
  | some symbol =>
      let changed ←
        if symbol.isParameter then
          pure { symbol with parameterData := ← Symbol.withEntry symbol.parameterData "data_type" type }
        else if symbol.isFunction then
          pure { symbol with functionData := ← Symbol.withEntry symbol.functionData "return_type" type }
        else if symbol.isVariable then
          pure { symbol with variableData := ← Symbol.withEntry symbol.variableData "data_type" type }
        else .error (.unknownSymbolKind (match symbol.kind with | .scalar s => s.display | _ => ""))
      return table.setSymbol name changed

/-- Records the type and, if it is not null, the value given in an update.  The type is recorded even
if the value is refused. -/
def update (table : ScopeTable) (name : String) (type value : Value) : ScopeTable × Except Fault Unit :=
  match table.lookup? name with
  | none => (table, .error (.undeclared name))
  | some symbol =>
      let typed := { symbol with updatedType := some type }
      if value.isNull then (table.setSymbol name typed, .ok ())
      else if symbol.isVariable || symbol.isParameter then
        match Symbol.withEntry symbol.variableData "value" value with
        | .ok variableData => (table.setSymbol name { typed with variableData }, .ok ())
        | .error fault => (table.setSymbol name typed, .error fault)
      else
        (table.setSymbol name typed,
          .error (.notUpdatable (match symbol.kind with | .scalar s => s.display | _ => "") name))

def setReference (table : ScopeTable) (name : String) (reference : Option Reference) :
    Except Fault ScopeTable :=
  match table.lookup? name with
  | some symbol => .ok (table.setSymbol name { symbol with reference })
  | none => .error (.noVariable name)

def reference (table : ScopeTable) (name : String) : Except Fault (Option Reference) :=
  match table.lookup? name with
  | some symbol => .ok symbol.reference
  | none => .error (.noReference name)

end ScopeTable

end Scriptlet
