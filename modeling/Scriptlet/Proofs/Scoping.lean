import Scriptlet.Proofs.Entries
import Scriptlet.Proofs.Outcome

/-!
Tables of scopes: what each operation does to the scopes, to the names in them, and to the place in
the table.
-/

namespace Scriptlet

/-! ### Records of data -/

theorem Value.lookup_setEntry (key other : String) (value : Value) (entries : List (String × Value)) :
    (setEntry key value entries).lookup other = if other = key then some value else entries.lookup other :=
  lookup_put (setEntry key value) rfl (fun _ _ _ => rfl) entries other

theorem Symbol.entry_withEntry {data changed content absent : Value} {key other : String}
    (h : withEntry data key content = .ok changed) :
    entry changed other absent = if other = key then .ok content else entry data other absent := by
  unfold withEntry at h
  split at h
  · cases h
    simp only [entry, Value.lookup_setEntry]
    split <;> rfl
  all_goals cases h

namespace ScopeTable

/-! ### Symbols -/

variable {table table' : ScopeTable} {name other : String} {symbol found : Symbol} {index i : Nat}

theorem lookup_replaceSymbol (name other : String) (symbol : Symbol) (symbols : List (String × Symbol)) :
    (replaceSymbol name symbol symbols).lookup other =
      if other = name then (symbols.lookup name).map fun _ => symbol else symbols.lookup other := by
  induction symbols with
  | nil => simp [replaceSymbol]
  | cons entry rest ih =>
      obtain ⟨key, old⟩ := entry
      by_cases hkey : key = name
      · subst hkey
        by_cases h : other = key
        · simp [replaceSymbol, h]
        · simp [replaceSymbol, List.lookup_cons, h, beq_eq_false_iff_ne.2 h]
      · rw [replaceSymbol, if_neg hkey, List.lookup_cons, ih, List.lookup_cons, List.lookup_cons]
        by_cases h : other = name
        · subst h
          simp [beq_eq_false_iff_ne.2 (Ne.symm hkey)]
        · simp [h]

theorem getD_modify (scopes : Array Scope) (index i : Nat) (change : Scope → Scope) :
    (scopes.modify index change).getD i default =
      if i = index ∧ index < scopes.size then change (scopes.getD i default)
      else scopes.getD i default := by
  simp only [Array.getD_eq_getD_getElem?, Array.getElem?_modify]
  by_cases h : index = i
  · subst h
    by_cases hlt : index < scopes.size <;> simp [hlt]
  · have : i ≠ index := fun hi => h hi.symm
    simp [h, this]

/-- There are no names in scopes that do not exist. -/
theorem lt_size_of_lookup (h : ((table.scope index).symbols.lookup name).isSome) :
    index < table.scopes.size := by
  by_contra hge
  have hnone : table.scope index = default := by
    simp [scope, Array.getD, hge]
  simp [hnone, show (default : Scope).symbols = [] from rfl] at h

/-! ### Finding names -/

theorem path_eq_cons (hpath : table.path ≠ []) : ∃ rest, table.path = table.current :: rest := by
  cases hp : table.path with
  | nil => exact absurd hp hpath
  | cons head rest => exact ⟨rest, by simp [current, hp]⟩

theorem lookup_of_scopeOf? (h : table.scopeOf? name = some index) :
    ((table.scope index).symbols.lookup name).isSome := by
  simpa using List.find?_some h

theorem scopeOf?_of_current (h : ((table.scope table.current).symbols.lookup name).isSome)
    (hpath : table.path ≠ []) : table.scopeOf? name = some table.current := by
  unfold scopeOf? current at *
  cases hp : table.path with
  | nil => exact absurd hp hpath
  | cons head rest =>
      rw [hp] at h
      simp [show ((table.scope head).symbols.lookup name).isSome = true from h]

theorem lookup?_eq (table : ScopeTable) (name : String) :
    table.lookup? name =
      (table.scopeOf? name).bind fun index => (table.scope index).symbols.lookup name := by
  unfold lookup? scopeOf?
  induction table.path with
  | nil => rfl
  | cons head rest ih =>
      rw [List.findSome?_cons, List.find?_cons]
      cases hlookup : (table.scope head).symbols.lookup name with
      | none => simpa using ih
      | some symbol => simp [hlookup]

/-! ### Changing symbols -/

@[simp] theorem path_setSymbol : (table.setSymbol name symbol).path = table.path := by
  unfold setSymbol
  split <;> rfl

@[simp] theorem entered_setSymbol : (table.setSymbol name symbol).entered = table.entered := by
  unfold setSymbol
  split <;> rfl

theorem scope_setSymbol (table : ScopeTable) (name : String) (symbol : Symbol) (i : Nat) :
    (table.setSymbol name symbol).scope i =
      if table.scopeOf? name = some i then
        { table.scope i with symbols := replaceSymbol name symbol (table.scope i).symbols }
      else table.scope i := by
  unfold setSymbol
  cases hscope : table.scopeOf? name with
  | none => simp
  | some index =>
      have hlt : index < table.scopes.size := lt_size_of_lookup (lookup_of_scopeOf? hscope)
      simp only [scope, getD_modify, hlt, and_true, Option.some.injEq]
      by_cases h : i = index
      · simp [h]
      · have : index ≠ i := fun hi => h hi.symm
        simp [h, this]

theorem lookup_setSymbol (table : ScopeTable) (name other : String) (symbol : Symbol) (i : Nat) :
    ((table.setSymbol name symbol).scope i).symbols.lookup other =
      if table.scopeOf? name = some i ∧ other = name then some symbol
      else (table.scope i).symbols.lookup other := by
  rw [scope_setSymbol]
  by_cases hscope : table.scopeOf? name = some i
  · rw [if_pos hscope, lookup_replaceSymbol]
    by_cases h : other = name
    · obtain ⟨found, hfound⟩ := Option.isSome_iff_exists.1 (lookup_of_scopeOf? hscope)
      simp [h, hscope, hfound]
    · simp [h]
  · simp [hscope]

theorem scopeOf?_setSymbol : (table.setSymbol name symbol).scopeOf? other = table.scopeOf? other := by
  have hsame : ∀ i, (((table.setSymbol name symbol).scope i).symbols.lookup other).isSome =
      ((table.scope i).symbols.lookup other).isSome := by
    intro i
    rw [lookup_setSymbol]
    split
    case isTrue h =>
      obtain ⟨hscope, rfl⟩ := h
      rw [lookup_of_scopeOf? hscope]
      rfl
    case isFalse => rfl
  simp only [scopeOf?, path_setSymbol, hsame]

theorem lookup?_setSymbol (h : table.lookup? name = some found) :
    (table.setSymbol name symbol).lookup? name = some symbol := by
  rw [lookup?_eq] at h
  obtain ⟨index, hscope, -⟩ := Option.bind_eq_some_iff.1 h
  rw [lookup?_eq, scopeOf?_setSymbol, hscope]
  exact (lookup_setSymbol ..).trans (if_pos ⟨hscope, rfl⟩)

@[simp] theorem children_setSymbol :
    ((table.setSymbol name symbol).scope i).children = (table.scope i).children := by
  rw [scope_setSymbol]
  split <;> rfl

@[simp] theorem size_setSymbol : (table.setSymbol name symbol).scopes.size = table.scopes.size := by
  unfold setSymbol
  split <;> simp

theorem setReference_eq_ok {reference : Option Reference} :
    table.setReference name reference = .ok table' ↔
      ∃ symbol, table.lookup? name = some symbol ∧ table' = table.setSymbol name { symbol with reference } := by
  unfold setReference
  cases table.lookup? name <;> simp [eq_comm]

theorem reference_eq_ok {reference : Option Reference} :
    table.reference name = .ok reference ↔
      ∃ symbol, table.lookup? name = some symbol ∧ symbol.reference = reference := by
  unfold ScopeTable.reference
  cases table.lookup? name <;> simp

/-! ### Entering and leaving scopes -/

theorem enterScope_eq_ok :
    table.enterScope = .ok table' ↔
      ∃ child, table.currentScope.children[table.entered.headD 0]? = some child ∧
        table' = { table with
          path := child :: table.path
          entered := 0 :: (table.entered.headD 0 + 1) :: table.entered.tail } := by
  unfold enterScope
  dsimp only
  cases table.currentScope.children[table.entered.headD 0]? <;> simp [eq_comm]

theorem exitScope_eq_ok :
    table.exitScope = .ok table' ↔
      ∃ inner outer rest, table.path = inner :: outer :: rest ∧
        table' = { table with path := outer :: rest, entered := table.entered.tail } := by
  unfold exitScope
  rcases hpath : table.path with _ | ⟨inner, _ | ⟨outer, rest⟩⟩ <;> simp [eq_comm]

/-! ### Building the table -/

theorem scope_createScope (table : ScopeTable) (i : Nat) :
    (table.createScope.scope i).symbols = (table.scope i).symbols ∧
      (table.current < table.scopes.size → (table.createScope.scope i).children =
        if i = table.current then (table.scope i).children ++ [table.scopes.size]
        else (table.scope i).children) := by
  have hpush : table.createScope.scope i =
      if i = table.scopes.size then { id := table.nextId, parent := some table.current }
      else (table.scopes.modify table.current fun scope =>
        { scope with children := scope.children ++ [table.scopes.size] }).getD i default := by
    simp only [createScope, scope, Array.getD_eq_getD_getElem?, Array.getElem?_push, Array.size_modify]
    split <;> rfl
  rw [hpush]
  split
  case isTrue hi =>
    subst hi
    have hnone : table.scope table.scopes.size = default := by simp [scope]
    rw [hnone]
    refine ⟨rfl, fun hlt => ?_⟩
    rw [if_neg (by omega)]
    rfl
  case isFalse hi =>
    rw [getD_modify]
    split
    case isTrue h => exact ⟨rfl, fun _ => by rw [if_pos h.1]; rfl⟩
    case isFalse h => exact ⟨rfl, fun hlt => by rw [if_neg fun heq => h ⟨heq, hlt⟩]; rfl⟩

@[simp] theorem size_createScope : table.createScope.scopes.size = table.scopes.size + 1 := by
  simp [createScope]

theorem add_eq_ok :
    table.add name symbol = .ok table' ↔ (table.scope table.current).symbols.lookup name = none ∧
      ∃ mangledName, table' = table.addTo table.current name { symbol with mangledName } ∧
        mangledName = if symbol.isVariable then some (table.mangle name) else none := by
  unfold add inScope? currentScope
  cases (table.scope table.current).symbols.lookup name with
  | none =>
      simp only [Option.isSome_none, Bool.false_eq_true, if_false, Except.ok.injEq, true_and]
      exact ⟨fun h => ⟨_, h.symm, rfl⟩, fun ⟨_, h, hname⟩ => by rw [h, hname]⟩
  | some found => simp

theorem addGlobalFunction_eq_ok {functionData : Value} :
    table.addGlobalFunction name functionData = .ok table' ↔ (table.scope 0).symbols.lookup name = none ∧
      table.addTo 0 name { kind := .text Symbol.functionKind, functionData } = table' := by
  unfold addGlobalFunction
  cases (table.scope 0).symbols.lookup name <;> simp

/-- A new name in a scope is seen in that scope only. -/
theorem lookup_addTo (hlt : index < table.scopes.size)
    (hnone : (table.scope index).symbols.lookup name = none) :
    ((table.addTo index name symbol).scope i).symbols.lookup other =
      if i = index ∧ other = name then some symbol else (table.scope i).symbols.lookup other := by
  unfold addTo
  rw [scope, getD_modify]
  by_cases hi : i = index
  · subst hi
    rw [if_pos ⟨rfl, hlt⟩, List.lookup_append]
    by_cases h : other = name
    · subst h
      rw [if_pos ⟨rfl, rfl⟩, show (table.scopes.getD i default).symbols.lookup other = none from hnone]
      simp
    · rw [if_neg fun hand => h hand.2]
      simp [List.lookup_cons, beq_eq_false_iff_ne.2 h, scope]
  · rw [if_neg fun hand => hi hand.1, if_neg fun hand => hi hand.1]
    rfl

/-- What is found under a name was there before, or it is what was added. -/
theorem of_lookup_addTo (h : ((table.addTo index name symbol).scope i).symbols.lookup other = some found) :
    (table.scope i).symbols.lookup other = some found ∨ i = index ∧ other = name ∧ found = symbol := by
  unfold addTo at h
  rw [scope, getD_modify] at h
  split at h
  case isFalse => exact .inl h
  case isTrue hindex =>
    rw [List.lookup_append, Option.or_eq_some_iff] at h
    refine h.imp_right fun ⟨_, hnew⟩ => ?_
    rw [List.lookup_cons] at hnew
    split at hnew
    case h_1 hname => exact ⟨hindex.1, by simpa using hname, (Option.some.inj hnew).symm⟩
    case h_2 => cases hnew

@[simp] theorem children_addTo :
    ((table.addTo index name symbol).scope i).children = (table.scope i).children := by
  unfold addTo
  rw [scope, getD_modify]
  split <;> rfl

@[simp] theorem size_addTo : (table.addTo index name symbol).scopes.size = table.scopes.size := by
  simp [addTo]

end ScopeTable

end Scriptlet
