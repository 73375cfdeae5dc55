import Scriptlet.Proofs.Scope.Replay
import Mathlib.Data.List.Find

/-!
Names mean what the scopes around them say.

A name is searched along the path of a table.  Since the path is the chain of parents of the current scope, the search
finds the nearest declaration.  A block leaves no trace in what names mean, however many scopes it creates and whatever
it declares in them.
-/

namespace Scriptlet

namespace ScopeTable

variable {table table' : ScopeTable} {name other : String} {symbol : Symbol} {index outer : Nat}

/-- The symbol of a name in the nearest scope that declares it, on the way from a scope to its parents. -/
inductive Nearest (table : ScopeTable) (name : String) : Nat → Option Symbol → Prop
  | here {index : Nat} {symbol : Symbol} :
      (table.scope index).symbols.lookup name = some symbol → Nearest table name index (some symbol)
  | outside {index outer : Nat} {found : Option Symbol} :
      (table.scope index).symbols.lookup name = none → (table.scope index).parent = some outer →
      Nearest table name outer found → Nearest table name index found
  | nowhere {index : Nat} :
      (table.scope index).symbols.lookup name = none → (table.scope index).parent = none → Nearest table name index none

theorem nearest_of_isChain {path : List Nat} (hchain : (index :: path).IsChain table.Inside)
    (hlast : (index :: path).getLast? = some 0) (hroot : (table.scope 0).parent = none) :
    table.Nearest name index ((index :: path).findSome? fun index => (table.scope index).symbols.lookup name) := by
  induction path generalizing index with
  | nil =>
      obtain rfl : index = 0 := by simpa using hlast
      cases hlookup : (table.scope 0).symbols.lookup name with
      | none => simpa [hlookup] using Nearest.nowhere hlookup hroot
      | some symbol => simpa [hlookup] using Nearest.here hlookup
  | cons outer path ih =>
      obtain ⟨hinside, hrest⟩ := List.isChain_cons_cons.1 hchain
      have houter := ih hrest (by rwa [List.getLast?_cons_cons] at hlast)
      rw [List.findSome?_cons]
      cases hlookup : (table.scope index).symbols.lookup name with
      | none => exact .outside hlookup hinside.2 houter
      | some symbol => exact .here hlookup

theorem IsRooted.nearest_lookup? (h : table.IsRooted) (name : String) :
    table.Nearest name table.current (table.lookup? name) := by
  have hchain := h.linked
  have hlast := h.root
  obtain ⟨rest, hpath⟩ := h.path_eq
  rw [lookup?]
  rw [hpath] at hchain hlast ⊢
  exact nearest_of_isChain hchain hlast h.parent

theorem find_scopeOf? (table : ScopeTable) (name : String) :
    table.find name ((table.scopeOf? name).map Int.ofNat) = .ok (table.lookup? name) := by
  cases hscope : table.scopeOf? name with
  | none => rfl
  | some index =>
      have hlt : index < table.scopes.size := lt_size_of_lookup (lookup_of_scopeOf? hscope)
      have hplace : (Int.ofNat index) < table.scopes.size := by simpa using hlt
      rw [lookup?_eq, hscope]
      have hnat : ¬ Int.ofNat index < 0 := Int.not_lt.2 (Int.natCast_nonneg index)
      simp only [Option.map_some, find, lookupIn?, if_pos hplace, if_neg hnat, Option.bind_some]
      rfl

/-! ### What names mean -/

/-- Two tables in which a name means the same, from where each of them stands. -/
def Agree (table table' : ScopeTable) (name : String) : Prop :=
  table'.scopeOf? name = table.scopeOf? name ∧ table'.lookup? name = table.lookup? name

theorem agree_of_path (hpath : table'.path = table.path) (hsymbols : ∀ index ∈ table.path,
    (table'.scope index).symbols.lookup name = (table.scope index).symbols.lookup name) : table.Agree table' name := by
  have hscope : table'.scopeOf? name = table.scopeOf? name := by
    rw [scopeOf?, scopeOf?, hpath]
    exact List.find?_congr fun index hindex => by rw [hsymbols index hindex]
  refine ⟨hscope, ?_⟩
  rw [lookup?_eq, lookup?_eq, hscope]
  cases hfound : table.scopeOf? name with
  | none => rfl
  | some index => exact hsymbols index (List.mem_of_find?_eq_some hfound)

theorem IsTree.lt_of_mem_path (h : table.IsTree) (hindex : index ∈ table.path) : index < table.scopes.size := by
  refine h.linked.induction (· < table.scopes.size) _ (fun inner outer hinside _ => ?_) (fun hne => ?_) index hindex
  · by_contra hge
    have hmem := hinside.1
    rw [children_of_ge (Nat.le_of_not_lt hge)] at hmem
    cases hmem
  · have htop := h.top
    rw [List.head?_eq_some_head hne] at htop
    rw [Option.some.inj htop]
    exact h.current_lt

/-- A symbol as it is declared under a name in the current scope. -/
def declared (table : ScopeTable) (name : String) (symbol : Symbol) : Symbol :=
  { symbol with mangledName := if symbol.isVariable then some (table.mangle name) else none }

/-- A new name means its symbol, and all other names mean what they meant. -/
theorem IsTree.agree_add (h : table.IsTree) (hadd : table.add name symbol = .ok table') :
    table'.scopeOf? name = some table.current ∧ table'.lookup? name = some (table.declared name symbol) ∧
      ∀ other, other ≠ name → table.Agree table' other := by
  obtain ⟨hnone, rfl⟩ : (table.scope table.current).symbols.lookup name = none ∧
      table' = table.addTo table.current name (table.declared name symbol) := by
    obtain ⟨hnone, mangledName, rfl, rfl⟩ := add_eq_ok.1 hadd
    exact ⟨hnone, rfl⟩
  have hlookup : ∀ index other,
      ((table.addTo table.current name (table.declared name symbol)).scope index).symbols.lookup other =
        if index = table.current ∧ other = name then some (table.declared name symbol)
        else (table.scope index).symbols.lookup other := fun _ _ => lookup_addTo h.current_lt hnone
  have hnew := (hlookup table.current name).trans (if_pos ⟨rfl, rfl⟩)
  have hscope : (table.addTo table.current name (table.declared name symbol)).scopeOf? name = some table.current := by
    refine scopeOf?_of_current (Option.isSome_iff_exists.2 ⟨_, hnew⟩) fun hnil => ?_
    have htop := h.top
    rw [show table.path = [] from hnil] at htop
    cases htop
  refine ⟨hscope, ?_, fun other hother => agree_of_path rfl fun index _ => ?_⟩
  · rw [lookup?_eq, hscope]
    exact hnew
  · rw [hlookup, if_neg fun hsame => hother hsame.2]

/-- A block changes the meaning of no name outside. -/
theorem IsTree.agree_block {inner : Nesting} {places : List Nat} (h : table.IsTree)
    (hbuild : (Nesting.block inner .done).build table = .ok (places, table')) (name : String) : table.Agree table' name := by
  have hgrows := Nesting.grows_build h hbuild
  obtain ⟨inside, last, outside, after, hinner, hexit, hdone, -⟩ := Nesting.build_block_eq_ok.1 hbuild
  cases hdone
  have hsymbols := (Nesting.grows_build h.createScope hinner).symbols
  obtain ⟨_, _, _, -, rfl⟩ := exitScope_eq_ok.1 hexit
  refine agree_of_path hgrows.path fun index hindex => ?_
  have hlt := h.lt_of_mem_path hindex
  have hlast := hsymbols index (by rw [size_createScope]; omega) (Nat.ne_of_lt hlt)
  rw [(scope_createScope table index).1] at hlast
  exact congrArg (List.lookup name) hlast

/-- The tables that come about by asking a new one for anything. -/
def Reachable (table : ScopeTable) : Prop :=
  ∃ draft requests, (Scoping.serveAll { toDraft := draft } requests).table = table

/-- A name means the nearest declaration outwards from the current scope, and looking in the scope where it is declared
finds the same.  Behind a block every name means what it meant before, and a declaration gives one name a new meaning
and no other. -/
theorem scoping_is_lexical (h : table.Reachable) (name : String) :
    table.Nearest name table.current (table.lookup? name) ∧
      table.find name ((table.scopeOf? name).map Int.ofNat) = .ok (table.lookup? name) ∧
      (∀ inner places after, (Nesting.block inner .done).build table = .ok (places, after) → table.Agree after name) ∧
      ∀ symbol after, table.add name symbol = .ok after →
        after.lookup? name = some (table.declared name symbol) ∧ ∀ other, other ≠ name → table.Agree after other := by
  obtain ⟨draft, requests, rfl⟩ := h
  have hrooted := Scoping.isRooted_serveAll draft requests
  exact ⟨hrooted.nearest_lookup? name, find_scopeOf? _ name, fun _ _ _ hbuild => hrooted.agree_block hbuild name,
    fun _ _ hadd => (hrooted.agree_add hadd).2⟩

/-- The table inside a scope in which a name is declared. -/
def sample : ScopeTable :=
  (Scoping.serveAll {} [.add "x" {}, .createScope, .add "y" {}]).table

/-- A block that declares both names again. -/
theorem scoping_is_lexical_sample : sample.Reachable ∧ sample.scopeOf? "x" = some 0 ∧
    (∃ places after, (Nesting.block Nesting.sample .done).build sample = .ok (places, after) ∧ sample.Agree after "x") ∧
    ∃ after, sample.add "x" {} = .ok after ∧ after.lookup? "x" = some (sample.declared "x" {}) ∧ sample.Agree after "y" := by
  have hreachable : sample.Reachable := ⟨{}, _, rfl⟩
  obtain ⟨-, -, hblock, hadd⟩ := scoping_is_lexical hreachable "x"
  obtain ⟨places, after, hbuild⟩ : ∃ places after, (Nesting.block Nesting.sample .done).build sample = .ok (places, after) :=
    ⟨_, _, rfl⟩
  obtain ⟨added, hadded⟩ : ∃ added, sample.add "x" {} = .ok added := ⟨_, rfl⟩
  obtain ⟨hnew, hothers⟩ := hadd _ added hadded
  exact ⟨hreachable, rfl, ⟨places, after, hbuild, hblock _ _ _ hbuild⟩, added, hadded, hnew, hothers "y" (by decide)⟩

end ScopeTable

end Scriptlet
