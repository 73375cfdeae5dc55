import Scriptlet.Proofs.Conduct
import Scriptlet.Proofs.Scope.Requests
import Scriptlet.Proofs.Scoping
import Mathlib.Data.List.Chain
import Mathlib.Data.List.Forall2

/-!
The scopes of a table form a tree, and its path leads from the current scope up to the global one.

A table holds the same facts several times: each scope knows its parent and its children, the path names
the scopes around the current place, and a counter for each of them tells how many of its children were
walked.  Every request keeps them in agreement, whether it is answered or fails.
-/

namespace Scriptlet

/-- A variable is mangled with the number of its scope, and nothing else is mangled. -/
def Symbol.IsMangled (symbol : Symbol) (name : String) (id : Nat) : Prop :=
  symbol.mangledName = if symbol.isVariable then some (name ++ "$" ++ toString id) else none

namespace ScopeTable

/-- A step of a path from a scope to the one around it. -/
def Inside (table : ScopeTable) (inner outer : Nat) : Prop :=
  inner ∈ (table.scope outer).children ∧ (table.scope inner).parent = some outer

/-- A scope that is created in another one: it occurs once among the children of that scope, and nowhere
else. -/
structure Belongs (table : ScopeTable) (index outer : Nat) : Prop where
  lt : outer < index
  parent : (table.scope index).parent = some outer
  count : ∀ i, (table.scope i).children.count index = if i = outer then 1 else 0

/-- The parts of a table agree. -/
structure IsTree (table : ScopeTable) : Prop where
  nonempty : 0 < table.scopes.size
  id : ∀ i, i < table.scopes.size → (table.scope i).id = i
  nextId : table.nextId = table.scopes.size
  root : table.path.getLast? = some 0
  top : table.path.head? = some table.current
  linked : table.path.IsChain table.Inside
  /-- There is one counter for each scope of the path. -/
  counted : List.Forall₂ (fun count index => count ≤ (table.scope index).children.length) table.entered table.path
  belongs : ∀ i, 0 < i → i < table.scopes.size → ∃ outer, table.Belongs i outer
  child : ∀ i, ∀ inner ∈ (table.scope i).children, 0 < inner ∧ inner < table.scopes.size

variable {table table' : ScopeTable} {index inner outer : Nat} {name : String} {symbol : Symbol}

theorem Belongs.inside (h : table.Belongs inner outer) (hmem : inner ∈ (table.scope index).children) :
    table.Inside inner index := by
  have hpos : 0 < (table.scope index).children.count inner := List.count_pos_iff.2 hmem
  rw [h.count] at hpos
  by_cases hindex : index = outer
  · subst hindex
    exact ⟨hmem, h.parent⟩
  · simp [hindex] at hpos

namespace IsTree

theorem path_eq (h : table.IsTree) : ∃ rest, table.path = table.current :: rest :=
  List.head?_eq_some_iff.1 h.top

/-- The counter of the current scope comes first. -/
theorem entered_eq (h : table.IsTree) : ∃ walked counts, table.entered = walked :: counts := by
  obtain ⟨rest, hpath⟩ := h.path_eq
  have hcounted := h.counted
  rw [hpath] at hcounted
  obtain ⟨walked, counts, -, -, hentered⟩ := List.forall₂_cons_right_iff.1 hcounted
  exact ⟨walked, counts, hentered⟩

theorem current_lt (h : table.IsTree) : table.current < table.scopes.size := by
  have hroot := h.root
  have hlinked := h.linked
  obtain ⟨rest, hpath⟩ := h.path_eq
  rw [hpath] at hroot hlinked
  cases rest with
  | nil =>
      have hzero : table.current = 0 := by simpa using hroot
      rw [hzero]
      exact h.nonempty
  | cons next rest => exact (h.child next table.current (List.isChain_cons_cons.1 hlinked).1.1).2

theorem inside (h : table.IsTree) (hmem : inner ∈ (table.scope index).children) : table.Inside inner index := by
  obtain ⟨hpos, hlt⟩ := h.child index inner hmem
  obtain ⟨outer, hbelongs⟩ := h.belongs inner hpos hlt
  exact hbelongs.inside hmem

theorem congr (h : table.IsTree) (hpath : table'.path = table.path) (hentered : table'.entered = table.entered)
    (hnext : table'.nextId = table.nextId) (hsize : table'.scopes.size = table.scopes.size)
    (hscope : ∀ i, ∃ symbols, table'.scope i = { table.scope i with symbols }) : table'.IsTree := by
  have hid : ∀ i, (table'.scope i).id = (table.scope i).id := fun i => by
    obtain ⟨symbols, hi⟩ := hscope i
    rw [hi]
  have hparent : ∀ i, (table'.scope i).parent = (table.scope i).parent := fun i => by
    obtain ⟨symbols, hi⟩ := hscope i
    rw [hi]
  have hchildren : ∀ i, (table'.scope i).children = (table.scope i).children := fun i => by
    obtain ⟨symbols, hi⟩ := hscope i
    rw [hi]
  constructor
  · rw [hsize]
    exact h.nonempty
  · intro i hi
    rw [hid, h.id i (hsize ▸ hi)]
  · rw [hnext, hsize, h.nextId]
  · rw [hpath, h.root]
  · rw [current, hpath]
    exact h.top
  · rw [hpath]
    refine h.linked.imp fun inner outer hinside => ?_
    rw [Inside, hchildren, hparent]
    exact hinside
  · rw [hentered, hpath]
    simp only [hchildren]
    exact h.counted
  · intro i hpos hi
    obtain ⟨outer, hbelongs⟩ := h.belongs i hpos (hsize ▸ hi)
    exact ⟨outer, hbelongs.lt, by rw [hparent, hbelongs.parent], fun j => by rw [hchildren, hbelongs.count]⟩
  · intro i inner hinner
    rw [hchildren] at hinner
    rw [hsize]
    exact h.child i inner hinner

theorem addTo (h : table.IsTree) (index : Nat) (name : String) (symbol : Symbol) :
    (table.addTo index name symbol).IsTree := by
  refine h.congr rfl rfl rfl size_addTo fun i => ?_
  rw [scope, ScopeTable.addTo, getD_modify]
  split
  · exact ⟨_, rfl⟩
  · exact ⟨_, rfl⟩

theorem setSymbol (h : table.IsTree) (name : String) (symbol : Symbol) : (table.setSymbol name symbol).IsTree := by
  refine h.congr path_setSymbol entered_setSymbol ?_ size_setSymbol fun i => ?_
  · unfold ScopeTable.setSymbol
    split <;> rfl
  · rw [scope_setSymbol]
    split
    · exact ⟨_, rfl⟩
    · exact ⟨_, rfl⟩

/-! ### Walking -/

theorem enterScope (h : table.IsTree) (henter : table.enterScope = .ok table') : table'.IsTree := by
  obtain ⟨child, hchild, rfl⟩ := enterScope_eq_ok.1 henter
  have hmem : child ∈ (table.scope table.current).children := List.mem_of_getElem? hchild
  obtain ⟨rest, hpath⟩ := h.path_eq
  obtain ⟨walked, counts, hentered⟩ := h.entered_eq
  have hroot := h.root
  have hlinked := h.linked
  have hcounted := h.counted
  rw [hpath] at hroot hlinked hcounted
  rw [hentered] at hcounted hchild
  obtain ⟨hlt, -⟩ := List.getElem?_eq_some_iff.1 hchild
  constructor
  case root => simpa only [hpath, List.getLast?_cons_cons] using hroot
  case top => rfl
  case linked =>
    rw [hpath]
    exact List.isChain_cons_cons.2 ⟨h.inside hmem, hlinked⟩
  case counted =>
    rw [hpath, hentered]
    exact .cons (Nat.zero_le _) (.cons hlt (List.forall₂_cons.1 hcounted).2)
  case nonempty => exact h.nonempty
  case id => exact h.id
  case nextId => exact h.nextId
  case belongs =>
    intro i hpos hi
    obtain ⟨outer, hbelongs⟩ := h.belongs i hpos hi
    exact ⟨outer, hbelongs.lt, hbelongs.parent, hbelongs.count⟩
  case child => exact h.child

theorem exitScope (h : table.IsTree) (hexit : table.exitScope = .ok table') : table'.IsTree := by
  obtain ⟨left, outer, rest, hpath, rfl⟩ := exitScope_eq_ok.1 hexit
  have hroot := h.root
  have hlinked := h.linked
  have hcounted := h.counted
  rw [hpath] at hroot hlinked hcounted
  obtain ⟨walked, counts, hentered⟩ := h.entered_eq
  rw [hentered] at hcounted
  constructor
  case root => rwa [List.getLast?_cons_cons] at hroot
  case top => rfl
  case linked => exact (List.isChain_cons_cons.1 hlinked).2
  case counted =>
    rw [hentered]
    exact (List.forall₂_cons.1 hcounted).2
  case nonempty => exact h.nonempty
  case id => exact h.id
  case nextId => exact h.nextId
  case belongs =>
    intro i hpos hi
    obtain ⟨outer, hbelongs⟩ := h.belongs i hpos hi
    exact ⟨outer, hbelongs.lt, hbelongs.parent, hbelongs.count⟩
  case child => exact h.child

/-! ### Building -/

end IsTree

theorem scope_createScope_new (table : ScopeTable) :
    table.createScope.scope table.scopes.size = { id := table.nextId, parent := some table.current } := by
  simp only [createScope, scope, Array.getD_eq_getD_getElem?, Array.getElem?_push, Array.size_modify]
  rfl

theorem scope_createScope_old (hindex : index < table.scopes.size) :
    table.createScope.scope index = { table.scope index with
      children := (table.scope index).children ++ if index = table.current then [table.scopes.size] else [] } := by
  have hold : table.createScope.scope index = (table.scopes.modify table.current fun scope =>
      { scope with children := scope.children ++ [table.scopes.size] }).getD index default := by
    simp [createScope, scope, Array.getD_eq_getD_getElem?, Array.getElem?_push, Nat.ne_of_lt hindex]
  rw [hold, getD_modify]
  by_cases hcurrent : index = table.current
  · subst hcurrent
    simp [hindex, scope]
  · simp [hcurrent, scope]

namespace IsTree

theorem children_of_ge (hindex : table.scopes.size ≤ index) : (table.scope index).children = [] := by
  simp [scope, Array.getD, Nat.not_lt.2 hindex, show (default : Scope).children = [] from rfl]

theorem children_createScope (h : table.IsTree) (i : Nat) :
    (table.createScope.scope i).children =
      (table.scope i).children ++ if i = table.current then [table.scopes.size] else [] := by
  rcases Nat.lt_trichotomy i table.scopes.size with hlt | rfl | hgt
  · rw [scope_createScope_old hlt]
  · rw [scope_createScope_new, children_of_ge (Nat.le_refl _), if_neg (Nat.ne_of_gt h.current_lt)]
    rfl
  · rw [children_of_ge (by rw [size_createScope]; omega), children_of_ge (by omega),
      if_neg (by have := h.current_lt; omega)]
    rfl

theorem inside_createScope (h : table.IsTree) (hinside : table.Inside inner outer) :
    table.createScope.Inside inner outer := by
  refine ⟨?_, ?_⟩
  · rw [h.children_createScope]
    exact List.mem_append_left _ hinside.1
  · rw [scope_createScope_old (h.child outer inner hinside.1).2]
    exact hinside.2

/-- No list of children names a scope that is not there yet. -/
theorem count_size (h : table.IsTree) (i : Nat) : (table.scope i).children.count table.scopes.size = 0 :=
  List.count_eq_zero.2 fun hmem => Nat.lt_irrefl _ (h.child i _ hmem).2

theorem belongs_createScope (h : table.IsTree) (hbelongs : table.Belongs index outer)
    (hindex : index < table.scopes.size) : table.createScope.Belongs index outer := by
  refine ⟨hbelongs.lt, ?_, fun i => ?_⟩
  · rw [scope_createScope_old hindex]
    exact hbelongs.parent
  · rw [h.children_createScope, List.count_append, hbelongs.count]
    have hnew : (if i = table.current then [table.scopes.size] else []).count index = 0 := by
      split
      · exact List.count_eq_zero.2 (by simpa using Nat.ne_of_lt hindex)
      · rfl
    rw [hnew, Nat.add_zero]

theorem belongs_new (h : table.IsTree) : table.createScope.Belongs table.scopes.size table.current := by
  refine ⟨h.current_lt, ?_, fun i => ?_⟩
  · rw [scope_createScope_new]
  · rw [h.children_createScope, List.count_append, h.count_size]
    split <;> simp

theorem createScope (h : table.IsTree) : table.createScope.IsTree := by
  have hsize : table.createScope.scopes.size = table.scopes.size + 1 := size_createScope
  have htop := h.top
  have hlinked : table.path.IsChain table.createScope.Inside :=
    h.linked.imp fun _ _ hinside => h.inside_createScope hinside
  have hcounted : List.Forall₂ (fun count index => count ≤ (table.createScope.scope index).children.length)
      table.entered table.path :=
    h.counted.imp fun count index hle => by
      rw [h.children_createScope, List.length_append]
      exact Nat.le_add_right_of_le hle
  cases hpath : table.path with
  | nil => simp [hpath] at htop
  | cons head rest =>
      have hhead : head = table.current := by simpa [hpath] using htop
      constructor
      · omega
      · intro i hi
        rw [hsize] at hi
        rcases Nat.lt_succ_iff_lt_or_eq.1 hi with hlt | rfl
        · rw [scope_createScope_old hlt]
          exact h.id i hlt
        · rw [scope_createScope_new]
          exact h.nextId
      · rw [hsize, ← h.nextId]
        rfl
      · show (table.scopes.size :: table.path).getLast? = some 0
        rw [hpath, List.getLast?_cons_cons, ← hpath]
        exact h.root
      · rfl
      · show (table.scopes.size :: table.path).IsChain table.createScope.Inside
        rw [hpath] at hlinked ⊢
        refine List.isChain_cons_cons.2 ⟨⟨?_, ?_⟩, hlinked⟩
        · rw [h.children_createScope, if_pos hhead]
          exact List.mem_append_right _ List.mem_cons_self
        · rw [scope_createScope_new, hhead]
      · exact .cons (Nat.zero_le _) hcounted
      · intro i hpos hi
        rw [hsize] at hi
        rcases Nat.lt_succ_iff_lt_or_eq.1 hi with hlt | rfl
        · obtain ⟨outer, hbelongs⟩ := h.belongs i hpos hlt
          exact ⟨outer, h.belongs_createScope hbelongs hlt⟩
        · exact ⟨_, h.belongs_new⟩
      · intro i inner hinner
        rw [h.children_createScope] at hinner
        rw [hsize]
        rcases List.mem_append.1 hinner with hold | hnew
        · have := h.child i inner hold
          omega
        · split at hnew
          · have := h.nonempty
            have : inner = table.scopes.size := by simpa using hnew
            omega
          · simp at hnew

theorem new : ({} : ScopeTable).IsTree := by
  constructor
  · decide
  · decide
  · rfl
  · rfl
  · rfl
  · exact .singleton _
  · exact .cons (Nat.zero_le _) .nil
  · intro i hpos hi
    exact absurd hi (by simpa using Nat.ne_of_gt hpos)
  · intro i inner hinner
    cases i <;> simp [scope, Array.getD, show (default : Scope).children = [] from rfl] at hinner

end IsTree

/-! ### What no operation breaks -/

/-- A property of tables that lasts whatever is created, entered, left, declared or recorded.  What is recorded of a
symbol changes neither its kind nor its mangled name. -/
structure Lasting (P : ScopeTable → Prop) : Prop where
  createScope : ∀ {table}, P table → P table.createScope
  enterScope : ∀ {table table'}, P table → table.enterScope = .ok table' → P table'
  exitScope : ∀ {table table'}, P table → table.exitScope = .ok table' → P table'
  addTo : ∀ {table index name symbol}, P table → symbol.IsMangled name (table.scope index).id →
    P (table.addTo index name symbol)
  setSymbol : ∀ {table name symbol old}, P table → table.lookup? name = some old → symbol.kind = old.kind →
    symbol.mangledName = old.mangledName → P (table.setSymbol name symbol)

namespace Lasting

variable {P : ScopeTable → Prop} (hlasting : Lasting P)

include hlasting

theorem add (h : P table) (hadd : table.add name symbol = .ok table') : P table' := by
  obtain ⟨-, mangledName, rfl, hmangled⟩ := add_eq_ok.1 hadd
  exact hlasting.addTo h hmangled

theorem addGlobalFunction {functionData : Value} (h : P table)
    (hadd : table.addGlobalFunction name functionData = .ok table') : P table' := by
  obtain ⟨-, rfl⟩ := addGlobalFunction_eq_ok.1 hadd
  exact hlasting.addTo h rfl

theorem setReference {reference : Option Reference} (h : P table)
    (hset : table.setReference name reference = .ok table') : P table' := by
  obtain ⟨symbol, hlookup, rfl⟩ := setReference_eq_ok.1 hset
  exact hlasting.setSymbol h hlookup rfl rfl

theorem setType {type : Value} (h : P table) (hset : table.setType name type = .ok table') : P table' := by
  unfold ScopeTable.setType at hset
  split at hset
  case h_1 => cases hset
  case h_2 symbol hlookup =>
    -- Whatever is set, it is the symbol of the name.
    have hchange : ∀ (data : Except Fault Value) (change : Value → Symbol),
        (do return table.setSymbol name (change (← data))) = .ok table' →
        (∀ found, (change found).kind = symbol.kind ∧ (change found).mangledName = symbol.mangledName) → P table' := by
      intro data change hset hkept
      cases data with
      | error fault => cases hset
      | ok found =>
          cases hset
          exact hlasting.setSymbol h hlookup (hkept found).1 (hkept found).2
    dsimp only at hset
    split at hset
    · exact hchange _ _ hset fun _ => ⟨rfl, rfl⟩
    split at hset
    · exact hchange _ _ hset fun _ => ⟨rfl, rfl⟩
    split at hset
    · exact hchange _ _ hset fun _ => ⟨rfl, rfl⟩
    · cases hset

theorem update {type value : Value} (h : P table) : P (table.update name type value).1 := by
  unfold ScopeTable.update
  split
  case h_1 => exact h
  case h_2 symbol hlookup =>
    dsimp only
    split
    · exact hlasting.setSymbol h hlookup rfl rfl
    · split
      · split <;> exact hlasting.setSymbol h hlookup rfl rfl
      · exact hlasting.setSymbol h hlookup rfl rfl

end Lasting

/-- A tree whose root has no parent. -/
structure IsRooted (table : ScopeTable) : Prop extends table.IsTree where
  parent : (table.scope 0).parent = none

namespace IsRooted

theorem new : ({} : ScopeTable).IsRooted :=
  ⟨.new, rfl⟩

theorem of_scope_zero (h : table.IsRooted) (htree : table'.IsTree)
    (hscope : (table'.scope 0).parent = (table.scope 0).parent) : table'.IsRooted :=
  ⟨htree, hscope.trans h.parent⟩

theorem lasting : Lasting IsRooted where
  createScope h := h.of_scope_zero h.createScope (by rw [scope_createScope_old h.nonempty])
  enterScope h henter := by
    refine h.of_scope_zero (h.toIsTree.enterScope henter) ?_
    obtain ⟨child, -, rfl⟩ := enterScope_eq_ok.1 henter
    rfl
  exitScope h hexit := by
    refine h.of_scope_zero (h.toIsTree.exitScope hexit) ?_
    obtain ⟨inner, outer, rest, -, rfl⟩ := exitScope_eq_ok.1 hexit
    rfl
  addTo h _ := by
    refine h.of_scope_zero (h.toIsTree.addTo ..) ?_
    rw [scope, ScopeTable.addTo, getD_modify]
    split <;> rfl
  setSymbol h _ _ _ := by
    refine h.of_scope_zero (h.toIsTree.setSymbol ..) ?_
    rw [scope_setSymbol]
    split <;> rfl

end IsRooted

end ScopeTable

/-! ### Requests -/

namespace Scoping

open ScopeTable (Request Lasting)

/-- Whatever happens, the table keeps a property. -/
def keeps (P : ScopeTable → Prop) : Rule Scoping where
  step s t := P s.table → P t.table
  stop _ s t := P s.table → P t.table
  refl _ h := h
  trans hfirst hsecond h := hsecond (hfirst h)
  stop_of_step hfirst hsecond h := hsecond (hfirst h)
  step_of_stop _ h := h

variable {P : ScopeTable → Prop} {operation : ScopeTable → Except Fault ScopeTable} {s t : Scoping} {failure : Failure}

instance (fault : Fault) {α : Type} : Obeys (keeps P) (fail fault : Action α) :=
  .throw fun _ h => h

instance {α : Type} (found : Except Fault α) : Obeys (keeps P) (orFail found : Action α) := by
  cases found with
  | ok a => exact inferInstanceAs (Obeys _ (pure a))
  | error fault => exact inferInstanceAs (Obeys _ (fail fault))

/-- Work on the draft does not touch the table. -/
instance {α : Type} (action : Draft.Action α) : Obeys (keeps P) (liftM action : Action α) := by
  refine ⟨fun s => ?_⟩
  show (keeps P).Allows s (Draft.onDraft action s)
  unfold Draft.onDraft
  cases action (Carries.draft s) with
  | ok a draft => exact fun h => h
  | error failure draft => exact fun h => h

theorem keeps_change (operation : ScopeTable → Except Fault ScopeTable)
    (h : ∀ {table table'}, P table → operation table = .ok table' → P table') : Obeys (keeps P) (change operation) := by
  refine ⟨fun s => Rule.Allows.bind (Obeys.allows s) fun found u hget => ?_⟩
  obtain ⟨rfl, rfl⟩ := get_eq_ok.1 hget
  refine Rule.Allows.bind (Obeys.allows s) fun table u hrun => ?_
  obtain ⟨hoperation, rfl⟩ := orFail_eq_ok.1 hrun
  exact fun htable => h htable hoperation

theorem keeps_update (hlasting : Lasting P) (name : String) (type value : Value) :
    Obeys (keeps P) (Scoping.update name type value) := by
  refine ⟨fun s => Rule.Allows.bind (Obeys.allows s) fun found u hget => ?_⟩
  obtain ⟨rfl, rfl⟩ := get_eq_ok.1 hget
  have hset : (keeps P).Allows s (setTable (s.table.update name type value).1 s) := hlasting.update
  exact Rule.Allows.bind hset fun _ u _ => Obeys.allows u

instance (action : Action Unit) [Obeys (keeps P) action] : Obeys (keeps P) (Request.silently action) := by
  unfold Request.silently
  infer_instance

instance (question : ScopeTable → Except Fault ScopeTable.Answer) : Obeys (keeps P) (Request.reading question) := by
  unfold Request.reading
  infer_instance

theorem keeps_perform (hlasting : Lasting P) (request : Request) : Obeys (keeps P) request.perform := by
  have hcreate := keeps_change (fun table => .ok table.createScope) fun h hcreate => by
    cases hcreate
    exact hlasting.createScope h
  have henter := keeps_change ScopeTable.enterScope hlasting.enterScope
  have hexit := keeps_change ScopeTable.exitScope hlasting.exitScope
  have hadd := fun name symbol => keeps_change (fun table => table.add name symbol) hlasting.add
  have hglobal := fun name data => keeps_change (fun table => table.addGlobalFunction name data) hlasting.addGlobalFunction
  have htype := fun name type => keeps_change (fun table => table.setType name type) hlasting.setType
  have hreference := fun name reference => keeps_change (fun table => table.setReference name reference) hlasting.setReference
  have hupdate := keeps_update hlasting
  cases request <;> unfold Request.perform <;> infer_instance

theorem keeps_serve (hlasting : Lasting P) (request : Request) (h : P s.table) : P (s.serve request).table := by
  have hallows := (keeps_perform hlasting request).allows s
  unfold serve
  cases hperform : request.perform s with
  | ok answer after | error failure after =>
      rw [hperform] at hallows
      exact hallows h

theorem keeps_serveAll (hlasting : Lasting P) (requests : List Request) (h : P s.table) : P (s.serveAll requests).table := by
  induction requests generalizing s with
  | nil => exact h
  | cons request rest ih => exact ih (keeps_serve hlasting request h)

theorem isRooted_serveAll (draft : Draft) (requests : List Request) :
    (serveAll { toDraft := draft } requests).table.IsRooted :=
  keeps_serveAll ScopeTable.IsRooted.lasting requests ScopeTable.IsRooted.new

theorem silently_change_error (h : Request.silently (change operation) s = .error failure t) : t = s := by
  have hrun : Request.silently (change operation) s = match operation s.table with
      | .ok table => .ok .nothing { s with table }
      | .error fault => .error (.fault fault) s := by
    show EStateM.bind (EStateM.bind (orFail (operation s.table)) setTable) (fun _ => pure ScopeTable.Answer.nothing) s = _
    cases operation s.table <;> rfl
  rw [hrun] at h
  split at h <;> cases h
  rfl

theorem eq_of_isDeclarative {request : Request} (hrequest : request.isDeclarative)
    (h : request.perform s = .error failure t) : t = s := by
  cases request
  case createScope | enterScope | exitScope | add | addGlobalFunction => exact silently_change_error h
  all_goals cases hrequest

end Scoping

end Scriptlet
