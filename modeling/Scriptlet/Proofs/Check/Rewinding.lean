import Scriptlet.Proofs.Check.Acceptance

/-!
An analysis without errors comes back to where it started: every scope that it creates it also leaves.

Only blocks and functions create scopes.  A visit that fails leaves open what it has created, but then an error is
announced in the end, so where there is none, all visits end, and each of them leaves the table at its old place.
-/

set_option synthInstance.maxSize 1000000

namespace Scriptlet

namespace ScopeTable

variable {table later last : ScopeTable} {name : String} {symbol : Symbol} {m n : Nat}

/-- The scope that is created first is the first one in the global scope. -/
def StartsFirst (table : ScopeTable) : Prop :=
  (table.scopes.size = 1 ∧ table.path = [0] ∧ (table.scope 0).children = []) ∨ (table.scope 0).children.head? = some 1

theorem StartsFirst.createScope (h : table.StartsFirst) : table.createScope.StartsFirst := by
  rcases h with ⟨hsize, hpath, hnone⟩ | hfirst
  · refine .inr ?_
    rw [scope_createScope_old (hsize ▸ Nat.zero_lt_one), hnone, hsize, current, hpath]
    rfl
  · have hlt : 0 < table.scopes.size := by
      by_contra hge
      rw [IsTree.children_of_ge (Nat.le_of_not_lt hge)] at hfirst
      cases hfirst
    refine .inr ?_
    rw [scope_createScope_old hlt, List.head?_append, hfirst]
    rfl

/-- A table from which a number of scopes has been left, and in which names have been declared and other scopes created
and left. -/
structure Leaves (depth : Nat) (table later : ScopeTable) : Prop where
  path : later.path = table.path.drop depth
  entered : later.entered = table.entered.drop depth
  first : table.StartsFirst → later.StartsFirst

namespace Leaves

theorem refl (table : ScopeTable) : table.Leaves 0 table :=
  ⟨rfl, rfl, id⟩

theorem trans (h : Leaves m table later) (h' : Leaves n later last) : Leaves (m + n) table last :=
  ⟨by rw [h'.path, h.path, List.drop_drop], by rw [h'.entered, h.entered, List.drop_drop], fun hfirst => h'.first (h.first hfirst)⟩

theorem addTo (index : Nat) : table.Leaves 0 (table.addTo index name symbol) :=
  ⟨rfl, rfl, fun h => by rwa [StartsFirst, size_addTo, children_addTo]⟩

theorem setSymbol : table.Leaves 0 (table.setSymbol name symbol) :=
  ⟨path_setSymbol, entered_setSymbol, fun h => by rwa [StartsFirst, size_setSymbol, children_setSymbol, path_setSymbol]⟩

theorem update {type value : Value} : table.Leaves 0 (table.update name type value).1 := by
  unfold ScopeTable.update
  split
  · exact .refl table
  · dsimp only
    split
    · exact .setSymbol
    · split
      · split <;> exact .setSymbol
      · exact .setSymbol

theorem exitScope (h : table.exitScope = .ok later) : table.Leaves 1 later := by
  obtain ⟨inner, outer, rest, hpath, rfl⟩ := exitScope_eq_ok.1 h
  refine ⟨by rw [hpath]; rfl, List.drop_one.symm, fun hfirst => ?_⟩
  rcases hfirst with ⟨-, hglobal, -⟩ | hfirst
  · rw [hpath] at hglobal
    cases hglobal
  · exact .inr hfirst

theorem of_createScope (h : table.createScope.Leaves 1 later) : table.Leaves 0 later :=
  ⟨h.path, h.entered, fun hfirst => h.first hfirst.createScope⟩

end Leaves

end ScopeTable

namespace Check

variable {α β : Type} {x y : Check α} {f : α → Check β} {depth : Nat}

/-- Where no error has been marked, the table is at the same place.  This is asked of failures as well, if they are seen by a
handler. -/
def steady : Rule Analysis where
  step s t := isFlagged t = false → isFlagged s = false ∧ s.table.Leaves 0 t.table
  stop failure s t := failure.isCaught → isFlagged t = false → isFlagged s = false ∧ s.table.Leaves 0 t.table
  refl _ h := ⟨h, .refl _⟩
  trans h h' hclean := ⟨(h (h' hclean).1).1, (h (h' hclean).1).2.trans (h' hclean).2⟩
  stop_of_step h h' hcaught hclean :=
    ⟨(h (h' hcaught hclean).1).1, (h (h' hcaught hclean).1).2.trans (h' hcaught hclean).2⟩
  step_of_stop hcaught h := h hcaught

theorem steady_modify {change : Analysis → Analysis} (h : ∀ s, (change s).toDraft = s.toDraft ∧ (change s).table = s.table) :
    Obeys steady (modify change : Check PUnit) := by
  refine .modify fun s hclean => ⟨?_, (h s).2 ▸ .refl _⟩
  rwa [isFlagged, show Carries.draft _ = _ from (h s).1] at hclean

theorem steady_lift {x : Draft.Action α} [h : Obeys honest (liftM x : Check α)] : Obeys steady (liftM x : Check α) := by
  refine ⟨fun s => ?_⟩
  have hallows := h.allows s
  have htable : ∀ draft, s.table.Leaves 0 (Carries.withDraft s draft).table := fun _ => .refl _
  change Rule.Allows _ _ (Draft.onDraft x s) at hallows
  change Rule.Allows _ _ (Draft.onDraft x s)
  unfold Draft.onDraft at hallows ⊢
  cases hx : x (Carries.draft s) with
  | ok a draft =>
      rw [hx] at hallows
      exact fun hclean => ⟨Bool.eq_false_iff.2 fun hflagged => Bool.eq_false_iff.1 hclean (hallows hflagged), htable draft⟩
  | error failure draft =>
      rw [hx] at hallows
      exact fun _ hclean => ⟨Bool.eq_false_iff.2 fun hflagged => Bool.eq_false_iff.1 hclean (hallows.1 hflagged), htable draft⟩

instance : Mild steady where
  step_withDraft _ _ hagrees hclean := ⟨hagrees.flagged.symm.trans hclean, .refl _⟩
  stop_withDraft _ _ _ hagrees _ _ hclean := ⟨hagrees.flagged.symm.trans hclean, .refl _⟩
  announce _ _ _ := steady_lift
  refuse _ _ _ := .bind steady_lift fun _ => .throw fun _ _ hclean => ⟨hclean, .refl _⟩
  modify h := steady_modify fun s => ⟨(h s).1, (h s).2.1⟩

instance (name type : Value) : Obeys steady (setFunction name type) :=
  steady_modify fun _ => ⟨rfl, rfl⟩

/-! ### Changing the table -/

theorem steady_setTable {change : ScopeTable → ScopeTable} {next : ScopeTable → Check α}
    (h : ∀ table : ScopeTable, table.Leaves 0 (change table)) (hnext : ∀ table, Obeys steady (next table)) :
    Obeys steady (table >>= fun old => setTable (change old) >>= fun _ => next old) := by
  refine ⟨fun s => Rule.Allows.bind (Obeys.allows s) fun old t hrun => ?_⟩
  obtain ⟨rfl, rfl⟩ := table_eq_ok.1 hrun
  exact Rule.Allows.bind (show steady.Allows s (setTable _ s) from fun hclean => ⟨hclean, h s.table⟩)
    fun _ t _ => (hnext s.table).allows t

theorem steady_changeTable {change : ScopeTable → Except Fault ScopeTable} [∀ table, Sane (change table)]
    (h : ∀ table later, change table = .ok later → table.Leaves 0 later) : Obeys steady (changeTable change) := by
  refine ⟨fun s => Rule.Allows.bind (Obeys.allows s) fun old t hrun => ?_⟩
  obtain ⟨rfl, rfl⟩ := table_eq_ok.1 hrun
  refine Rule.Allows.bind (Obeys.allows s) fun later t hrun => ?_
  obtain ⟨hchange, rfl⟩ := orFail_eq_ok.1 hrun
  exact fun hclean => ⟨hclean, h _ later hchange⟩

instance (name : String) (symbol : Symbol) : Obeys steady (changeTable fun table => table.add name symbol) := by
  refine steady_changeTable fun table later hadd => ?_
  obtain ⟨-, _, rfl, -⟩ := ScopeTable.add_eq_ok.1 hadd
  exact .addTo _

instance : Obeys steady declareLibrary := by
  have hadd : ∀ name functionData, Obeys steady (changeTable fun table => table.addGlobalFunction name functionData) := by
    refine fun name functionData => steady_changeTable fun table later hadd => ?_
    obtain ⟨-, rfl⟩ := ScopeTable.addGlobalFunction_eq_ok.1 hadd
    exact .addTo _
  unfold declareLibrary
  infer_instance

instance (node name type : Value) : Obeys steady (recordUpdate node name type) := by
  unfold recordUpdate
  extract_lets key apply
  have happly : ∀ value, Obeys steady (apply type value) := fun value =>
    steady_setTable (fun _ => .update) fun table => inferInstanceAs (Obeys steady (orFail (table.update key type value).2))
  have hforget : ∀ symbol, Obeys steady (do
      setTable ((← table).setSymbol key symbol)
      apply type .null) := fun symbol => steady_setTable (fun _ => .setSymbol) fun _ => happly .null
  clear_value apply
  refine .bind inferInstance fun table => ?_
  split
  · split
    · refine .bind inferInstance fun annotated => ?_
      split <;> infer_instance
    · infer_instance
  · infer_instance

/-! ### Leaving scopes -/

/-- An action at the end of which a number of scopes has been left, if no error is marked. -/
class Withdraws (depth : Nat) (x : Check α) : Prop where
  ok : ∀ s a t, x s = .ok a t → isFlagged t = false → isFlagged s = false ∧ s.table.Leaves depth t.table

instance (priority := low) [h : Obeys steady x] : Withdraws 0 x :=
  ⟨fun _ _ _ hx => h.step hx⟩

instance [hx : Obeys steady x] [hf : ∀ a, Withdraws depth (f a)] : Withdraws depth (x >>= f) := by
  refine ⟨fun s b t h hclean => ?_⟩
  obtain ⟨a, u, hrun, hrest⟩ := bind_eq_ok.1 h
  obtain ⟨hmiddle, hleaves⟩ := (hf a).ok u b t hrest hclean
  obtain ⟨hstart, hkept⟩ := hx.step hrun hmiddle
  exact ⟨hstart, Nat.zero_add depth ▸ hkept.trans hleaves⟩

instance {c : Prop} [Decidable c] [Withdraws depth x] [Withdraws depth y] : Withdraws depth (if c then x else y) := by
  split <;> infer_instance

instance {next : Unit → Check α} [hnext : ∀ u, Obeys steady (next u)] :
    Withdraws 1 (changeTable ScopeTable.exitScope >>= next) := by
  refine ⟨fun s a t h hclean => ?_⟩
  obtain ⟨u, middle, hrun, hrest⟩ := bind_eq_ok.1 h
  obtain ⟨table, hexit, rfl⟩ := changeTable_eq_ok.1 hrun
  obtain ⟨hmiddle, hkept⟩ := (hnext u).step hrest hclean
  exact ⟨hmiddle, (ScopeTable.Leaves.exitScope hexit).trans hkept⟩

instance {next : Unit → Check α} [hnext : ∀ u, Withdraws 1 (next u)] :
    Withdraws 0 (table >>= fun old => setTable old.createScope >>= next) := by
  refine ⟨fun s a t h hclean => ?_⟩
  obtain ⟨old, _, htable, h⟩ := bind_eq_ok.1 h
  obtain ⟨rfl, rfl⟩ := table_eq_ok.1 htable
  obtain ⟨u, _, hset, hrest⟩ := bind_eq_ok.1 h
  obtain rfl := setTable_eq_ok.1 hset
  obtain ⟨hstart, hleaves⟩ := (hnext u).ok _ a t hrest hclean
  exact ⟨hstart, .of_createScope hleaves⟩

section Visits

variable {visit : Value → Check Unit} [∀ value, Obeys steady (visit value)] {node : Value} {kind : Kind}

instance : Withdraws 0 (visitBlock visit node) := by
  unfold visitBlock
  rw [← bind_pure (changeTable ScopeTable.exitScope)]
  infer_instance

instance : Withdraws 0 (visitFunction visit node) := by
  unfold visitFunction
  infer_instance

theorem withdraws_visitNode (h : kind ≠ .program) : Withdraws 0 (visitNode visit node kind) := by
  by_cases hblock : kind = .block
  · subst hblock
    exact inferInstanceAs (Withdraws 0 (visitBlock visit node))
  · by_cases hfunction : kind = .function
    · subst hfunction
      exact inferInstanceAs (Withdraws 0 (visitFunction visit node))
    · have : Obeys steady (visitNode visit node kind) := mild_visitNode_inner visit (by simp [h, hblock, hfunction])
      infer_instance

end Visits

/-- A visit that ends has left every scope that it has created. -/
theorem steady_visitWithin : ∀ depth value (s t : Analysis) (u : Unit), visitWithin depth value s = .ok u t → steady.step s t
  | 0, _, _, _, _, h => absurd h fail_ne_ok
  | depth + 1, value, s, t, u, h => by
      obtain ⟨kind, -, h⟩ := visitWithin_eq_ok.1 h
      -- the visits below that fail are ruled out by a mark
      have hall : permitting (fun _ _ => True) (visitWithin depth) = visitWithin depth :=
        funext fun _ => funext fun _ => permitting_of trivial
      have hvisit := obeys_permitted steady (fun _ hcaught => absurd hcaught (by decide))
        fun value s (h : True ∧ Ends (visitWithin depth) value s) => h.2.imp fun u => Exists.imp fun t hends =>
          ⟨hends, steady_visitWithin depth value s t u hends⟩
      intro hclean
      by_cases hprogram : kind = .program
      · subst hprogram
        obtain ⟨declared, hdeclared, hends⟩ := visitProgram_eq_ok h hclean
        rw [← hall] at hends
        have hends := @permitting_ends _ _ _ (fun visit => visitStatements visit value) _ _ _ _ _ _ hends
        exact steady.trans (Obeys.step hdeclared) (Obeys.step hends) hclean
      · have hopen : Open True fun visit => visitNode visit value kind := open_visitNode fun _ => hprogram
        rw [← hall] at h
        have hends := @permitting_ends _ _ _ (fun visit => visitNode visit value kind) _ _ _ _ _ _ h
        exact (withdraws_visitNode hprogram).ok s u t hends hclean

/-! ### Ends -/

/-- A failure that no handler sees is one that an error was announced before. -/
def frank : Rule Analysis where
  step _ _ := True
  stop failure _ t := failure.isCaught ∨ isFlagged t = true
  refl _ := trivial
  trans _ _ := trivial
  stop_of_step _ h := h
  step_of_stop _ _ := trivial

theorem frank_of_flags [h : Flags x] : Obeys frank x := by
  refine ⟨fun s => ?_⟩
  cases hx : x s with
  | ok a t => exact trivial
  | error failure t => exact .inr (h.error s failure t hx)

instance : Mild frank where
  step_withDraft _ _ _ := trivial
  stop_withDraft _ _ _ _ h := .inl (Failure.isCaught_of_isOrdinary h)
  announce _ _ _ := frank_of_flags
  refuse _ _ _ := .bind frank_of_flags fun _ => .throw fun _ => .inl rfl
  modify _ := .modify fun _ => trivial

instance (table : ScopeTable) : Obeys frank (setTable table) :=
  .modify fun _ => trivial

instance (name type : Value) : Obeys frank (setFunction name type) :=
  .modify fun _ => trivial

theorem flagged_of_analyze_error {tree : Value} {s t : Analysis} {failure : Failure}
    (h : analyze tree s = .error failure t) : isFlagged t = true := by
  obtain ⟨_, _, hget, h⟩ := (bind_eq_error.1 h).resolve_left nofun
  obtain ⟨rfl, rfl⟩ := get_eq_ok.1 hget
  split at h
  · cases h
  · split at h
    · cases h
    · obtain hvisit | ⟨_, _, -, hlast⟩ := bind_eq_error.1 h
      · unfold handling at hvisit
        split at hvisit
        · cases hvisit
        case h_2 other later hfailed =>
          split at hvisit
          · exact Flags.error _ _ _ hvisit
          case isFalse hcaught =>
            cases hvisit
            have hfrank : Obeys frank (visitWithin visitDepth tree) := inferInstance
            exact (hfrank.stop hfailed).resolve_left hcaught
      · cases hlast

end Check

variable {tree : Value} {draft after : Draft}

theorem analyzeTree_eq_ok {result : Option ScopeTable} (h : analyzeTree tree draft = .ok result after) :
    ∃ t, Check.analyze tree { toDraft := draft } = .ok result t ∧ t.toDraft = after := by
  unfold analyzeTree at h
  split at h <;> cases h
  exact ⟨_, ‹_›, rfl⟩

theorem analyzeTree_eq_error {failure : Failure} (h : analyzeTree tree draft = .error failure after) :
    ∃ t, Check.analyze tree { toDraft := draft } = .error failure t ∧ t.toDraft = after := by
  unfold analyzeTree at h
  split at h <;> cases h
  exact ⟨_, ‹_›, rfl⟩

/-- The analysis of a program gives up only after it has announced an error.  If it announces none, it returns a table at the
global scope, in which nothing has been entered, so that the scope that is entered next is the one that was created first. -/
theorem analyzeTree_rewinds (hprogram : draft.graph.kindOf? tree = some .program) :
    (∀ failure after, analyzeTree tree draft = .error failure after → after.journal.flagged = true) ∧
      ∀ result after, analyzeTree tree draft = .ok result after → after.journal.flagged = false →
        ∃ table, result = some table ∧ table.path = [0] ∧ table.entered = [0] ∧ table.current = 0 ∧
          (1 < table.scopes.size → (table.scope 0).children.head? = some 1 ∧
            ∃ entered, table.enterScope = .ok entered ∧ entered.current = 1) := by
  constructor
  · intro failure after h
    obtain ⟨t, hrun, rfl⟩ := analyzeTree_eq_error h
    exact Check.flagged_of_analyze_error hrun
  · intro result after h hclean
    obtain ⟨t, hrun, rfl⟩ := analyzeTree_eq_ok h
    rcases Check.analyze_eq_ok hrun hclean with ⟨hnull, -⟩ | ⟨hresult, hvisit⟩
    · cases tree with
      | node => cases hnull
      | _ => cases hprogram
    · obtain ⟨-, hpath, hentered, hfirst⟩ := Check.steady_visitWithin _ _ _ _ _ hvisit hclean
      have hpath : t.table.path = [0] := hpath
      have hentered : t.table.entered = [0] := hentered
      refine ⟨_, hresult, hpath, hentered, by rw [ScopeTable.current, hpath]; rfl, fun hsize => ?_⟩
      rcases hfirst (.inl ⟨rfl, rfl, rfl⟩) with ⟨hone, -⟩ | hhead
      · omega
      · refine ⟨hhead, _, ScopeTable.enterScope_eq_ok.2 ⟨1, ?_, rfl⟩, rfl⟩
        rw [ScopeTable.currentScope, ScopeTable.current, hpath, hentered]
        exact List.head?_eq_getElem?.symm.trans hhead

/-- A block inside another one, and a third behind them. -/
def nestedBlocks : Draft where
  graph.nodes := #[⟨.block, [(.statements, .list [])]⟩, ⟨.block, [(.statements, .list [.node 0])]⟩,
    ⟨.block, [(.statements, .list [])]⟩, ⟨.program, [(.statements, .list [.node 1, .node 2])]⟩]

/-- How many scopes the analysis makes, and whether it finds an error. -/
def scopesOf (tree : Value) (draft : Draft) : Option (Option Nat × Bool) :=
  match analyzeTree tree draft with
  | .ok result after => some (result.map (·.scopes.size), after.journal.flagged)
  | .error .. => none

theorem analyzeTree_rewinds_nested : ∃ table after entered, analyzeTree (.node 3) nestedBlocks = .ok (some table) after ∧
    table.scopes.size = 4 ∧ table.path = [0] ∧ table.entered = [0] ∧ table.enterScope = .ok entered ∧ entered.current = 1 := by
  have hends : scopesOf (.node 3) nestedBlocks = some (some 4, false) := by decide +kernel
  cases hrun : analyzeTree (.node 3) nestedBlocks with
  | error failure after =>
      rw [scopesOf, hrun] at hends
      cases hends
  | ok result after =>
      simp only [scopesOf, hrun, Option.some.injEq, Prod.mk.injEq, Option.map_eq_some_iff] at hends
      obtain ⟨⟨table, rfl, hsize⟩, hclean⟩ := hends
      obtain ⟨_, hsame, hpath, hentered, -, hfirst⟩ := (analyzeTree_rewinds rfl).2 _ after hrun hclean
      cases hsame
      obtain ⟨-, entered, henter, hcurrent⟩ := hfirst (hsize ▸ by decide)
      exact ⟨_, after, entered, rfl, hsize, hpath, hentered, henter, hcurrent⟩

end Scriptlet
