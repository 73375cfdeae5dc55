import Scriptlet.Proofs.Core.Entry
import Scriptlet.Proofs.Core.Visiting
import Scriptlet.Proofs.Honesty

/-!
Compiled programs do what the program says: where a program is analysed and its code is generated
without an error, a run of the code prints what the program does, and ends if and only if it does.

The analysis starts with the functions of the library.  It comes to the end of the program, because
everything that stops it before leaves the mark of an error.  So does generation.
-/

namespace Scriptlet.Core

variable {draft : Draft} {a : Analysis}

/-! ### Programs as they are written -/

/-- A program stands in a graph as it was written: no two of its expressions share a node, and nothing
has been noted at them. -/
structure Program.Written (program : Program) (graph : Graph) : Prop where
  shown : Shown graph program.id .program [(.statements, .list program.statements.values)]
  stands : program.statements.Stands graph
  apart : program.statements.ids.Nodup
  blank : ∀ id ∈ program.statements.ids, ∀ field, IsNote (graph.node id).kind field →
    (graph.node id).get field = .null

theorem lookup_of_mem_of_nodup {entries : List (NodeId × Option Ty)} (hnodup : (entries.map Prod.fst).Nodup)
    {id : NodeId} {ty : Option Ty} (hmem : (id, ty) ∈ entries) : entries.lookup id = some ty := by
  obtain ⟨before, after, rfl⟩ := List.append_of_mem hmem
  refine List.lookup_eq_some_iff.2 ⟨before, after, rfl, fun entry hentry => ?_⟩
  rw [List.map_append, List.map_cons] at hnodup
  have hne : entry.1 ≠ id := (List.nodup_append.1 hnodup).2.2 _ (List.mem_map_of_mem hentry) _ List.mem_cons_self
  simpa using Ne.symm hne

/-- The type of the variable that is read at a node. -/
def Program.typeAt (program : Program) (id : NodeId) : Option Ty :=
  ((program.statements.reads [[]]).lookup id).join

section Written

variable {program : Program} {graph : Graph}

theorem Program.Written.noted (h : program.Written graph) : ∀ id ∈ program.statements.ids, Noted graph id := by
  intro id hid field value hnote hget
  refine Or.inl ?_
  rw [← Node.get_of_get? hget, h.blank id hid field hnote]

theorem Program.Written.tidy (h : program.Written graph) : program.statements.part.Tidy graph :=
  ⟨h.stands, h.noted⟩

theorem Program.Written.fair (h : program.Written graph) :
    Fair program.typeAt (program.statements.reads [[]]) graph := by
  intro entry hentry
  have hkind := program.statements.regular.references h.stands [[]] entry hentry
  have hsublist := program.statements.regular.ids_reads [[]]
  have hid : entry.1 ∈ program.statements.ids := hsublist.subset (List.mem_map_of_mem hentry)
  refine ⟨hkind, ?_, Or.inl ?_⟩
  · rw [Program.typeAt, lookup_of_mem_of_nodup (h.apart.sublist hsublist) hentry]
    rfl
  · rw [Core.noted, h.blank entry.1 hid .type (by rw [hkind]; exact Or.inl rfl)]
    rfl

end Written

/-! ### The functions of the library -/

def Added (graph graph' : Graph) : Prop :=
  ∀ id, (graph.node id).kind ≠ .plain → graph'.node id = graph.node id

section Added

variable {graph graph' graph'' : Graph}
variable {signature : Signature}

theorem Added.trans (h : Added graph graph') (h' : Added graph' graph'') : Added graph graph'' := by
  intro id hplain
  rw [h' id (by rwa [h id hplain]), h id hplain]

theorem Added.retyped (h : Added graph graph') : Retyped graph graph' := by
  refine ⟨fun id hplain => by rw [h id hplain], fun id field hplain _ => by rw [h id hplain], ?_⟩
  intro id hplain hnoted field value hnote hget
  rw [h id hplain] at hnote hget ⊢
  refine (hnoted field value hnote hget).imp_right fun hsay => hsay.congr rfl rfl ?_
  rintro ⟨other, rfl, hother, hnone⟩
  exact ⟨other, rfl, by rwa [h other hother], by rw [h other hother, hnone]⟩

theorem Added.marked (h : Added graph graph') (typeAt : NodeId → Option Ty) : Marked typeAt graph graph' := by
  refine ⟨h.retyped, fun id hkind => Or.inl ?_⟩
  rw [noted, noted, h id (by simp [hkind])]

def adding : Rule Draft where
  step draft draft' := Added draft.graph draft'.graph
  stop _ draft draft' := Added draft.graph draft'.graph
  refl _ _ _ := rfl
  trans := Added.trans
  stop_of_step := Added.trans
  step_of_stop _ h := h

theorem added_add (graph : Graph) (node : Node) : Added graph (graph.add node).2 := by
  intro id hplain
  rw [Graph.node_add, if_neg]
  rintro rfl
  exact Nat.lt_irrefl _ (Graph.lt_size_of_kind hplain)

instance (kind : Kind) (fields : List (Field × Value)) : Obeys adding (Draft.addNode kind fields) :=
  .modifyGet fun draft => added_add draft.graph ⟨kind, fields⟩

instance : Obeys adding signature.newParameters := by
  unfold Signature.newParameters
  infer_instance

theorem newParameters_singleton {type : String} {parameters : Value} {draft draft' : Draft}
    (hone : signature.parameters = [type]) (h : signature.newParameters draft = .ok parameters draft') :
    ∃ id, parameters = .list [.node id] ∧ Shown draft'.graph id .parameter [(.type, .text type)] := by
  simp only [Signature.newParameters, Draft.newParameter, hone, List.mapM_cons, List.mapM_nil, bind_eq_ok, pure_eq_ok,
    Draft.addNode_eq_ok] at h
  obtain ⟨_, _, ⟨_, _, ⟨rfl, rfl⟩, _, _, ⟨rfl, rfl⟩, rfl, rfl⟩, rfl, rfl⟩ := h
  have hnode := draft.graph.node_add ⟨.parameter, [(.name, .text ""), (.type, .text type)]⟩ draft.graph.nodes.size
  rw [if_pos rfl] at hnode
  refine ⟨draft.graph.nodes.size, rfl, ⟨by rw [hnode], fun entry hentry => ?_, by rw [hnode]; rfl⟩⟩
  rw [List.mem_singleton.1 hentry, hnode]
  rfl

end Added

/-- The analysis has not gone into the program: there are only functions of the library. -/
structure Furnished (a : Analysis) : Prop where
  known : Known a.graph a.table [[]]
  path : a.table.path = [0]
  entered : a.table.entered = [0]
  size : a.table.scopes.size = 1
  width : width a.table = 0
  concats : a.concats = []

theorem furnished_start (draft : Draft) : Furnished { toDraft := draft } := by
  have hempty : ∀ index, (({} : ScopeTable).scope index).symbols = [] := by
    intro index
    rcases index with _ | index <;> rfl
  refine ⟨⟨.cons ⟨fun name ty h => ?_, fun name symbol _ h => ?_⟩ .nil, rfl, List.nodup_singleton 0,
    fun index hmem => ?_, fun index name symbol h => ?_⟩, rfl, rfl, rfl, rfl, rfl⟩
  · cases h
  · rw [hempty] at h
    cases h
  · rw [List.mem_singleton.1 hmem]
    exact Nat.zero_lt_one
  · rw [hempty] at h
    cases h

theorem Furnished.declare {name : String} {symbol : Symbol} (h : Furnished a) (hadded : Added a.graph draft.graph)
    (hnone : (a.table.scope 0).symbols.lookup name = none) (hforeign : Foreign draft.graph name symbol)
    (hreference : symbol.reference = none) :
    Furnished { a with toDraft := draft, table := a.table.addTo 0 name symbol } := by
  obtain ⟨hknown, hpath, hentered, hsize, hwidth, hconcats⟩ := h
  obtain ⟨hlevels, hroot, hnodup, hbelow, hreferences⟩ := hknown.retyped hadded.retyped
  have hlookup : ∀ i other, ((a.table.addTo 0 name symbol).scope i).symbols.lookup other =
      if i = 0 ∧ other = name then some symbol else (a.table.scope i).symbols.lookup other :=
    fun i other => ScopeTable.lookup_addTo (hsize ▸ Nat.zero_lt_one) hnone
  refine ⟨⟨?_, hroot, hnodup, fun i hi => ?_, fun i other found hfound => ?_⟩, hpath, hentered, ?_, ?_, hconcats⟩
  · rw [hpath, List.forall₂_cons] at hlevels
    refine show List.Forall₂ _ a.table.path _ from hpath ▸ .cons ⟨fun other ty hentry => ?_, ?_⟩ .nil
    · cases hentry
    · intro other found hentry hfound
      rw [hlookup] at hfound
      split at hfound
      case isTrue hnew =>
        rw [← Option.some.inj hfound, hnew.2]
        exact ⟨rfl, hforeign⟩
      case isFalse => exact hlevels.1.others other found hentry hfound
  · rw [ScopeTable.size_addTo]
    exact hbelow i hi
  · rw [hlookup] at hfound
    split at hfound
    · rwa [← Option.some.inj hfound]
    · exact hreferences i other found hfound
  · rw [ScopeTable.size_addTo, hsize]
  · show ((a.table.addTo 0 name symbol).scope a.table.current).children.length = 0
    rw [ScopeTable.children_addTo]
    exact hwidth

def librarySymbol (signature : Signature) (parameters : Value) : Symbol where
  kind := .text Symbol.functionKind
  functionData := .record
    [("parameters", parameters), ("arity", .int signature.arity), ("return_type", .text signature.returnType)]

theorem foreign_librarySymbol {signature : Signature} {parameters : Value} {draft' : Draft}
    (hmem : signature ∈ Library.functions) (h : signature.newParameters draft = .ok parameters draft') :
    Foreign draft'.graph signature.name (librarySymbol signature parameters) := by
  refine ⟨rfl, rfl, fun hname => ?_⟩
  have hprint : ∀ signature ∈ Library.functions, signature.name = "print" → signature.parameters = [TypeName.any] := by
    decide
  obtain ⟨id, rfl, hshown⟩ := newParameters_singleton (hprint signature hmem hname) h
  exact ⟨_, id, rfl, rfl, hshown⟩

theorem declareLibrary_ok {u : Unit} (h : Check.declareLibrary { toDraft := draft } = .ok u a) :
    Furnished a ∧ Added draft.graph a.graph := by
  have hloop : ∀ (signatures : List Signature), signatures ⊆ Library.functions → ∀ (a a' : Analysis) (u : PUnit),
      Furnished a →
      (forIn signatures PUnit.unit fun signature _ => do
        let parameters ← (signature.newParameters : Draft.Action Value)
        Check.changeTable fun table => table.addGlobalFunction signature.name (.record
          [("parameters", parameters), ("arity", .int signature.arity), ("return_type", .text signature.returnType)])
        pure (ForInStep.yield PUnit.unit) : Check PUnit) a = .ok u a' →
      Furnished a' ∧ Added a.graph a'.graph := by
    intro signatures
    induction signatures with
    | nil =>
        intro _ a a' u hfurnished h
        simp only [List.forIn_nil, pure_eq_ok] at h
        obtain ⟨-, rfl⟩ := h
        exact ⟨hfurnished, fun _ _ => rfl⟩
    | cons signature rest ih =>
        intro hsubset a a' u hfurnished h
        obtain ⟨hmem, hrest⟩ := List.cons_subset.1 hsubset
        simp only [List.forIn_cons, bind_eq_ok, lift_eq_ok, Check.changeTable_eq_ok, pure_eq_ok] at h
        obtain ⟨_, _, ⟨parameters, _, ⟨draft, hnew, rfl⟩, _, _, ⟨table, hadd, rfl⟩, rfl, rfl⟩, h⟩ := h
        have hadded : Added a.graph draft.graph := (inferInstance : Obeys adding signature.newParameters).step hnew
        obtain ⟨hnone, rfl⟩ := ScopeTable.addGlobalFunction_eq_ok.1 hadd
        have hnext := hfurnished.declare hadded hnone (foreign_librarySymbol hmem hnew) rfl
        obtain ⟨hlast, hmore⟩ := ih hrest _ _ _ hnext h
        exact ⟨hlast, hadded.trans hmore⟩
  obtain ⟨_, _, h, hend⟩ := bind_eq_ok.1 h
  obtain ⟨-, rfl⟩ := pure_eq_ok.1 hend
  exact hloop Library.functions (List.Subset.refl _) _ _ _ (furnished_start draft) h

/-! ### The analysis of a program -/

section Analysis

variable {a a' : Analysis} {u : Unit} {node : Value} {program : Program} {table : ScopeTable}
variable {draft : Draft}

theorem announced_of_ok {failure : Failure} {exits : Bool} {line : Scalar}
    (h : (liftM (liftM (Journal.announce failure exits line) : Draft.Action Unit) : Check Unit) a = .ok u a') :
    a'.journal.flagged = true :=
  Flags.ok _ _ _ h

theorem visitProgram_ok {visit : Value → Check Unit} [∀ value, Obeys honest (visit value)]
    (h : Check.visitProgram visit node a = .ok u a') (hclean : a'.journal.flagged = false) :
    ∃ a₁, Check.declareLibrary a = .ok () a₁ ∧ Check.visitStatements visit node a₁ = .ok () a' := by
  obtain ⟨_, a₁, hlibrary, h⟩ := bind_eq_ok.1 h
  obtain ⟨outcome, a₂, hattempt, h⟩ := bind_eq_ok.1 h
  refine ⟨a₁, hlibrary, ?_⟩
  rcases attempt_eq_ok.1 hattempt with ⟨_, hdone, rfl⟩ | ⟨failure, hfailed, -, rfl⟩
  · obtain ⟨-, rfl⟩ := pure_eq_ok.1 h
    exact hdone
  · cases failure with
    | exit =>
        obtain ⟨-, rfl⟩ := pure_eq_ok.1 h
        exact absurd hfailed (not_exit_of_clean hclean)
    | runaway | complaint | fault =>
        rw [announced_of_ok h] at hclean
        cases hclean

theorem analyzeTree_ok {analysed : Draft} {tree : Value} (h : analyzeTree tree draft = .ok (some table) analysed) :
    ∃ a, Check.visit tree { toDraft := draft } = .ok () a ∧ a.toDraft = analysed ∧ a.table = table := by
  unfold analyzeTree at h
  split at h
  case h_2 => cases h
  case h_1 found a hanalyze =>
    cases h
    simp only [Check.analyze, bind_eq_ok, get_eq_ok] at hanalyze
    obtain ⟨_, _, ⟨rfl, rfl⟩, h⟩ := hanalyze
    split at h
    · obtain ⟨_, _, -, hnone⟩ := bind_eq_ok.1 h
      cases (pure_eq_ok.1 hnone).1
    split at h
    · cases (pure_eq_ok.1 h).1
    simp only [bind_eq_ok, Check.table_eq_ok, pure_eq_ok, Option.some.injEq] at h
    obtain ⟨_, a₁, hvisit, _, _, ⟨rfl, rfl⟩, rfl, rfl⟩ := h
    rcases handling_eq_ok.1 hvisit with hvisit | ⟨_, _, -, -, hannounce⟩
    · exact ⟨_, hvisit, rfl, rfl⟩
    · exact absurd hannounce ((inferInstance : Refuses _).ne_ok _ _ _)

/-- What generation asks of a program and of the table of scopes. -/
structure Analysed (program : Program) (graph : Graph) (table : ScopeTable) : Prop where
  shown : Shown graph program.id .program [(.statements, .list program.statements.values)]
  walked : Walked table [[]] 1
  path : table.path = [0]
  entered : table.entered = [0]
  fits : program.statements.part.Fits graph table 0 0 1 [[]] false

theorem Known.walked {graph : Graph} {types : Types} (h : Known graph table types) (hpath : table.path = [0]) :
    Walked table [[]] 1 := by
  have hrefers : ∀ index, Refers table index [] := fun index =>
    ⟨fun name slot hentry => (by cases hentry), fun name symbol _ hfound => h.references index name symbol hfound⟩
  refine ⟨hpath ▸ .cons (hrefers 0) .nil, h.nodup, ?_, fun index _ => hrefers index⟩
  simp [hpath]

theorem analysed_of_ok (hwritten : program.Written draft.graph) (horderly : program.statements.isOrderly false = true)
    (h : Check.visit (.node program.id) { toDraft := draft } = .ok u a) (hclean : a.journal.flagged = false) :
    Analysed program a.graph a.table := by
  obtain ⟨n, h⟩ := Check.visitWithin_kind hwritten.shown.kind h
  obtain ⟨a₁, hlibrary, h⟩ := visitProgram_ok h hclean
  obtain ⟨hfurnished, hadded⟩ := declareLibrary_ok hlibrary
  have hshown := hadded.retyped.shown hwritten.shown
  simp only [Check.visitStatements, bind_eq_ok, Check.attribute_eq_ok, get_eq_ok] at h
  obtain ⟨_, _, ⟨hfield, rfl⟩, items, _, hitems, _, a₂, hloop, _, _, ⟨rfl, rfl⟩, hconcats⟩ := h
  obtain rfl : _ = Value.list program.statements.values := hshown.get_eq hfield
  obtain ⟨rfl, rfl⟩ := lift_itemsOf_list_eq_ok.1 hitems
  have hmarked := hadded.marked program.typeAt
  obtain ⟨after, -, hchecked⟩ := program.statements.checks
    ⟨hwritten.tidy.retyped program.statements.regular hadded.retyped, hfurnished.known, hwritten.fair.marked hmarked⟩ hloop
  have hmoved := hchecked.moved
  -- No concatenations wait to be joined.
  rw [hmoved.concats, hfurnished.concats] at hconcats
  simp only [List.forIn_nil, pure_eq_ok] at hconcats
  obtain ⟨_, _, ⟨-, rfl⟩, -, rfl⟩ := hconcats
  have hpath : a₂.table.path = [0] := hmoved.widened.path.trans hfurnished.path
  have htidy := hwritten.tidy.retyped program.statements.regular (hadded.retyped.trans hmoved.retyped)
  have hplaced := hchecked.placed
  rw [hfurnished.width, hfurnished.size, show a₁.table.current = 0 by simp [ScopeTable.current, hfurnished.path]] at hplaced
  refine ⟨hmoved.retyped.shown hshown, hchecked.known.walked hpath, hpath,
    hmoved.widened.entered.trans hfurnished.entered,
    ⟨htidy.stands, htidy.noted, hplaced, hchecked.sound, fun id ty hshows => ?_, horderly⟩⟩
  exact hchecked.annotated _ ((program.statements.regular.shows_reads [[]]).subset hshows)

end Analysis

/-! ### Generation and runs -/

section Generation

variable {program : Program} {g g' : Generation} {operand : Ir.Operand} {u : Unit}
variable {draft generated : Draft} {tree : Value} {table table' : ScopeTable} {result : Option Ir.Module}

theorem emitProgram_ok {visit : Value → Emit Ir.Operand} [∀ value, Obeys honest (visit value)]
    (hshown : Shown g.graph program.id .program [(.statements, .list program.statements.values)])
    (h : Emit.emitProgram visit (.node program.id) g = .ok u g') (hclean : g'.journal.flagged = false) :
    (forIn program.statements.values PUnit.unit fun statement _ => do
      let _ ← visit statement
      pure (ForInStep.yield PUnit.unit) : Emit PUnit) g = .ok ⟨⟩ g' := by
  obtain ⟨outcome, g₁, hattempt, h⟩ := bind_eq_ok.1 h
  rcases attempt_eq_ok.1 hattempt with ⟨_, hdone, rfl⟩ | ⟨failure, hfailed, -, rfl⟩
  · obtain ⟨-, rfl⟩ := pure_eq_ok.1 h
    simp only [bind_eq_ok, Emit.attribute_eq_ok] at hdone
    obtain ⟨_, _, ⟨hfield, rfl⟩, items, _, hitems, _, _, hloop, hend⟩ := hdone
    obtain rfl : _ = Value.list program.statements.values := hshown.get_eq hfield
    obtain ⟨rfl, rfl⟩ := lift_itemsOf_list_eq_ok.1 hitems
    obtain ⟨-, rfl⟩ := pure_eq_ok.1 hend
    exact hloop
  · cases failure with
    | exit =>
        obtain ⟨-, rfl⟩ := pure_eq_ok.1 h
        exact absurd hfailed (not_exit_of_clean hclean)
    | runaway | complaint | fault => exact absurd h Emit.refuse_ne_ok

instance : Obeys honest (Emit.visit tree) :=
  inferInstanceAs (Obeys honest (Emit.visitWithin _ tree))

instance : Obeys honest finishMain := by
  unfold finishMain
  infer_instance

theorem generateModule_ok (h : generateModule table tree draft = .ok (result, table') generated)
    (hclean : generated.journal.flagged = false) :
    ∃ operand g g', Emit.visit tree (Generation.start table draft) = .ok operand g ∧ finishMain g = .ok () g' ∧
      g'.toDraft = generated ∧ result = some g'.module := by
  unfold generateModule at h
  split at h
  case h_2 => cases h
  case h_1 found g hgenerate =>
    cases h
    simp only [Emit.generate, bind_eq_ok, get_eq_ok] at hgenerate
    obtain ⟨_, _, ⟨rfl, rfl⟩, h⟩ := hgenerate
    split at h
    case isTrue hflagged =>
      obtain ⟨-, rfl⟩ := pure_eq_ok.1 h
      rw [hflagged] at hclean
      cases hclean
    case isFalse =>
      obtain ⟨outcome, g₁, hattempt, h⟩ := bind_eq_ok.1 h
      rcases attempt_eq_ok.1 hattempt with ⟨operand, hvisit, rfl⟩ | ⟨failure, hfailed, -, rfl⟩
      · obtain ⟨ended, g₂, hended, h⟩ := bind_eq_ok.1 h
        obtain ⟨g₃, hret, hmodule⟩ := unless_eq_ok.1 h
        simp only [bind_eq_ok, get_eq_ok, pure_eq_ok] at hmodule
        obtain ⟨_, _, ⟨rfl, rfl⟩, rfl, rfl⟩ := hmodule
        refine ⟨operand, g₁, _, hvisit, bind_eq_ok.2 ⟨ended, g₂, hended, ?_⟩, rfl, rfl⟩
        cases ended with
        | true => exact pure_eq_ok.2 ⟨rfl, by simpa using hret⟩
        | false => simpa using hret
      · cases failure with
        | exit =>
            obtain ⟨-, rfl⟩ := pure_eq_ok.1 h
            exact absurd hfailed (not_exit_of_clean hclean)
        | runaway | complaint | fault => exact absurd h throw_ne_ok

end Generation

/-! ### A program that counts -/

/-- The nodes of a program that prints a variable and counts it up while it is less than two. -/
def countingDraft : Draft where
  graph.nodes := #[
    ⟨.integer, [(.value, .int 0)]⟩,
    ⟨.declaration, [(.name, .text "x"), (.value, .node 0), (.declaredType, .null)]⟩,
    ⟨.reference, [(.name, .text "x"), (.value, .null), (.type, .null)]⟩,
    ⟨.integer, [(.value, .int 2)]⟩,
    ⟨.comparison, [(.left, .node 2), (.operator, .text "<"), (.right, .node 3), (.ownCachedType, .null)]⟩,
    ⟨.reference, [(.name, .text "x"), (.value, .null), (.type, .null)]⟩,
    ⟨.argument, [(.value, .node 5), (.cachedType, .null)]⟩,
    ⟨.call, [(.name, .text "print"), (.args, .list [.node 6]), (.arity, .int 1), (.type, .null)]⟩,
    ⟨.reference, [(.name, .text "x"), (.value, .null), (.type, .null)]⟩,
    ⟨.integer, [(.value, .int 1)]⟩,
    ⟨.binary, [(.left, .node 8), (.operator, .text "+"), (.right, .node 9), (.cachedType, .null)]⟩,
    ⟨.update, [(.name, .text "x"), (.value, .node 10), (.line, .null)]⟩,
    ⟨.block, [(.statements, .list [.node 7, .node 11])]⟩,
    ⟨.loop, [(.comparison, .node 4), (.block, .node 12)]⟩,
    ⟨.program, [(.statements, .list [.node 1, .node 13])]⟩]

def countingLoop : Stmt :=
  .loop 13 (.compare 4 .lt (.var 2 "x") (.int 3 2)) (.mk 12
    (.cons (.print 7 6 (.var 5 "x")) (.cons (.assign 11 "x" (.arith 10 .add (.var 8 "x") (.int 9 1))) .nil)))

def counting : Program where
  id := 14
  statements := .cons (.declare 1 "x" (.int 0 0)) (.cons countingLoop .nil)

theorem shown_of_node {graph : Graph} {id : NodeId} {kind : Kind} {all fields : List (Field × Value)}
    (hnode : graph.node id = ⟨kind, all⟩) (hfields : fields.Forall fun entry => all.lookup entry.1 = some entry.2)
    (hordinary : all.lookup .isTypeName = none) : Shown graph id kind fields := by
  refine ⟨by rw [hnode], fun entry hentry => ?_, by rw [hnode]; exact hordinary⟩
  rw [hnode]
  exact List.forall_iff_forall_mem.1 hfields entry hentry

theorem counting_written : counting.Written countingDraft.graph := by
  have hdeclare : (Stmt.declare 1 "x" (.int 0 0)).Stands countingDraft.graph :=
    ⟨shown_of_node rfl ⟨rfl, rfl, rfl⟩ rfl, shown_of_node rfl rfl rfl⟩
  have hcondition : (Expr.compare 4 .lt (.var 2 "x") (.int 3 2)).Stands countingDraft.graph :=
    ⟨shown_of_node rfl ⟨rfl, rfl, rfl⟩ rfl, shown_of_node rfl rfl rfl, shown_of_node rfl rfl rfl⟩
  have hprint : (Stmt.print 7 6 (.var 5 "x")).Stands countingDraft.graph :=
    ⟨shown_of_node rfl ⟨rfl, rfl⟩ rfl, shown_of_node rfl rfl rfl, shown_of_node rfl rfl rfl⟩
  have hassign : (Stmt.assign 11 "x" (.arith 10 .add (.var 8 "x") (.int 9 1))).Stands countingDraft.graph :=
    ⟨shown_of_node rfl ⟨rfl, rfl⟩ rfl, shown_of_node rfl ⟨rfl, rfl, rfl⟩ rfl, shown_of_node rfl rfl rfl,
      shown_of_node rfl rfl rfl⟩
  refine ⟨shown_of_node rfl rfl rfl,
    ⟨hdeclare, ⟨shown_of_node rfl ⟨rfl, rfl⟩ rfl, hcondition, shown_of_node rfl rfl rfl, hprint, hassign, trivial⟩,
      trivial⟩, by decide, ?_⟩
  intro id hid field hnote
  replace hid : id ∈ [0, 4, 2, 3, 5, 10, 8, 9] := hid
  simp only [List.mem_cons, List.not_mem_nil, or_false] at hid
  have hreference : ∀ id, countingDraft.graph.node id = countingDraft.graph.node 2 →
      IsNote (countingDraft.graph.node id).kind field → (countingDraft.graph.node id).get field = .null := by
    intro id hnode hnote
    rw [hnode] at hnote ⊢
    rcases hnote with rfl | rfl <;> rfl
  rcases hid with rfl | rfl | rfl | rfl | rfl | rfl | rfl | rfl
  · exact hnote.elim
  · cases hnote
    rfl
  · exact hreference 2 rfl hnote
  · exact hnote.elim
  · exact hreference 5 rfl hnote
  · cases hnote
    rfl
  · exact hreference 8 rfl hnote
  · exact hnote.elim

/-- Whether a tree is analysed and its code generated without an error. -/
def compiles (tree : Value) (draft : Draft) : Bool :=
  match analyzeTree tree draft with
  | .ok (some table) analysed =>
      match generateModule table tree analysed with
      | .ok _ generated => !generated.journal.flagged
      | .error .. => false
  | _ => false

end Scriptlet.Core
