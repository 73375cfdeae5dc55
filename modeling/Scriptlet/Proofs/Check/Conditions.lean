import Scriptlet.Proofs.Check.Acceptance

/-!
Conditions: what has been found out about the type of a condition still holds when the blocks that depend
on it have been visited, because they were read after it.
-/

set_option synthInstance.maxSize 1000000

namespace Scriptlet

/-- The type that a value is found to have. -/
def Analysis.Gives (s : Analysis) (value type : Value) : Prop :=
  ∃ later, Draft.typeOf value s.toDraft = .ok type later

/-- A condition of a conditional or a loop.  Conditionals have branches with further conditions. -/
def Graph.HasCondition (graph : Graph) (node condition : Value) : Prop :=
  graph.fieldOf? node .comparison = some condition ∨ graph.kindOf? node = some .conditional ∧
    ∃ branches block, graph.fieldOf? node .elifNodes = some (.list branches) ∧ .tuple [condition, block] ∈ branches

namespace Check

variable {α : Type} {origin : Graph} {root id depth : Nat} {s t u : Analysis} {value type first second : Value}
variable {field : Field} {condition : Value} {v : Unit}

theorem gives_of_typeAt (h : s.graph.typeAt walkDepth value = some type) : s.Gives value type :=
  Draft.typeWithin_of_typeAt h

theorem typeAt_of_typeOf (h : (liftM (Draft.typeOf value) : Check Value) s = .ok type t) :
    t.graph.typeAt walkDepth value = some type := by
  obtain ⟨draft, htype, rfl⟩ := lift_eq_ok.1 h
  have hanswers := Draft.answers_typeWithin walkDepth value s.toDraft
  rw [show Draft.typeWithin walkDepth value s.toDraft = .ok type draft from htype] at hanswers
  exact hanswers.2.2.2

/-! ### Parts that were read one after the other -/

theorem divided_of_closed {start stop : Nat} (h : origin.Closed start stop) (hle : start ≤ stop) :
    origin.Divided start start stop where
  low_le := le_refl start
  le_high := hle
  left _ _ hlow hlt := absurd hlt (Nat.not_lt.2 hlow)
  right := h
  parent _ parent _ _ _ := Nat.lt_or_ge parent start

/-- An action that works wherever the nodes of a value lie. -/
def WorksAt (value : Value) (x : Check α) : Prop :=
  ∀ site : Site, value.Spans site.middle site.high → Obeys (conduct site) x

theorem worksAt_visitWithin (depth : Nat) (value : Value) : WorksAt value (visitWithin depth value) :=
  fun _ hspans => conduct_visitWithin depth value (Site.has_of_spans hspans)

section Parts

variable (hlaid : origin.WellLaid (.node root)) (hparted : origin.Parted 0 origin.nodes.size first second)
  (htame : s.Tame (inner hlaid)) {x : Check α} {a : α} (hrun : x s = .ok a t)

include hparted htame hrun

theorem tame_of_first (hx : WorksAt first x) : t.Tame (inner hlaid) := by
  obtain ⟨start, middle, stop, -, hstop, hdivided, hfirst, -⟩ := hparted
  have hle : middle ≤ origin.nodes.size := hdivided.le_high.trans hstop
  have hself := divided_of_closed hdivided.left hdivided.low_le
  have htame' := (((hx (.plain hlaid hself hle) hfirst).step hrun) (htame.plain hself hle)).1
  exact htame'.plain (divided_inner hlaid) _

theorem keeps_of_second (hx : WorksAt second x) : t.Tame (inner hlaid) ∧
    ∀ depth type, s.graph.typeAt depth first = some type → t.graph.typeAt depth first = some type := by
  obtain ⟨start, middle, stop, -, hstop, hdivided, hfirst, hsecond⟩ := hparted
  obtain ⟨htame', hspares⟩ := ((hx (.plain hlaid hdivided hstop) hsecond).step hrun) (htame.plain hdivided hstop)
  refine ⟨htame'.plain (divided_inner hlaid) _, fun depth type htype => ?_⟩
  obtain ⟨-, id, -, rfl⟩ := Graph.exists_of_typeAt htype
  obtain ⟨hlow, hhigh⟩ := Value.spans_node.1 hfirst
  exact hspares.typeAt id depth type hlow hhigh htype

end Parts

/-! ### Conditions -/

/-- A value is known to be a truth value. -/
def IsTruth (s : Analysis) (value : Value) : Prop :=
  s.graph.typeAt walkDepth value = some (.text TypeName.boolean)

theorem checkCondition_eq_ok {u : Unit} (h : checkCondition value s = .ok u t) : IsTruth t value := by
  obtain ⟨type, s', htype, h⟩ := bind_eq_ok.1 h
  obtain ⟨hboolean, h⟩ := ite_refuses.1 h
  obtain ⟨-, rfl⟩ := pure_eq_ok.1 h
  rw [IsTruth, typeAt_of_typeOf htype, isText_iff.1 hboolean]

instance (site : Site) : Obeys (conduct site) (checkCondition value) := by
  unfold checkCondition
  infer_instance

theorem getField_eq_ok {node : Value} :
    (liftM (Draft.getField node field) : Check Value) s = .ok value t ↔ s.graph.fieldOf? node field = some value ∧ s = t :=
  lift_getField_eq_ok

theorem getField_bind {node : Value} {f : Value → Check α} (h : s.graph.fieldOf? node field = some value) :
    (liftM (Draft.getField node field) >>= f) s = f value s := by
  have hget : (liftM (Draft.getField node field) : Check Value) s = .ok value s := lift_getField_eq_ok.2 ⟨h, rfl⟩
  show EStateM.bind _ f s = _
  unfold EStateM.bind
  rw [hget]

theorem fieldOf?_kept {hlaid : origin.WellLaid (.node root)} (htame : s.Tame (inner hlaid))
    (hid : id < origin.nodes.size) (hkeeps : (origin.node id).kind.keeps field) :
    s.graph.fieldOf? (.node id) field = (origin.node id).get? field :=
  htame.holds.derived.kept id field hid hkeeps

theorem kept {hlaid : origin.WellLaid (.node root)} (htame : s.Tame (inner hlaid))
    (hvalue : (origin.node id).get? field = some value) (hkeeps : (origin.node id).kind.keeps field) :
    s.graph.fieldOf? (.node id) field = some value :=
  (fieldOf?_kept htame (Graph.lt_size_of_get? hvalue) hkeeps).trans hvalue

theorem lift_pairOf_tuple_eq_ok {pair : Value × Value} :
    (liftM (Draft.pairOf (.tuple [first, second])) : Check (Value × Value)) s = .ok pair t ↔ (first, second) = pair ∧ s = t :=
  lift_eq_ok_of_reads (P := fun _ pair => (first, second) = pair) fun _ _ _ => pure_eq_ok

/-- A condition is checked before the block that depends on it is visited. -/
theorem truth_of_branch (hlaid : origin.WellLaid (.node root)) {block : Value}
    (hparted : origin.Parted 0 origin.nodes.size condition block) (htame : s.Tame (inner hlaid)) {s₁ s₂ : Analysis}
    {v' v'' : Unit} (hvisit : visitWithin depth condition s = .ok v s₁)
    (hcheck : checkCondition condition s₁ = .ok v' s₂) (hblock : visitWithin depth block s₂ = .ok v'' t) :
    t.Tame (inner hlaid) ∧ IsTruth t condition := by
  have htame₁ := tame_of_first hlaid hparted htame hvisit (worksAt_visitWithin depth condition)
  have htame₂ := tame_of_first hlaid hparted htame₁ hcheck fun _ _ => inferInstance
  obtain ⟨htame₃, hkeeps⟩ := keeps_of_second hlaid hparted htame₂ hblock (worksAt_visitWithin depth block)
  exact ⟨htame₃, hkeeps _ _ (checkCondition_eq_ok hcheck)⟩

/-- So do the branches of a conditional one after the other; the conditions before them keep their types. -/
theorem truth_of_branches (hlaid : origin.WellLaid (.node root)) {v : PUnit} : ∀ (branches : List (Value × Value)) (s t : Analysis),
    s.Tame (inner hlaid) →
    (∀ branch ∈ branches, origin.Parted 0 origin.nodes.size branch.1 branch.2) →
    branches.Pairwise (fun earlier later => origin.Parted 0 origin.nodes.size earlier.1 later.1 ∧
      origin.Parted 0 origin.nodes.size earlier.1 later.2) →
    (forIn (branches.map fun branch : Value × Value => Value.tuple [branch.1, branch.2]) PUnit.unit fun branch _ => do
        let (condition, block) ← (liftM (Draft.pairOf branch) : Check (Value × Value))
        visitWithin depth condition
        checkCondition condition
        visitWithin depth block
        pure (ForInStep.yield PUnit.unit)) s = .ok v t →
    t.Tame (inner hlaid) ∧ (∀ branch ∈ branches, IsTruth t branch.1) ∧
      ∀ first, (∀ branch ∈ branches, origin.Parted 0 origin.nodes.size first branch.1 ∧
        origin.Parted 0 origin.nodes.size first branch.2) → IsTruth s first → IsTruth t first
  | [], s, t, htame, _, _, hrun => by
      obtain ⟨-, rfl⟩ := pure_eq_ok.1 hrun
      exact ⟨htame, nofun, fun _ _ htruth => htruth⟩
  | (condition, block) :: rest, s, t, htame, hown, hpairs, hrun => by
      rw [List.map_cons, List.forIn_cons] at hrun
      obtain ⟨outcome, s', hbranch, hrun⟩ := bind_eq_ok.1 hrun
      obtain ⟨_, _, hpair, hbranch⟩ := bind_eq_ok.1 hbranch
      obtain ⟨rfl, rfl⟩ := lift_pairOf_tuple_eq_ok.1 hpair
      obtain ⟨_, s₁, hvisit, hbranch⟩ := bind_eq_ok.1 hbranch
      obtain ⟨_, s₂, hcheck, hbranch⟩ := bind_eq_ok.1 hbranch
      obtain ⟨_, s₃, hblock, hbranch⟩ := bind_eq_ok.1 hbranch
      obtain ⟨rfl, rfl⟩ := pure_eq_ok.1 hbranch
      obtain ⟨hfirst, hrest⟩ := List.pairwise_cons.1 hpairs
      have hparted := hown _ List.mem_cons_self
      obtain ⟨htame', htruth⟩ := truth_of_branch hlaid hparted htame hvisit hcheck hblock
      obtain ⟨htame'', htruths, hkeeps⟩ := truth_of_branches hlaid rest _ t htame'
        (fun branch hbranch => hown branch (List.mem_cons_of_mem _ hbranch)) hrest hrun
      refine ⟨htame'', fun branch hbranch => ?_, fun first hfirst htype => ?_⟩
      · rcases List.mem_cons.1 hbranch with rfl | hbranch
        · exact hkeeps condition hfirst htruth
        · exact htruths branch hbranch
      · obtain ⟨hcondition, hbody⟩ := hfirst (condition, block) List.mem_cons_self
        refine hkeeps first (fun branch hbranch => hfirst branch (List.mem_cons_of_mem _ hbranch)) ?_
        obtain ⟨htame₁, hkeeps₁⟩ := keeps_of_second hlaid hcondition htame hvisit (worksAt_visitWithin depth condition)
        obtain ⟨htame₂, hkeeps₂⟩ := keeps_of_second hlaid hcondition htame₁ hcheck fun _ _ => inferInstance
        obtain ⟨-, hkeeps₃⟩ := keeps_of_second hlaid hbody htame₂ hblock (worksAt_visitWithin depth block)
        exact hkeeps₃ _ _ (hkeeps₂ _ _ (hkeeps₁ _ _ htype))

/-- When a conditional has been visited, all its conditions have been found to be truth values. -/
theorem truth_of_conditional (hlaid : origin.WellLaid (.node root)) (hid : id < origin.nodes.size)
    (hkind : (origin.node id).kind = .conditional) (htame : s.Tame (inner hlaid))
    (h : visitConditional (visitWithin depth) (.node id) s = .ok v t)
    (hcondition : t.graph.HasCondition (.node id) condition) : IsTruth t condition := by
  obtain ⟨first, body, branches, otherwise, hconditional⟩ := (hlaid.laid id hid (by simp [hkind])).conditional hkind
  obtain ⟨hfirst, hpairs⟩ := List.pairwise_cons.1 hconditional.parted
  have hkeeps : ∀ field ∈ [Field.comparison, .block, .elifNodes, .elseBlock], (origin.node id).kind.keeps field := by
    rw [hkind]
    decide
  have hown := fun branch hbranch => (hconditional.own branch hbranch).1
  have hparted := hown _ List.mem_cons_self
  rw [visitConditional, getField_bind (kept htame hconditional.comparison (hkeeps _ (by decide)))] at h
  obtain ⟨_, s₁, hvisit, h⟩ := bind_eq_ok.1 h
  have htame₁ := tame_of_first hlaid hparted htame hvisit (worksAt_visitWithin depth _)
  rw [getField_bind (kept htame₁ hconditional.comparison (hkeeps _ (by decide)))] at h
  obtain ⟨_, s₂, hcheck, h⟩ := bind_eq_ok.1 h
  have htame₂ := tame_of_first hlaid hparted htame₁ hcheck fun _ _ => inferInstance
  rw [getField_bind (kept htame₂ hconditional.block (hkeeps _ (by decide)))] at h
  obtain ⟨_, s₃, hblock, h⟩ := bind_eq_ok.1 h
  obtain ⟨htame₃, htruth⟩ := truth_of_branch hlaid hparted htame hvisit hcheck hblock
  rw [getField_bind (kept htame₃ hconditional.elifNodes (hkeeps _ (by decide)))] at h
  obtain ⟨items, _, hitems, h⟩ := bind_eq_ok.1 h
  obtain ⟨rfl, rfl⟩ := lift_itemsOf_list_eq_ok.1 hitems
  obtain ⟨_, s₄, hbranches, h⟩ := bind_eq_ok.1 h
  obtain ⟨htame₄, htruths, hkept⟩ := truth_of_branches hlaid branches s₃ s₄ htame₃
    (fun branch hbranch => hown branch (List.mem_cons_of_mem _ hbranch)) hpairs hbranches
  -- so far all conditions are truth values, and the last block does not change that
  have hall : ∀ branch ∈ (first, body) :: branches, IsTruth s₄ branch.1 := by
    intro branch hbranch
    rcases List.mem_cons.1 hbranch with rfl | hbranch
    · exact hkept first hfirst htruth
    · exact htruths branch hbranch
  have hlast : t.Tame (inner hlaid) ∧ ∀ branch ∈ (first, body) :: branches, IsTruth t branch.1 := by
    dsimp only at h
    rw [getField_bind (kept htame₄ hconditional.elseBlock (hkeeps _ (by decide)))] at h
    split at h
    · obtain ⟨-, rfl⟩ := pure_eq_ok.1 h
      exact ⟨htame₄, hall⟩
    · have hwork := fun branch hbranch => keeps_of_second hlaid (hconditional.own branch hbranch).2 htame₄ h
        (worksAt_visitWithin depth otherwise)
      exact ⟨(hwork _ List.mem_cons_self).1, fun branch hbranch => (hwork branch hbranch).2 _ _ (hall branch hbranch)⟩
  obtain ⟨htame₅, hall⟩ := hlast
  rcases hcondition with hcomparison | ⟨-, others, block, helif, hmem⟩
  · rw [kept htame₅ hconditional.comparison (hkeeps _ (by decide))] at hcomparison
    cases hcomparison
    exact hall _ List.mem_cons_self
  · rw [kept htame₅ hconditional.elifNodes (hkeeps _ (by decide))] at helif
    cases helif
    obtain ⟨branch, hbranch, heq⟩ := List.mem_map.1 hmem
    cases heq
    exact hall branch (List.mem_cons_of_mem _ hbranch)

theorem truth_of_loop (hlaid : origin.WellLaid (.node root)) (hid : id < origin.nodes.size)
    (hkind : (origin.node id).kind = .loop) (htame : s.Tame (inner hlaid))
    (h : visitLoop (visitWithin depth) (.node id) s = .ok v t) (hcondition : t.graph.HasCondition (.node id) condition) :
    IsTruth t condition := by
  obtain ⟨first, body, hcomparison, hbody, hparted⟩ := (hlaid.laid id hid (by simp [hkind])).loop hkind
  have hkeeps : ∀ field ∈ [Field.comparison, .block], (origin.node id).kind.keeps field := by
    rw [hkind]
    decide
  rw [visitLoop, getField_bind (kept htame hcomparison (hkeeps _ (by decide)))] at h
  obtain ⟨_, s₁, hvisit, h⟩ := bind_eq_ok.1 h
  have htame₁ := tame_of_first hlaid hparted htame hvisit (worksAt_visitWithin depth _)
  rw [getField_bind (kept htame₁ hcomparison (hkeeps _ (by decide)))] at h
  obtain ⟨_, s₂, hcheck, h⟩ := bind_eq_ok.1 h
  have htame₂ := tame_of_first hlaid hparted htame₁ hcheck fun _ _ => inferInstance
  obtain ⟨_, s₃, hmark, h⟩ := bind_eq_ok.1 h
  have htame₃ := tame_of_first hlaid hparted htame₂ hmark fun _ _ => inferInstance
  have htruth : IsTruth s₃ first := by
    rw [← modify_eq_ok.1 hmark]
    exact show IsTruth s₂ first from checkCondition_eq_ok hcheck
  rw [getField_bind (kept htame₃ hbody (hkeeps _ (by decide)))] at h
  obtain ⟨_, s₄, hblock, h⟩ := bind_eq_ok.1 h
  obtain ⟨htame₄, hkept⟩ := keeps_of_second hlaid hparted htame₃ hblock (worksAt_visitWithin depth _)
  rw [modify_eq_ok] at h
  subst h
  rcases hcondition with hfound | ⟨hconditional, -⟩
  · cases (kept htame₄ hcomparison (hkeeps _ (by decide))).symm.trans hfound
    exact hkept _ _ htruth
  · have hsame : s₄.graph.kindOf? (.node id) = some .loop :=
      congrArg some ((htame₄.holds.derived.kind id hid).trans hkind)
    cases hsame.symm.trans hconditional

end Check

end Scriptlet
