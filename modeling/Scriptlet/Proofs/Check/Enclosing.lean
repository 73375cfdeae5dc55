import Scriptlet.Proofs.Check.Mild
import Scriptlet.Proofs.Check.Openness
import Scriptlet.Proofs.Check.Visiting

/-!
What is expected of a return: the type that the innermost function under visit returns, or nothing.

A visit that ends leaves the expected type as it found it, or it leaves none.  So where a function is
visited, no other type is expected before its visit is over.
-/

set_option synthInstance.maxSize 1000000

namespace Scriptlet

section Marks

variable {σ α β : Type} {action : (Value → EStateM Failure σ α) → EStateM Failure σ β}
  {visit : Value → EStateM Failure σ α} {permits : Value → σ → Prop} {s t : σ} {b : β}

def Ends (visit : Value → EStateM Failure σ α) (value : Value) (s : σ) : Prop :=
  ∃ a t, visit value s = .ok a t

/-- Where no visit is stopped, nothing changes. -/
theorem permitting_eq [h : Open False action] (hruns : ∀ u, action (permitting permits visit) s ≠ .error .mark u) :
    action (permitting permits visit) s = action visit s := by
  have hshadows := h.shadows (fun _ => True) (permitting permits visit) visit fun value => ⟨fun u => ?_⟩
  · rcases hshadows.shadows s with hsame | ⟨u, -, hmark, -⟩
    · exact hsame
    · exact absurd hmark (hruns u)
  · by_cases hpermits : permits value u
    · exact .inl (permitting_of hpermits)
    · exact .inr ⟨u, trivial, permitting_of_not hpermits, False.elim⟩

theorem permitting_ends [h : Open True action] (hends : action (permitting permits visit) s = .ok b t) :
    action (permitting (fun value u => permits value u ∧ Ends visit value u) visit) s = .ok b t := by
  have hshadows := h.shadows (fun _ => True) (permitting (fun value u => permits value u ∧ Ends visit value u) visit)
    (permitting permits visit) fun value => ⟨fun u => ?_⟩
  · rcases hshadows.shadows s with hsame | ⟨u, -, -, hfails⟩
    · exact hsame.trans hends
    · obtain ⟨failure, u', hfails⟩ := hfails trivial
      rw [hends] at hfails
      cases hfails
  · by_cases hpermits : permits value u
    · rw [permitting_of hpermits]
      by_cases hvisit : Ends visit value u
      · exact .inl (permitting_of ⟨hpermits, hvisit⟩)
      · refine .inr ⟨u, trivial, permitting_of_not fun h => hvisit h.2, fun _ => ?_⟩
        cases hrun : visit value u with
        | ok a u' => exact absurd ⟨a, u', hrun⟩ hvisit
        | error failure u' => exact ⟨failure, u', rfl⟩
    · exact .inl (by rw [permitting_of_not hpermits, permitting_of_not fun h => hpermits h.1])

/-- What holds wherever a marked action stops holds of all visits of an action that ends. -/
theorem Calls.holds [Open True action] [hopen : Open False action] {good : σ → Prop} {value : Value} {u : σ}
    (hends : action (permitting permits visit) s = .ok b t)
    (hmarked : ∀ u, action (permitting (fun value u => (permits value u ∧ Ends visit value u) ∧ good u) visit) s =
      .error .mark u → good u)
    (hcalls : Calls action visit s value u) : permits value u ∧ Ends visit value u ∧ good u := by
  have hruns : ∀ u, action (permitting (fun value u => (permits value u ∧ Ends visit value u) ∧ good u) visit) s ≠
      .error .mark u := by
    intro stop hstop
    have hshadows := hopen.shadows (fun u => ¬ good u)
      (permitting (fun value u => (permits value u ∧ Ends visit value u) ∧ good u) visit)
      (permitting (fun value u => permits value u ∧ Ends visit value u) visit) fun value => ⟨fun u => ?_⟩
    · rcases hshadows.shadows s with hsame | ⟨last, hbad, hmark, -⟩
      · rw [permitting_ends hends, hstop] at hsame
        cases hsame
      · exact hbad (hmarked last hmark)
    · by_cases hpermits : permits value u ∧ Ends visit value u
      · by_cases hgood : good u
        · exact .inl (by rw [permitting_of ⟨hpermits, hgood⟩, permitting_of hpermits])
        · exact .inr ⟨u, hgood, permitting_of_not fun h => hgood h.2, False.elim⟩
      · exact .inl (by rw [permitting_of_not fun h => hpermits h.1, permitting_of_not hpermits])
  exact and_assoc.1 (hcalls.permitted hruns)

end Marks

namespace Check

variable {kind : Kind}

/-- The expected type stays, or none is expected any more. -/
def waning : Rule Analysis where
  step s t := t.functionType = s.functionType ∨ t.functionType = .null
  stop _ s t := t.functionType = s.functionType ∨ t.functionType = .null
  refl _ := .inl rfl
  trans h h' := h'.elim (fun heq => by rw [heq]; exact h) .inr
  stop_of_step h h' := h'.elim (fun heq => by rw [heq]; exact h) .inr
  step_of_stop _ h := h

theorem waning_lift {α : Type} (x : Draft.Action α) : Obeys waning (liftM x : Check α) := by
  refine ⟨fun s => ?_⟩
  show waning.Allows s (Draft.onDraft x s)
  unfold Draft.onDraft
  cases x (Carries.draft s) <;> exact .inl rfl

instance : Mild waning where
  step_withDraft _ _ _ := .inl rfl
  stop_withDraft _ _ _ _ _ := .inl rfl
  announce _ _ _ := waning_lift _
  refuse _ _ _ := .bind (waning_lift _) fun _ => .throw fun _ => .inl rfl
  modify h := .modify fun s => .inl (h s).2.2.2

instance (table : ScopeTable) : Obeys waning (setTable table) :=
  .modify fun _ => .inl rfl

variable {site : Site} {s t : Analysis} {value : Value} {depth : Nat}

/-! ### Visits at a site without the program -/

/-- The state is in order and the value lies at the site. -/
def Proper (site : Site) (value : Value) (s : Analysis) : Prop :=
  s.Tame site ∧ site.Has value

theorem obeys_permitting {visit : Value → Check Unit} (hvisit : ∀ value, site.Has value → Obeys (conduct site) (visit value)) :
    ∀ value, site.Has value → Obeys (conduct site) (permitting (Proper site) visit value) := by
  refine fun value hvalue => ⟨fun s => conduct.assume fun htame => ?_⟩
  rw [permitting_of ⟨htame, hvalue⟩]
  exact (hvisit value hvalue).allows s

/-- At a proper node all visits are proper. -/
theorem permitting_proper (h : Proper site value s) (hkind : s.graph.kindOf? value = some kind) :
    visitNode (permitting (Proper site) (visitWithin depth)) value kind s = visitNode (visitWithin depth) value kind s := by
  refine @permitting_eq _ _ _ (fun visit => visitNode visit value kind) _ _ _ _ fun u hmark => ?_
  have hallows := allows_visitNode (obeys_permitting (conduct_visitWithin depth)) h.2 hkind
  rw [hmark] at hallows
  exact (hallows h.1).1 rfl

/-! ### Functions -/

/-- An action that can only end in certain states. -/
class Leaves {α : Type} (good : Analysis → Prop) (x : Check α) : Prop where
  ok : ∀ s a t, x s = .ok a t → good t

section Leaves

variable {α β : Type} {good : Analysis → Prop}

instance {x : Check α} {f : α → Check β} [h : ∀ a, Leaves good (f a)] : Leaves good (x >>= f) :=
  ⟨fun _ b t hbind => by
    obtain ⟨a, u, -, hf⟩ := bind_eq_ok.1 hbind
    exact (h a).ok u b t hf⟩

instance {c : Prop} [Decidable c] {x y : Check α} [Leaves good x] [Leaves good y] :
    Leaves good (if c then x else y) := by
  split <;> infer_instance

instance (name : Value) : Leaves (fun t => t.functionType = .null) (setFunction name .null) :=
  ⟨fun _ _ _ h => by
    rw [← modify_eq_ok.1 h]⟩

end Leaves

instance (name : Value) : Obeys waning (setFunction name .null) :=
  .modify fun _ => .inr rfl

/-- Behind a function nothing is expected of returns. -/
instance (visit : Value → Check Unit) (node : Value) :
    Leaves (fun t => t.functionType = .null) (visitFunction visit node) := by
  unfold visitFunction
  infer_instance

/-- If the visits are marked, nothing but a type or no type is expected at the mark. -/
def expecting (type : Value) : Rule Analysis where
  step _ _ := True
  stop failure _ t := failure = .mark → t.functionType = type ∨ t.functionType = .null
  refl _ := trivial
  trans _ _ := trivial
  stop_of_step _ h := h
  step_of_stop _ _ := trivial

section Expecting

variable {α : Type} {type : Value}

instance (priority := low) {x : Check α} [h : Obeys reading x] : Obeys (expecting type) x := by
  refine ⟨fun s => ?_⟩
  cases hx : x s with
  | ok a t => exact trivial
  | error failure t => exact fun hmark => absurd hmark (h.stop hx).1

instance (table : ScopeTable) : Obeys (expecting type) (setTable table) :=
  .modify fun _ => trivial

instance (change : ScopeTable → Except Fault ScopeTable) [∀ table, Sane (change table)] :
    Obeys (expecting type) (changeTable change) := by
  unfold changeTable
  infer_instance

theorem expecting_of_waning {x : Check α} [h : Obeys waning x] (htype : s.functionType = type) :
    (expecting type).Allows s (x s) := by
  cases hx : x s with
  | ok a t => exact trivial
  | error failure t => exact fun _ => htype ▸ h.stop hx

/-- The statements of a function are visited only once its type is expected. -/
theorem expecting_visitFunction {visit : Value → Check Unit} [∀ value, Obeys waning (visit value)] {node : Value}
    (htype : s.graph.fieldOf? node .returnType = some type) :
    (expecting type).Allows s (visitFunction visit node s) := by
  refine Rule.Allows.bind (Obeys.allows s) fun name u hrun => ?_
  obtain ⟨-, rfl⟩ := lift_getField_eq_ok.1 hrun
  refine Rule.Allows.bind (Obeys.allows s) fun table u hrun => ?_
  obtain ⟨rfl, rfl⟩ := table_eq_ok.1 hrun
  dsimp only
  split
  case isTrue => exact Rule.Allows.bind (Obeys.allows s) fun _ u hrun => absurd hrun fail_ne_ok
  case isFalse =>
    refine Rule.Allows.bind (Obeys.allows s) fun parameters u hrun => ?_
    obtain ⟨-, rfl⟩ := lift_getField_eq_ok.1 hrun
    refine Rule.Allows.bind (Obeys.allows s) fun returnType u hrun => ?_
    obtain ⟨hreturn, rfl⟩ := lift_getField_eq_ok.1 hrun
    obtain rfl : type = returnType := Option.some.inj (htype.symm.trans hreturn)
    -- the function and its parameters are declared before its type is expected
    refine Rule.Allows.bind (Obeys.allows s) fun _ u _ => Rule.Allows.bind (Obeys.allows u) fun _ u _ => ?_
    refine Rule.Allows.bind (Obeys.allows u) fun _ u _ => Rule.Allows.bind (Obeys.allows u) fun _ u _ => ?_
    refine Rule.Allows.bind (Obeys.allows u) fun _ u _ => Rule.Allows.bind (Obeys.allows u) fun _ u _ => ?_
    refine Rule.Allows.bind trivial fun _ u hset => ?_
    rw [setFunction, modify_eq_ok] at hset
    subst hset
    exact expecting_of_waning rfl

end Expecting

/-! ### All visits -/

theorem visitWithin_eq_ok {u : Unit} : visitWithin (depth + 1) value s = .ok u t ↔
    ∃ kind, s.graph.kindOf? value = some kind ∧ visitNode (visitWithin depth) value kind s = .ok u t := by
  rw [visitWithin, bind_eq_ok]
  constructor
  · rintro ⟨graph, s', hgraph, h⟩
    obtain ⟨hsame, rfl⟩ := lift_currentGraph_eq_ok.1 hgraph
    obtain rfl : s.graph = graph := hsame
    cases hkind : s.graph.kindOf? value with
    | none =>
        rw [hkind] at h
        exact absurd h throw_ne_ok
    | some kind =>
        rw [hkind] at h
        exact ⟨kind, rfl, h⟩
  · rintro ⟨kind, hkind, h⟩
    refine ⟨s.graph, s, lift_currentGraph_eq_ok.2 ⟨rfl, rfl⟩, ?_⟩
    rw [hkind]
    exact h

/-- None of the nodes at the site is a program. -/
def IsInner (site : Site) : Prop :=
  ∀ id : Nat, site.middle ≤ id → id < site.high → (site.origin.node id).kind ≠ .program

theorem Proper.kind_ne (h : Proper site value s) (hinner : IsInner site) (hkind : s.graph.kindOf? value = some kind) :
    kind ≠ .program := by
  rintro rfl
  obtain ⟨id, rfl, hid, hprogram⟩ := h.1.holds.node_of_kind h.2 hkind rfl (by decide)
  exact hinner id hid.1 hid.2 hprogram

/-- Visits that end and keep a rule, as far as they are permitted. -/
theorem obeys_permitted (rule : Rule Analysis) {permits : Value → Analysis → Prop} {visit : Value → Check Unit}
    (hmark : ∀ s, rule.stop .mark s s)
    (hpermits : ∀ value s, permits value s → ∃ u t, visit value s = .ok u t ∧ rule.step s t) (value : Value) :
    Obeys rule (permitting permits visit value) := by
  refine ⟨fun s => ?_⟩
  by_cases h : permits value s
  · obtain ⟨u, t, hends, hstep⟩ := hpermits value s h
    rw [permitting_of h, hends]
    exact hstep
  · rw [permitting_of_not h]
    exact hmark s

theorem waning_visitWithin (hinner : IsInner site) : ∀ depth value (s t : Analysis) (u : Unit), Proper site value s →
    visitWithin depth value s = .ok u t → waning.step s t
  | 0, _, _, _, _, _, h => absurd h fail_ne_ok
  | depth + 1, value, s, t, u, hproper, h => by
      obtain ⟨kind, hkind, h⟩ := visitWithin_eq_ok.1 h
      by_cases hfunction : kind = .function
      · subst hfunction
        exact .inr ((inferInstance : Leaves (fun t => t.functionType = .null) (visitFunction _ _)).ok s u t h)
      · have hopen : Open True fun visit => visitNode visit value kind :=
          open_visitNode fun _ => hproper.kind_ne hinner hkind
        have hvisit := obeys_permitted waning (fun _ => .inl rfl) fun value s (h : Proper site value s ∧ Ends (visitWithin depth) value s) =>
          h.2.imp fun u => Exists.imp fun t hends => ⟨hends, waning_visitWithin hinner depth value s t u h.1 hends⟩
        have hends := @permitting_ends _ _ _ (fun visit => visitNode visit value kind) (visitWithin depth) (Proper site)
          s t u hopen ((permitting_proper hproper hkind).trans h)
        exact (mild_visitNode _ fun heq => absurd heq hfunction).step hends

/-! ### What is expected where -/

/-- The type that a return is expected to have below nodes, of which the innermost comes first: the one that the
innermost function returns. -/
def expectedType (graph : Graph) (above : List Value) : Value :=
  ((above.find? (graph.isKind .function)).bind fun function => graph.fieldOf? function .returnType).getD .null

/-- A value at the site is visited to the end, while nothing else is expected than what its surroundings say. -/
structure Reached (site : Site) (depth : Nat) (above : List Value) (value : Value) (s : Analysis) : Prop where
  proper : Proper site value s
  ends : Ends (visitWithin depth) value s
  expected : s.functionType = expectedType site.origin above ∨ s.functionType = .null

theorem Proper.isKind_origin (h : Proper site value s) (hlate : kind.isLate = false) (hplain : kind ≠ .plain) :
    s.graph.kindOf? value = some kind ↔ site.origin.isKind kind value := by
  constructor
  · intro hkind
    obtain ⟨id, rfl, -, hkind⟩ := h.1.holds.node_of_kind h.2 hkind hlate hplain
    rwa [Graph.isKind_node, beq_iff_eq]
  · intro hkind
    cases value with
    | node id =>
        rw [Graph.isKind_node, beq_iff_eq] at hkind
        rw [Graph.kindOf?_node, h.1.holds.derived.kind id (Graph.lt_size_of_kind (hkind ▸ hplain)), hkind]
    | _ => cases hkind

section Calls

variable {above : List Value} {node child : Value} {kind : Kind}

theorem waning_reached (hinner : IsInner site) {good : Analysis → Prop} (value : Value) :
    Obeys waning (permitting (fun value u => (Proper site value u ∧ Ends (visitWithin depth) value u) ∧ good u)
      (visitWithin depth) value) :=
  obeys_permitted waning (fun _ => .inl rfl) (fun value s h => h.1.2.imp fun u => Exists.imp fun t hends =>
    ⟨hends, waning_visitWithin hinner depth value s t u h.1.1 hends⟩) value

/-- Below a node that is visited to the end, all visits end, and they expect what their surroundings say. -/
theorem Reached.below (hinner : IsInner site) (h : Reached site (depth + 1) above node s)
    (hkind : s.graph.kindOf? node = some kind)
    (hcalls : Calls (fun visit => visitNode visit node kind) (visitWithin depth) s child t) :
    Reached site depth (node :: above) child t := by
  obtain ⟨u, s', hends⟩ := h.ends
  obtain ⟨_, hkind', hends⟩ := visitWithin_eq_ok.1 hends
  obtain rfl := Option.some.inj (hkind.symm.trans hkind')
  have hopen : Open True fun visit => visitNode visit node kind := open_visitNode fun _ => h.proper.kind_ne hinner hkind
  have hends : visitNode (permitting (Proper site) (visitWithin depth)) node kind s = .ok u s' :=
    (permitting_proper h.proper hkind).trans hends
  have hgood : ∀ u, visitNode (permitting (fun value u => (Proper site value u ∧ Ends (visitWithin depth) value u) ∧
        (u.functionType = expectedType site.origin (node :: above) ∨ u.functionType = .null)) (visitWithin depth)) node kind s =
        .error .mark u → u.functionType = expectedType site.origin (node :: above) ∨ u.functionType = .null := by
    intro u hmark
    have hvisit := @waning_reached site depth hinner fun u =>
      u.functionType = expectedType site.origin (node :: above) ∨ u.functionType = .null
    by_cases hfunction : kind = .function
    · -- a function sets its own type
      subst hfunction
      obtain ⟨id, rfl, hid, horigin⟩ := h.proper.1.holds.node_of_kind h.proper.2 hkind rfl (by decide)
      obtain ⟨formals, type, hlaid⟩ :=
        (site.wellLaid.laid id hid.lt_size (by simp [horigin])).function horigin
      have hexpected : expectedType site.origin (.node id :: above) = .text type := by
        simp [expectedType, horigin, hlaid.returnType]
      have htype : s.graph.fieldOf? (.node id) .returnType = some (.text type) := by
        rw [Graph.fieldOf?_node, h.proper.1.holds.derived.kept id _ hid.lt_size (by rw [horigin]; rfl),
          hlaid.returnType]
      have hallows := @expecting_visitFunction s (.text type) _ hvisit (.node id) htype
      rw [show visitFunction _ _ s = _ from hmark] at hallows
      rw [hexpected]
      exact hallows rfl
    · -- all other nodes leave it as it is
      have hsame : expectedType site.origin (node :: above) = expectedType site.origin above := by
        have hnot : site.origin.isKind .function node = false := by
          rw [← Bool.not_eq_true, ← h.proper.isKind_origin rfl (by decide), hkind]
          simpa using hfunction
        simp [expectedType, hnot]
      have hstop : waning.stop _ s u := (mild_visitNode _ fun heq => absurd heq hfunction).stop hmark
      rcases hstop with hkept | hnull
      · rw [hkept, hsame]
        exact h.expected
      · exact .inr hnull
  obtain ⟨hproper, hvisit, hexpected⟩ := @Calls.holds _ _ _ (fun visit => visitNode visit node kind) _ _ _ _ _ hopen _ _ _ _
    hends hgood hcalls
  exact ⟨hproper, hvisit, hexpected⟩

end Calls

end Check

end Scriptlet
