import Scriptlet.Proofs.Conduct

/-!
The visits of a stage: which nodes it comes to, and in which states.

The rules of a stage are open: what is done at a node depends on how the nodes below are visited.  So a
visit can be singled out by letting this one visit fail in a way that no handler sees; it takes place if
the rule then fails this way.
-/

namespace Scriptlet

/-- The failure that marks a visit. -/
def Failure.mark : Failure :=
  .fault .outOfSteps

section Marks

variable {σ α β : Type}

open Classical in
/-- Visits as before, but a visit that is not permitted ends the run. -/
noncomputable def permitting (permits : Value → σ → Prop) (visit : Value → EStateM Failure σ α) :
    Value → EStateM Failure σ α :=
  fun value s => if permits value s then visit value s else .error .mark s

theorem permitting_of {permits : Value → σ → Prop} {visit : Value → EStateM Failure σ α} {value : Value} {s : σ}
    (h : permits value s) : permitting permits visit value s = visit value s :=
  if_pos h

theorem permitting_of_not {permits : Value → σ → Prop} {visit : Value → EStateM Failure σ α} {value : Value}
    {s : σ} (h : ¬ permits value s) : permitting permits visit value s = .error .mark s :=
  if_neg h

/-- An action comes to visit a value in a state. -/
def Calls (action : (Value → EStateM Failure σ α) → EStateM Failure σ β) (visit : Value → EStateM Failure σ α)
    (s : σ) (value : Value) (t : σ) : Prop :=
  action (permitting (fun other u => ¬ (other = value ∧ u = t)) visit) s = .error .mark t

/-- What a stage does at a node of a given kind. -/
abbrev Stage (σ α : Type) :=
  (Value → EStateM Failure σ α) → Value → Kind → EStateM Failure σ α

/-- The visits of a stage that starts at a root: the depth that is left, the nodes whose visits are under
way, innermost first, the node that is visited, and the state in which its visit begins. -/
inductive Visits [Carries σ] (stage : Stage σ α) (within : Nat → Value → EStateM Failure σ α) (limit : Nat)
    (root : Value) (start : σ) : Nat → List Value → Value → σ → Prop
  | root : Visits stage within limit root start limit [] root start
  | inside {depth : Nat} {above : List Value} {node child : Value} {kind : Kind} {s t : σ} :
      Visits stage within limit root start (depth + 1) above node s →
      (Carries.draft s).graph.kindOf? node = some kind →
      Calls (fun visit => stage visit node kind) (within depth) s child t →
      Visits stage within limit root start depth (node :: above) child t

/-! ### An action with marks beside the action without -/

/-- The first action does the same as the second, or it is stopped by a mark.  If it is followed firmly,
the second one fails then. -/
class Shadows (halts : σ → Prop) (firm : Prop) (x y : EStateM Failure σ α) : Prop where
  shadows : ∀ s, x s = y s ∨
    ∃ t, halts t ∧ x s = .error .mark t ∧ (firm → ∃ failure u, y s = .error failure u)

namespace Shadows

variable {halts : σ → Prop} {firm : Prop}
variable {x y : EStateM Failure σ α}

instance (priority := high) refl (x : EStateM Failure σ α) : Shadows halts firm x x :=
  ⟨fun _ => .inl rfl⟩

theorem bind {f g : α → EStateM Failure σ β} (hx : Shadows halts firm x y) (hf : ∀ a, Shadows halts firm (f a) (g a)) :
    Shadows halts firm (x >>= f) (y >>= g) := by
  refine ⟨fun s => ?_⟩
  show EStateM.bind x f s = EStateM.bind y g s ∨ ∃ t, halts t ∧ EStateM.bind x f s = _ ∧
    (firm → ∃ failure u, EStateM.bind y g s = _)
  unfold EStateM.bind
  rcases hx.shadows s with hsame | ⟨t, ht, hmark, hfirm⟩
  · rw [hsame]
    cases y s with
    | ok a u => exact (hf a).shadows u
    | error failure u => exact .inl rfl
  · refine .inr ⟨t, ht, by rw [hmark], fun h => ?_⟩
    obtain ⟨failure, u, hy⟩ := hfirm h
    exact ⟨failure, u, by rw [hy]⟩

instance {f g : α → EStateM Failure σ β} [hx : Shadows halts firm x y] [hf : ∀ a, Shadows halts firm (f a) (g a)] :
    Shadows halts firm (x >>= f) (y >>= g) :=
  bind hx hf

instance {f : α → β} [hx : Shadows halts firm x y] : Shadows halts firm (f <$> x) (f <$> y) := by
  refine ⟨fun s => ?_⟩
  show EStateM.map f x s = EStateM.map f y s ∨ ∃ t, halts t ∧ EStateM.map f x s = _ ∧
    (firm → ∃ failure u, EStateM.map f y s = _)
  unfold EStateM.map
  rcases hx.shadows s with hsame | ⟨t, ht, hmark, hfirm⟩
  · exact .inl (by rw [hsame])
  · refine .inr ⟨t, ht, by rw [hmark], fun h => ?_⟩
    obtain ⟨failure, u, hy⟩ := hfirm h
    exact ⟨failure, u, by rw [hy]⟩

instance {c : Prop} [Decidable c] {x' y' : EStateM Failure σ α} [Shadows halts firm x x'] [Shadows halts firm y y'] :
    Shadows halts firm (if c then x else y) (if c then x' else y') := by
  split <;> infer_instance

/-- A handler does not see the mark, but it may see the failure that it stands for. -/
instance {handler : Failure → EStateM Failure σ α} [hx : Shadows halts False x y] :
    Shadows halts False (handling x handler) (handling y handler) := by
  refine ⟨fun s => ?_⟩
  unfold handling
  rcases hx.shadows s with hsame | ⟨t, ht, hmark, -⟩
  · exact .inl (by rw [hsame])
  · exact .inr ⟨t, ht, by rw [hmark]; rfl, False.elim⟩

instance [Shadows halts False x y] : Shadows halts False (attempt x) (attempt y) := by
  unfold attempt
  infer_instance

theorem forIn {γ : Type} {body body' : γ → β → EStateM Failure σ (ForInStep β)}
    (hbody : ∀ item state, Shadows halts firm (body item state) (body' item state)) {items : List γ} {state : β} :
    Shadows halts firm (ForIn.forIn items state body) (ForIn.forIn items state body') := by
  induction items generalizing state with
  | nil =>
      rw [List.forIn_nil, List.forIn_nil]
      infer_instance
  | cons item rest ih =>
      rw [List.forIn_cons, List.forIn_cons]
      refine bind (hbody item state) fun outcome => ?_
      cases outcome with
      | done result => infer_instance
      | yield result => exact ih

instance {γ : Type} {body body' : γ → β → EStateM Failure σ (ForInStep β)}
    [hbody : ∀ item state, Shadows halts firm (body item state) (body' item state)] {items : List γ} {state : β} :
    Shadows halts firm (ForIn.forIn items state body) (ForIn.forIn items state body') :=
  forIn hbody

end Shadows

/-- An action that does with its visits nothing but carry them out: with some of them ruled out, it does
the same as before, or it is stopped. -/
class Open (firm : Prop) (action : (Value → EStateM Failure σ α) → EStateM Failure σ β) : Prop where
  shadows : ∀ (halts : σ → Prop) (visit visit' : Value → EStateM Failure σ α),
    (∀ value, Shadows halts firm (visit value) (visit' value)) → Shadows halts firm (action visit) (action visit')

section Visited

variable {action : (Value → EStateM Failure σ α) → EStateM Failure σ β} {visit : Value → EStateM Failure σ α}
  {s t : σ} {value : Value}

/-- What is permitted wherever the action is not stopped holds of all visits. -/
theorem Calls.permitted [h : Open False action] {permits : Value → σ → Prop}
    (hruns : ∀ u, action (permitting permits visit) s ≠ .error .mark u) (hcalls : Calls action visit s value t) :
    permits value t := by
  by_contra hnot
  have hshadows := h.shadows (fun _ => True) (permitting permits visit)
    (permitting (fun other u => ¬ (other = value ∧ u = t)) visit) fun other => ⟨fun u => ?_⟩
  · rcases hshadows.shadows s with hsame | ⟨u, -, hmark, -⟩
    · exact hruns t (hsame.trans hcalls)
    · exact hruns u hmark
  · by_cases hpermits : permits other u
    · refine .inl ?_
      rw [permitting_of hpermits, permitting_of]
      rintro ⟨rfl, rfl⟩
      exact hnot hpermits
    · exact .inr ⟨u, trivial, permitting_of_not hpermits, False.elim⟩

end Visited

end Marks

end Scriptlet
