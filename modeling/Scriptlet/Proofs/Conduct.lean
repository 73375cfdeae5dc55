import Scriptlet.Proofs.Outcome

/-!
Rules of conduct: what every run of an action keeps, whether it ends or fails.

An action that is composed of obedient parts is obedient.  The instances below find the parts, so that
a proof about a rule of the grammar, of the analysis or of the generator only names what is special.
-/

namespace Scriptlet

/-- How an action may change the state when it ends, and when it fails. -/
structure Rule (σ : Type) where
  step : σ → σ → Prop
  stop : Failure → σ → σ → Prop
  refl : ∀ s, step s s
  trans : ∀ {s u t}, step s u → step u t → step s t
  stop_of_step : ∀ {failure s u t}, step s u → stop failure u t → stop failure s t
  /-- A failure that is handled leaves a state from which the action can go on. -/
  step_of_stop : ∀ {failure s t}, failure.isCaught → stop failure s t → step s t

namespace Rule

variable {σ α β : Type} {rule : Rule σ} {s : σ}

def Allows (rule : Rule σ) (s : σ) : EStateM.Result Failure σ α → Prop
  | .ok _ t => rule.step s t
  | .error failure t => rule.stop failure s t

theorem Allows.bind {x : EStateM Failure σ α} {f : α → EStateM Failure σ β}
    (hx : rule.Allows s (x s)) (hf : ∀ a u, x s = .ok a u → rule.Allows u (f a u)) :
    rule.Allows s ((x >>= f) s) := by
  show rule.Allows s (EStateM.bind x f s)
  unfold EStateM.bind
  cases h : x s with
  | error failure u =>
      rw [h] at hx
      exact hx
  | ok a u =>
      rw [h] at hx
      have hstep : rule.step s u := hx
      have hnext := hf a u h
      dsimp only
      cases h' : f a u with
      | ok b t =>
          rw [h'] at hnext
          exact rule.trans hstep hnext
      | error failure t =>
          rw [h'] at hnext
          exact rule.stop_of_step hstep hnext

theorem Allows.handling {x : EStateM Failure σ α} {handler : Failure → EStateM Failure σ α}
    (hx : rule.Allows s (x s))
    (hhandler : ∀ failure u, x s = .error failure u → rule.Allows u (handler failure u)) :
    rule.Allows s (handling x handler s) := by
  unfold Scriptlet.handling
  cases h : x s with
  | ok a u =>
      rw [h] at hx
      exact hx
  | error failure u =>
      rw [h] at hx
      dsimp only
      split
      case isFalse => exact hx
      case isTrue hcaught =>
        have hstep := rule.step_of_stop hcaught hx
        have hnext := hhandler failure u h
        cases h' : handler failure u with
        | ok b t =>
            rw [h'] at hnext
            exact rule.trans hstep hnext
        | error again t =>
            rw [h'] at hnext
            exact rule.stop_of_step hstep hnext

end Rule

/-- Every run of the action keeps the rule. -/
class Obeys {σ α : Type} (rule : Rule σ) (x : EStateM Failure σ α) : Prop where
  allows : ∀ s, rule.Allows s (x s)

namespace Obeys

variable {σ α β : Type} {rule : Rule σ} {s t : σ}
variable {x : EStateM Failure σ α} {state : β}

theorem step [h : Obeys rule x] {a : α} (hx : x s = .ok a t) : rule.step s t := by
  have hallows := h.allows s
  rwa [hx] at hallows

theorem stop [h : Obeys rule x] {failure : Failure} (hx : x s = .error failure t) : rule.stop failure s t := by
  have hallows := h.allows s
  rwa [hx] at hallows

theorem bind {f : α → EStateM Failure σ β} (hx : Obeys rule x) (hf : ∀ a, Obeys rule (f a)) : Obeys rule (x >>= f) :=
  ⟨fun s => (hx.allows s).bind fun a u _ => (hf a).allows u⟩

instance {f : α → EStateM Failure σ β} [hx : Obeys rule x] [hf : ∀ a, Obeys rule (f a)] : Obeys rule (x >>= f) :=
  bind hx hf

instance (a : α) : Obeys rule (pure a : EStateM Failure σ α) :=
  ⟨fun s => rule.refl s⟩

instance : Obeys rule (get : EStateM Failure σ σ) :=
  ⟨fun s => rule.refl s⟩

theorem modify {change : σ → σ} (h : ∀ s, rule.step s (change s)) :
    Obeys rule (modify change : EStateM Failure σ PUnit) :=
  ⟨h⟩

theorem modifyGet {change : σ → α × σ} (h : ∀ s, rule.step s (change s).2) :
    Obeys rule (modifyGet change : EStateM Failure σ α) :=
  ⟨h⟩

theorem throw {failure : Failure} (h : ∀ s, rule.stop failure s s) :
    Obeys rule (throw failure : EStateM Failure σ α) :=
  ⟨h⟩

instance {f : α → β} [h : Obeys rule x] : Obeys rule (f <$> x) := by
  refine ⟨fun s => ?_⟩
  have hallows := h.allows s
  show rule.Allows s (EStateM.map f x s)
  unfold EStateM.map
  cases hx : x s <;> rwa [hx] at hallows

instance {c : Prop} [Decidable c] {y : EStateM Failure σ α} [Obeys rule x] [Obeys rule y] :
    Obeys rule (if c then x else y) := by
  split <;> infer_instance

instance {handler : Failure → EStateM Failure σ α} [hx : Obeys rule x]
    [hhandler : ∀ failure, Obeys rule (handler failure)] : Obeys rule (handling x handler) :=
  ⟨fun s => (hx.allows s).handling fun failure u _ => (hhandler failure).allows u⟩

instance [Obeys rule x] : Obeys rule (attempt x) := by
  unfold attempt
  infer_instance

/-! ### Loops over lists -/

theorem forIn_mem {γ : Type} {body : γ → β → EStateM Failure σ (ForInStep β)} {items : List γ}
    (hbody : ∀ item ∈ items, ∀ state, Obeys rule (body item state)) : Obeys rule (ForIn.forIn items state body) := by
  induction items generalizing state with
  | nil =>
      rw [List.forIn_nil]
      infer_instance
  | cons item rest ih =>
      rw [List.forIn_cons]
      refine bind (hbody item List.mem_cons_self state) fun outcome => ?_
      cases outcome with
      | done result => infer_instance
      | yield result => exact ih fun other hother => hbody other (List.mem_cons_of_mem item hother)

theorem forIn {γ : Type} {body : γ → β → EStateM Failure σ (ForInStep β)}
    (hbody : ∀ item state, Obeys rule (body item state)) {items : List γ} : Obeys rule (ForIn.forIn items state body) :=
  forIn_mem fun item _ state => hbody item state

instance {γ : Type} {body : γ → β → EStateM Failure σ (ForInStep β)}
    [hbody : ∀ item state, Obeys rule (body item state)] {items : List γ} : Obeys rule (ForIn.forIn items state body) :=
  forIn hbody

instance {γ : Type} {action : γ → EStateM Failure σ β} [haction : ∀ item, Obeys rule (action item)]
    {items : List γ} : Obeys rule (items.mapM action) := by
  induction items with
  | nil =>
      rw [List.mapM_nil]
      infer_instance
  | cons item rest ih =>
      rw [List.mapM_cons]
      infer_instance

instance {γ : Type} {action : β → γ → EStateM Failure σ β} [haction : ∀ state item, Obeys rule (action state item)]
    {items : List γ} : Obeys rule (items.foldlM action state) := by
  induction items generalizing state with
  | nil => exact inferInstanceAs (Obeys rule (pure state))
  | cons item rest ih =>
      rw [List.foldlM_cons]
      infer_instance

end Obeys

end Scriptlet
