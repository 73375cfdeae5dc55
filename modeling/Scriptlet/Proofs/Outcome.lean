import Scriptlet.CodeGen.Statement
import Scriptlet.Analysis.Visit
import Scriptlet.Grammar.Statement
import Mathlib.Tactic.Common

/-!
When an action succeeds, and with what.

Every stage is a state machine that can fail.  The lemmas here take a successful run of a composed
action apart into the successful runs of its parts, so that no later proof opens the monad.
-/

namespace Scriptlet

section Parts

variable {σ α β : Type} {s t : σ}
variable {a : α} {x : EStateM Failure σ α} {failure : Failure} {b : β}

@[simp] theorem bind_eq_ok {f : α → EStateM Failure σ β} :
    (x >>= f) s = .ok b t ↔ ∃ a u, x s = .ok a u ∧ f a u = .ok b t := by
  show EStateM.bind x f s = _ ↔ _
  unfold EStateM.bind
  cases x s with
  | ok a u => simp [and_assoc]
  | error failure u => simp

@[simp] theorem map_eq_ok {f : α → β} : (f <$> x) s = .ok b t ↔ ∃ a, x s = .ok a t ∧ f a = b := by
  show EStateM.map f x s = _ ↔ _
  unfold EStateM.map
  cases x s with
  | ok a u => simp [and_assoc, and_comm]
  | error failure u => simp

@[simp] theorem pure_eq_ok {b : α} : (pure a : EStateM Failure σ α) s = .ok b t ↔ a = b ∧ s = t := by
  show EStateM.Result.ok a s = _ ↔ _
  simp

@[simp] theorem get_eq_ok {u : σ} :
    (get : EStateM Failure σ σ) s = .ok u t ↔ s = u ∧ s = t := by
  show EStateM.Result.ok s s = _ ↔ _
  simp

@[simp] theorem modify_eq_ok {f : σ → σ} {u : PUnit} :
    (modify f : EStateM Failure σ PUnit) s = .ok u t ↔ f s = t := by
  show EStateM.Result.ok PUnit.unit (f s) = _ ↔ _
  simp

@[simp] theorem modifyGet_eq_ok {f : σ → α × σ} :
    (modifyGet f : EStateM Failure σ α) s = .ok a t ↔ (f s).1 = a ∧ (f s).2 = t := by
  show EStateM.Result.ok (f s).1 (f s).2 = _ ↔ _
  simp

@[simp] theorem throw_ne_ok : ¬ (throw failure : EStateM Failure σ α) s = .ok a t := by
  show ¬ EStateM.Result.error failure s = _
  simp

@[simp] theorem fail_ne_ok {fault : Fault} : ¬ (fail fault : EStateM Failure σ α) s = .ok a t := by
  simp [fail]

@[simp] theorem orFail_eq_ok {x : Except Fault α} :
    (orFail x : EStateM Failure σ α) s = .ok a t ↔ x = .ok a ∧ s = t := by
  cases x <;> simp [orFail]

/-- An action that is done only if a condition does not hold, and what comes after it. -/
theorem unless_eq_ok {c : Bool} {x : EStateM Failure σ PUnit} {next : EStateM Failure σ β} :
    (if c = true then next else x >>= fun _ => next) s = .ok b t ↔
      ∃ u, (if c = true then s = u else x s = .ok ⟨⟩ u) ∧ next u = .ok b t := by
  cases c with
  | true => simp
  | false =>
      simp only [Bool.false_eq_true, if_false, bind_eq_ok]
      exact ⟨fun ⟨_, u, hx, hnext⟩ => ⟨u, hx, hnext⟩, fun ⟨u, hx, hnext⟩ => ⟨_, u, hx, hnext⟩⟩

theorem handling_eq_ok {handler : Failure → EStateM Failure σ α} :
    handling x handler s = .ok a t ↔
      x s = .ok a t ∨ ∃ failure u, x s = .error failure u ∧ failure.isCaught ∧
        handler failure u = .ok a t := by
  unfold handling
  cases hx : x s with
  | ok b u => simp
  | error failure u =>
      by_cases hcaught : failure.isCaught = true <;> simp [and_assoc, hcaught]

theorem attempt_eq_ok {outcome : Except Failure α} :
    attempt x s = .ok outcome t ↔
      (∃ a, x s = .ok a t ∧ outcome = .ok a) ∨
        ∃ failure, x s = .error failure t ∧ failure.isCaught ∧ outcome = .error failure := by
  unfold attempt
  rw [handling_eq_ok]
  have herror : ∀ failure u, (Except.ok (ε := Failure) <$> x) s = .error failure u ↔
      x s = .error failure u := by
    intro failure u
    show EStateM.map _ x s = _ ↔ _
    unfold EStateM.map
    cases x s <;> simp
  simp only [herror, map_eq_ok, pure_eq_ok, eq_comm (a := outcome)]
  constructor
  · rintro (h | ⟨failure, u, h, hcaught, houtcome, rfl⟩)
    · exact Or.inl h
    · exact Or.inr ⟨failure, h, hcaught, houtcome⟩
  · rintro (h | ⟨failure, h, hcaught, houtcome⟩)
    · exact Or.inl h
    · exact Or.inr ⟨failure, t, h, hcaught, houtcome, rfl⟩

theorem bind_eq_error {f : α → EStateM Failure σ β} :
    (x >>= f) s = .error failure t ↔ x s = .error failure t ∨ ∃ a u, x s = .ok a u ∧ f a u = .error failure t := by
  show EStateM.bind x f s = _ ↔ _
  unfold EStateM.bind
  cases x s <;> simp [and_assoc]

theorem attempt_eq_error : attempt x s = .error failure t ↔ x s = .error failure t ∧ failure.isCaught = false := by
  unfold attempt handling
  cases hx : x s with
  | ok a u =>
      rw [show (Except.ok (ε := Failure) <$> x) s = .ok (.ok a) u from map_eq_ok.2 ⟨a, hx, rfl⟩]
      simp
  | error other u =>
      have hmap : (Except.ok (ε := Failure) <$> x) s = .error other u := by
        show EStateM.map _ x s = _
        unfold EStateM.map
        rw [hx]
      rw [hmap]
      by_cases hcaught : other.isCaught = true
      · simp only [hcaught, if_true]
        constructor
        · exact nofun
        · rintro ⟨heq, hnot⟩
          cases heq
          exact absurd (hcaught.symm.trans hnot) (by decide)
      · simp only [hcaught]
        constructor
        · intro heq
          cases heq
          exact ⟨rfl, by simpa using hcaught⟩
        · rintro ⟨heq, -⟩
          cases heq
          rfl

end Parts

/-! ### Work on a draft inside a larger state -/

/-- The draft that is put into a state is the one found there, and nothing else changes. -/
class LawfulCarries (σ : Type) [Carries σ] : Prop where
  draft_withDraft : ∀ (state : σ) (draft : Draft), Carries.draft (Carries.withDraft state draft) = draft
  withDraft_draft : ∀ state : σ, Carries.withDraft state (Carries.draft state) = state
  withDraft_withDraft : ∀ (state : σ) (draft later : Draft),
    Carries.withDraft (Carries.withDraft state draft) later = Carries.withDraft state later

instance : LawfulCarries Generation := ⟨fun _ _ => rfl, fun _ => rfl, fun _ _ _ => rfl⟩
instance : LawfulCarries Analysis := ⟨fun _ _ => rfl, fun _ => rfl, fun _ _ _ => rfl⟩
instance : LawfulCarries Cursor := ⟨fun _ _ => rfl, fun _ => rfl, fun _ _ _ => rfl⟩

section Lifted

variable {σ α : Type} [Carries σ] {s t : σ}
variable {a : α} {x : Draft.Action α}

theorem lift_eq_ok :
    (liftM x : EStateM Failure σ α) s = .ok a t ↔
      ∃ draft, x (Carries.draft s) = .ok a draft ∧ Carries.withDraft s draft = t := by
  show Draft.onDraft x s = _ ↔ _
  unfold Draft.onDraft
  cases x (Carries.draft s) <;> simp [and_assoc]

theorem lift_eq_error {failure : Failure} :
    (liftM x : EStateM Failure σ α) s = .error failure t ↔
      ∃ draft, x (Carries.draft s) = .error failure draft ∧ Carries.withDraft s draft = t := by
  show Draft.onDraft x s = _ ↔ _
  unfold Draft.onDraft
  cases x (Carries.draft s) <;> simp [and_assoc]

theorem lift_writer_eq_ok {x : Journal.Writer α} :
    (liftM (liftM x : Draft.Action α) : EStateM Failure σ α) s = .ok a t ↔
      ∃ journal, x (Carries.draft s).journal = .ok a journal ∧
        Carries.withDraft s { Carries.draft s with journal } = t := by
  show Draft.onDraft (Draft.onJournal x) s = _ ↔ _
  unfold Draft.onDraft Draft.onJournal
  cases x (Carries.draft s).journal <;> simp [and_assoc]

theorem lift_writer_eq_error {x : Journal.Writer α} {failure : Failure} :
    (liftM (liftM x : Draft.Action α) : EStateM Failure σ α) s = .error failure t ↔
      ∃ journal, x (Carries.draft s).journal = .error failure journal ∧
        Carries.withDraft s { Carries.draft s with journal } = t := by
  show Draft.onDraft (Draft.onJournal x) s = _ ↔ _
  unfold Draft.onDraft Draft.onJournal
  cases x (Carries.draft s).journal <;> simp [and_assoc]

/-- An action that only reads a draft leaves the state around it as it is. -/
theorem lift_eq_ok_of_reads [LawfulCarries σ] {P : Draft → α → Prop}
    (hreads : ∀ draft a' draft', x draft = .ok a' draft' ↔ P draft a' ∧ draft = draft') :
    (liftM x : EStateM Failure σ α) s = .ok a t ↔ P (Carries.draft s) a ∧ s = t := by
  simp only [lift_eq_ok, hreads]
  constructor
  · rintro ⟨_, ⟨h, rfl⟩, rfl⟩
    exact ⟨h, (LawfulCarries.withDraft_draft s).symm⟩
  · rintro ⟨h, rfl⟩
    exact ⟨_, ⟨h, rfl⟩, LawfulCarries.withDraft_draft s⟩

end Lifted

end Scriptlet
