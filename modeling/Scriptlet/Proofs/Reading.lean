import Scriptlet.Proofs.Quiet
import Scriptlet.Proofs.Visits

/-!
Reading: actions that look at a draft and change nothing but its journal, and that are not stopped by
the mark of a visit.
-/

namespace Scriptlet

theorem Failure.ne_mark_of_isOrdinary {failure : Failure} (h : failure.isOrdinary) : failure ≠ .mark := by
  rintro rfl
  simp [Failure.isOrdinary, Failure.mark] at h

/-- Nothing but the journal changes. -/
def reading {σ : Type} [Carries σ] [LawfulCarries σ] : Rule σ where
  step s t := ∃ journal, t = Carries.withDraft s { Carries.draft s with journal }
  stop failure s t := failure ≠ .mark ∧ ∃ journal, t = Carries.withDraft s { Carries.draft s with journal }
  refl s := ⟨(Carries.draft s).journal, (LawfulCarries.withDraft_draft s).symm⟩
  trans := by
    rintro s _ _ ⟨journal, rfl⟩ ⟨later, rfl⟩
    refine ⟨later, ?_⟩
    rw [LawfulCarries.draft_withDraft, LawfulCarries.withDraft_withDraft]
  stop_of_step := by
    rintro failure s _ _ ⟨journal, rfl⟩ ⟨hmark, later, rfl⟩
    refine ⟨hmark, later, ?_⟩
    rw [LawfulCarries.draft_withDraft, LawfulCarries.withDraft_withDraft]
  step_of_stop _ h := h.2

section Rules

variable {σ α : Type} [Carries σ] [LawfulCarries σ]

theorem reading.graph {s t : σ} (h : reading.step s t) : (Carries.draft t).graph = (Carries.draft s).graph := by
  obtain ⟨journal, rfl⟩ := h
  rw [LawfulCarries.draft_withDraft]

theorem reading.throw {failure : Failure} (h : failure ≠ .mark) :
    Obeys reading (throw failure : EStateM Failure σ α) :=
  .throw fun s => ⟨h, reading.refl s⟩

instance : (reading : Rule σ).IsPatient :=
  ⟨fun s h => ⟨Failure.ne_mark_of_isOrdinary h, reading.refl s⟩⟩

instance : Obeys reading (throw .exit : EStateM Failure σ α) :=
  reading.throw (by simp [Failure.mark])

/-- What is written into the journal does not touch the rest. -/
theorem reading.writer {x : Journal.Writer α} (h : ∀ journal failure later, x journal = .error failure later →
    failure ≠ .mark) : Obeys reading (liftM (liftM x : Draft.Action α) : EStateM Failure σ α) := by
  refine ⟨fun s => ?_⟩
  cases hx : (liftM (liftM x : Draft.Action α) : EStateM Failure σ α) s with
  | ok a t =>
      obtain ⟨journal, -, rfl⟩ := lift_writer_eq_ok.1 hx
      exact ⟨journal, rfl⟩
  | error failure t =>
      obtain ⟨journal, hwriter, rfl⟩ := lift_writer_eq_error.1 hx
      exact ⟨h _ _ _ hwriter, journal, rfl⟩

end Rules

end Scriptlet
