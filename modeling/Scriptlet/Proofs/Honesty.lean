import Scriptlet.Proofs.Check.Mild
import Scriptlet.Proofs.Emit.Mild

/-!
Giving up is honest: the analysis and the generator leave off without another word only after an error
has been announced.
-/

set_option synthInstance.maxSize 1000000

namespace Scriptlet

namespace Journal

/-- Marks of errors stay.  Giving up is allowed or not. -/
def flagging (mayExit : Bool) : Rule Journal where
  step before after := before.flagged = true → after.flagged = true
  stop failure before after := (before.flagged = true → after.flagged = true) ∧ (failure = .exit → mayExit = true)
  refl _ h := h
  trans h h' hflagged := h' (h hflagged)
  stop_of_step h h' := ⟨fun hflagged => h'.1 (h hflagged), h'.2⟩
  step_of_stop _ h := h.1

section Flagging

variable {mayExit : Bool}

instance (failure : Failure) : Obeys (flagging true) (throw failure : Writer Unit) :=
  .throw fun _ => ⟨fun h => h, fun _ => rfl⟩

instance (text : String) : Obeys (flagging mayExit) (printLine text) :=
  .modify fun _ h => h

instance (message : String) : Obeys (flagging mayExit) (record message) := by
  have hfull : Obeys (flagging mayExit) (throw .runaway : Writer Unit) := .throw fun _ => ⟨fun h => h, by simp⟩
  have hpush : Obeys (flagging mayExit)
      (modify fun journal => { journal with messages := journal.messages.push message } : Writer PUnit) :=
    .modify fun _ h => h
  unfold record
  infer_instance

instance (report : Report) : Obeys (flagging mayExit) (Journal.report report) := by
  have hflag : Obeys (flagging mayExit) (modify flag : Writer PUnit) := .modify fun _ _ => rfl
  unfold Journal.report
  infer_instance

instance (name wording : String) (exits : Bool) (line : Scalar) :
    Obeys (flagging true) (announceAs name wording exits line) := by
  unfold announceAs
  infer_instance

/-- An announcement leaves the mark of an error, however it ends. -/
theorem flagged_announce (failure : Failure) (exits : Bool) (line : Scalar) (journal : Journal) :
    (flagging true).Allows journal.flag (announce failure exits line journal) := by
  cases failure with
  | complaint c => exact (inferInstance : Obeys (flagging true) (announceAs c.kind.name c.wording exits line)).allows _
  | exit => exact (inferInstance : Obeys (flagging true) (announceAs _ _ exits line)).allows _
  | runaway => exact (inferInstance : Obeys (flagging true) (throw .runaway : Writer Unit)).allows _
  | fault f => exact (inferInstance : Obeys (flagging true) (throw (.fault f) : Writer Unit)).allows _

end Flagging

end Journal

/-! ### The rule -/

def isFlagged {σ : Type} [Carries σ] (s : σ) : Bool :=
  (Carries.draft s).journal.flagged

/-- Marks of errors stay, and who gives up has left one. -/
def honest {σ : Type} [Carries σ] : Rule σ where
  step s t := isFlagged s = true → isFlagged t = true
  stop failure s t := (isFlagged s = true → isFlagged t = true) ∧ (failure = .exit → isFlagged t = true)
  refl _ h := h
  trans h h' hflagged := h' (h hflagged)
  stop_of_step h h' := ⟨fun hflagged => h'.1 (h hflagged), h'.2⟩
  step_of_stop _ h := h.1

section Honest

variable {σ α : Type} [Carries σ] [LawfulCarries σ]
variable {x : EStateM Failure σ α}

instance : Rule.IsLenient (honest : Rule σ) where
  step_withDraft s draft hagrees hflagged := by
    rw [isFlagged, LawfulCarries.draft_withDraft, hagrees.flagged]
    exact hflagged
  stop_withDraft failure s draft hagrees hordinary := by
    refine ⟨fun hflagged => ?_, fun hexit => ?_⟩
    · rw [isFlagged, LawfulCarries.draft_withDraft, hagrees.flagged]
      exact hflagged
    · subst hexit
      simp [Failure.isOrdinary] at hordinary

omit [LawfulCarries σ] in
instance (fault : Fault) : Obeys honest (fail fault : EStateM Failure σ α) :=
  .throw fun _ => ⟨fun h => h, by simp⟩

omit [LawfulCarries σ] in
/-- An action that announces an error, however it ends. -/
class Flags (x : EStateM Failure σ α) : Prop where
  ok : ∀ s a t, x s = .ok a t → isFlagged t = true
  error : ∀ s failure t, x s = .error failure t → isFlagged t = true

theorem isFlagged_withJournal (s : σ) (journal : Journal) :
    isFlagged (Carries.withDraft s { Carries.draft s with journal }) = journal.flagged := by
  rw [isFlagged, LawfulCarries.draft_withDraft]

instance (failure : Failure) (exits : Bool) (line : Scalar) :
    Flags (liftM (liftM (Journal.announce failure exits line) : Draft.Action Unit) : EStateM Failure σ Unit) := by
  refine ⟨fun s u t h => ?_, fun s last t h => ?_⟩
  · obtain ⟨journal, hannounce, rfl⟩ := lift_writer_eq_ok.1 h
    have hstep := Journal.flagged_announce failure exits line (Carries.draft s).journal
    rw [hannounce] at hstep
    exact (isFlagged_withJournal s journal).trans (hstep rfl)
  · obtain ⟨journal, hannounce, rfl⟩ := lift_writer_eq_error.1 h
    have hstop := Journal.flagged_announce failure exits line (Carries.draft s).journal
    rw [hannounce] at hstop
    exact (isFlagged_withJournal s journal).trans (hstop.1 rfl)

instance (x : Journal.Writer α) [hx : Obeys (Journal.flagging false) x] :
    Obeys honest (liftM (liftM x : Draft.Action α) : EStateM Failure σ α) := by
  refine ⟨fun s => ?_⟩
  cases h : (liftM (liftM x : Draft.Action α) : EStateM Failure σ α) s with
  | ok a t =>
      obtain ⟨journal, hjournal, rfl⟩ := lift_writer_eq_ok.1 h
      exact fun hflagged => (isFlagged_withJournal s journal).trans (hx.step hjournal hflagged)
  | error failure t =>
      obtain ⟨journal, hjournal, rfl⟩ := lift_writer_eq_error.1 h
      obtain ⟨hkept, hexit⟩ := hx.stop hjournal
      exact ⟨fun hflagged => (isFlagged_withJournal s journal).trans (hkept hflagged),
        fun hfailure => absurd (hexit hfailure) Bool.false_ne_true⟩

omit [LawfulCarries σ] in
instance [h : Flags x] : Obeys honest x := by
  refine ⟨fun s => ?_⟩
  cases hx : x s with
  | ok a t => exact fun _ => h.ok s a t hx
  | error failure t => exact ⟨fun _ => h.error s failure t hx, fun _ => h.error s failure t hx⟩

omit [LawfulCarries σ] in
theorem honest_exit {x : EStateM Failure σ Unit} (h : Flags x) :
    Obeys honest (do x; throw .exit : EStateM Failure σ α) := by
  refine ⟨fun s => Rule.Allows.bind (Obeys.allows s) fun u t hx => ?_⟩
  exact ⟨fun hflagged => hflagged, fun _ => h.ok s u t hx⟩

omit [LawfulCarries σ] in
/-- An action that was given up has left the mark of an error. -/
theorem not_exit_of_clean [Obeys honest x] {s t : σ} (hclean : isFlagged t = false) : ¬ x s = .error .exit t := by
  intro h
  rw [((inferInstance : Obeys honest x).stop h).2 rfl] at hclean
  cases hclean

omit [LawfulCarries σ] in
/-- What ends without the mark of an error has started without one. -/
theorem clean_of_clean [Obeys honest x] {s t : σ} {result : α} (h : x s = .ok result t) (hclean : isFlagged t = false) :
    isFlagged s = false := by
  by_contra hflagged
  rw [(inferInstance : Obeys honest x).step h (by simpa using hflagged)] at hclean
  cases hclean

end Honest

namespace Check

instance : Mild (honest : Rule Analysis) where
  announce _ _ _ := inferInstance
  refuse _ _ _ := honest_exit inferInstance
  modify h := .modify fun s hflagged => by
    rw [isFlagged, show Carries.draft _ = _ from (h s).1]
    exact hflagged

instance (table : ScopeTable) : Obeys honest (setTable table) :=
  .modify fun _ h => h

instance (name type : Value) : Obeys honest (setFunction name type) :=
  .modify fun _ h => h

end Check

namespace Emit

instance : Mild (honest : Rule Generation) where
  step_draft _ _ _ hagrees hflagged := hagrees.flagged.trans hflagged
  stop_draft failure _ _ hordinary _ hagrees := by
    refine ⟨fun hflagged => hagrees.flagged.trans hflagged, ?_⟩
    rintro rfl
    simp [Failure.isOrdinary] at hordinary
  step hdraft _ hflagged := by
    rw [isFlagged, show Carries.draft _ = _ from hdraft]
    exact hflagged
  fail _ := inferInstance
  report _ := inferInstance
  refuse _ := honest_exit inferInstance

instance (change : ScopeTable → Except Fault ScopeTable) : Obeys honest (changeTable change) := by
  have htable : ∀ table, Obeys honest (modify fun generation => { generation with table } : Emit PUnit) :=
    fun _ => .modify fun _ h => h
  unfold changeTable
  infer_instance

end Emit

end Scriptlet
