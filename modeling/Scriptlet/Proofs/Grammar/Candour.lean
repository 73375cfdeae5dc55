import Scriptlet.Proofs.Grammar.Rounds

/-!
Reading is given up only after a message.

A message about the text also marks an error, and both stay.  A token is missing only where a message was
issued about a character that starts none.  The grammar looks for the next landmark only when it has
complained, and so it gives up at the end of the text with a message behind it.
-/

set_option synthInstance.maxSize 1000000

namespace Scriptlet

namespace Journal

variable {message text : String} {before after journal : Journal} {u : Unit} {entry : Report}

/-- There is a message, and the mark of an error. -/
def IsAlarmed (journal : Journal) : Prop :=
  journal.flagged = true ∧ journal.messages ≠ #[]

/-- Alarms stay, and whatever is said is an alarm. -/
structure Warns (before after : Journal) : Prop where
  alarm : before.IsAlarmed → after.IsAlarmed
  told : after.messages = before.messages ∨ after.IsAlarmed

theorem Warns.refl (journal : Journal) : journal.Warns journal :=
  ⟨id, .inl rfl⟩

theorem Warns.trans {middle : Journal} (h : before.Warns middle) (h' : middle.Warns after) : before.Warns after := by
  refine ⟨h'.alarm ∘ h.alarm, ?_⟩
  rcases h'.told with hsame | halarm
  · rw [hsame]
    exact h.told.imp_right h'.alarm
  · exact .inr halarm

/-- Alarms stay, nothing is given up, and only a full journal ends the reading. -/
def alarming : Rule Journal where
  step := Warns
  stop failure before after := before.Warns after ∧ failure ≠ .exit ∧ (failure = .runaway → after.isFull)
  refl := .refl
  trans := .trans
  stop_of_step h h' := ⟨h.trans h'.1, h'.2⟩
  step_of_stop _ h := h.1

theorem Agrees.warns (h : after.Agrees before) : before.Warns after := by
  refine ⟨?_, .inl h.messages⟩
  unfold IsAlarmed
  rw [h.flagged, h.messages]
  exact id

/-- Marks an error and says what is wrong. -/
def alarm (message text : String) : Writer Unit := do
  modify flag
  record message
  printLine text

theorem report_eq_alarm (h : entry.isError) : report entry = alarm entry.wording entry.wording := by
  unfold report
  rw [if_pos h]
  rfl

theorem announce_eq_alarm (kind : ComplaintKind) (message : String) (line : Scalar) :
    ∃ said text, announce (.ofMessage kind message) false line = alarm said text :=
  ⟨_, _, rfl⟩

theorem alarm_cases (message text : String) (journal : Journal) :
    (journal.flag.isFull ∧ alarm message text journal = .error .runaway journal.flag) ∨
      ∃ after, alarm message text journal = .ok () after ∧ after.IsAlarmed := by
  have heq : alarm message text journal = EStateM.bind (record message) (fun _ => printLine text) journal.flag := rfl
  rw [heq, EStateM.bind]
  rcases record_cases message journal.flag with ⟨hfull, h⟩ | ⟨_, h⟩
  · rw [h]
    exact .inl ⟨hfull, rfl⟩
  · rw [h]
    exact .inr ⟨_, rfl, rfl, by simp [addLine]⟩

instance : Obeys alarming (alarm message text) := by
  refine ⟨fun journal => ?_⟩
  rcases alarm_cases message text journal with ⟨hfull, h⟩ | ⟨after, h, halarm⟩ <;> rw [h]
  · exact ⟨⟨fun halarm => ⟨rfl, halarm.2⟩, .inl rfl⟩, nofun, fun _ => hfull⟩
  · exact ⟨fun _ => halarm, .inr halarm⟩

instance (kind : ComplaintKind) (line : Scalar) : Obeys alarming (announce (.ofMessage kind message) false line) := by
  obtain ⟨said, text, heq⟩ := announce_eq_alarm kind message line
  rw [heq]
  infer_instance

theorem isAlarmed_of_alarm (h : alarm message text journal = .ok u after) : after.IsAlarmed := by
  rcases alarm_cases message text journal with ⟨_, h'⟩ | ⟨after, h', halarm⟩
  · cases h'.symm.trans h
  · cases h'.symm.trans h
    exact halarm

/-- A token has a value, and it is missing only after a message. -/
def Accounts (journal : Journal) : Option Token → Prop
  | none => journal.IsAlarmed
  | some token => token.value ≠ .null

theorem Accounts.mono (h : before.IsAlarmed → after.IsAlarmed) : ∀ {found}, before.Accounts found → after.Accounts found
  | none => h
  | some _ => id

end Journal

/-! ### Missing tokens -/

namespace Scanner

variable {scanner : Scanner}
variable {found : Option Token}

/-- A token that is missing is reported. -/
theorem scanHere_cases : scanner.scanHere.token = .ok found →
    (found = none ∧ ∃ entry, scanner.scanHere.reports = [entry] ∧ entry.isError) ∨ ∃ token, found = some token ∧ token.value ≠ .null := by
  unfold scanHere stepOrAssign either scanPoint scanNumber scanDouble
  dsimp only
  repeat' split
  all_goals intro h
  all_goals first
    | exact .inl ⟨(Except.ok.inj h).symm, _, rfl, rfl⟩
    | exact .inr ⟨_, (Except.ok.inj h).symm, fun hnull => by cases hnull⟩
    | cases h

theorem accounts_of_deliver {journal later : Journal} (h : scanner.scan.deliver journal = .ok found later) :
    later.Accounts found := by
  have htoken := Parse.deliver_eq_ok h
  rcases scanHere_cases (scanner.scan_token ▸ htoken) with ⟨rfl, entry, hentry, herror⟩ | ⟨token, rfl, hvalue⟩
  · unfold Outcome.deliver at h
    rw [htoken, scan_reports, hentry, List.forIn_cons] at h
    obtain ⟨_, middle, hrun, h⟩ := bind_eq_ok.1 h
    obtain ⟨-, rfl⟩ := pure_eq_ok.1 h
    obtain ⟨_, reported, hfirst, hrest⟩ := bind_eq_ok.1 hrun
    obtain ⟨_, found, hreport, hfirst⟩ := bind_eq_ok.1 hfirst
    obtain ⟨rfl, rfl⟩ := pure_eq_ok.1 hfirst
    obtain ⟨-, rfl⟩ := pure_eq_ok.1 hrest
    rw [Journal.report_eq_alarm herror] at hreport
    exact Journal.isAlarmed_of_alarm hreport
  · exact hvalue

theorem isError_textBody (line : Nat) (text : List Char) : ∀ entry ∈ (textBody line text).reports, entry.isError := by
  have hescape (c : Char) (line : Nat) :
      ∀ entry ∈ if escapable.contains c then [] else [unknownEscape c line], entry.isError := by
    split
    · exact List.forall_mem_nil _
    · exact List.forall_mem_singleton.2 rfl
  fun_induction textBody line text with
  | case1 | case2 => exact List.forall_mem_nil _
  | case3 => exact List.forall_mem_append.2 ⟨hescape _ _, List.forall_mem_singleton.2 rfl⟩
  | case4 _ _ _ _ _ _ _ _ _ ih => exact List.forall_mem_append.2 ⟨hescape _ _, ih⟩
  | case5 => exact List.forall_mem_singleton.2 rfl
  | case6 _ _ _ _ _ _ _ _ ih => exact ih

/-- All that is reported about tokens are errors. -/
theorem isError_scan : ∀ entry ∈ scanner.scan.reports, entry.isError := by
  rw [scan_reports]
  unfold scanHere stepOrAssign either scanPoint scanNumber scanDouble
  dsimp only
  repeat' split
  all_goals first
    | exact List.forall_mem_nil _
    | exact List.forall_mem_singleton.2 rfl
    | exact isError_textBody _ _
    | exact List.forall_mem_append.2 ⟨List.forall_mem_nil _, List.forall_mem_singleton.2 rfl⟩
    | exact List.forall_mem_append.2 ⟨List.forall_mem_singleton.2 rfl, List.forall_mem_singleton.2 rfl⟩

end Scanner

def Cursor.Accounts (cursor : Cursor) : Prop :=
  cursor.journal.Accounts cursor.current ∧ cursor.journal.Accounts cursor.ahead

/-- A cursor that was reached from another one: alarms stay, missing tokens are accounted for, and whatever is said
is an alarm. -/
structure Cursor.Heeds (after before : Cursor) : Prop where
  alarm : before.journal.IsAlarmed → after.journal.IsAlarmed
  accounts : before.Accounts → after.Accounts
  told : before.Accounts → after.journal.messages = before.journal.messages ∨ after.journal.IsAlarmed

namespace Cursor.Heeds

variable {before middle after : Cursor}

theorem refl (cursor : Cursor) : cursor.Heeds cursor :=
  ⟨id, id, fun _ => .inl rfl⟩

theorem trans (h : middle.Heeds before) (h' : after.Heeds middle) : after.Heeds before := by
  refine ⟨h'.alarm ∘ h.alarm, h'.accounts ∘ h.accounts, fun haccounts => ?_⟩
  rcases h'.told (h.accounts haccounts) with hsame | halarm
  · rw [hsame]
    exact (h.told haccounts).imp_right h'.alarm
  · exact .inr halarm

theorem of_warns {journal : Journal} (h : before.journal.Warns journal) : Cursor.Heeds { before with journal } before :=
  ⟨h.alarm, .imp (.mono h.alarm) (.mono h.alarm), fun _ => h.told⟩

end Cursor.Heeds

namespace Parse

variable {α β : Type} {cursor after : Cursor}
variable {x : Parse α} {message : String} {f : α → Parse β} {signal : α → Prop}
variable {a : α} {c : Prop} {y : Parse α} {heading : String}

/-- Where reading is given up there is an alarm. -/
def candid : Rule Cursor where
  step before after := after.Heeds before
  stop failure before after := after.Heeds before ∧
    (before.Accounts → (failure = .exit → after.journal.IsAlarmed) ∧ (failure = .runaway → after.journal.isFull))
  refl := .refl
  trans := .trans
  stop_of_step h h' := ⟨h.trans h'.1, h'.2 ∘ h.accounts⟩
  step_of_stop _ h := h.1

instance : candid.IsLenient where
  step_withDraft _ _ h := ⟨h.warns.alarm, .imp (.mono h.warns.alarm) (.mono h.warns.alarm), fun _ => h.warns.told⟩
  stop_withDraft _ _ _ h hordinary :=
    ⟨⟨h.warns.alarm, .imp (.mono h.warns.alarm) (.mono h.warns.alarm), fun _ => h.warns.told⟩,
      fun _ => by constructor <;> rintro rfl <;> simp at hordinary⟩

instance {x : Journal.Writer α} [h : Obeys Journal.alarming x] :
    Obeys candid (liftM (liftM x : Draft.Action α) : Parse α) := by
  refine ⟨fun cursor => ?_⟩
  rw [liftM_writer]
  cases hx : x cursor.journal with
  | ok a journal => exact .of_warns (h.step hx)
  | error failure journal =>
      obtain ⟨hwarns, hexit, hfull⟩ := h.stop hx
      exact ⟨.of_warns hwarns, fun _ => ⟨(absurd · hexit), hfull⟩⟩

instance (fault : Fault) : Obeys candid (fail fault : Parse α) :=
  .throw fun _ => ⟨.refl _, fun _ => ⟨nofun, nofun⟩⟩

/-! ### Behind a message -/

/-- An action that may be done once there is an alarm. -/
class Excused (x : Parse α) : Prop where
  allows : ∀ cursor : Cursor, cursor.journal.IsAlarmed → candid.Allows cursor (x cursor)

/-- There is an alarm wherever the action ends with such a result. -/
def Alarms (x : Parse α) (signal : α → Prop) : Prop :=
  ∀ ⦃cursor a after⦄, x cursor = .ok a after → signal a → after.journal.IsAlarmed

/-- An action that says something whenever it ends. -/
class Loud (x : Parse α) : Prop where
  alarms : ∀ signal, Alarms x signal

instance [hx : Obeys candid x] : Excused x :=
  ⟨fun cursor _ => hx.allows cursor⟩

theorem Excused.alarm [hx : Excused x] (h : x cursor = .ok a after) (halarm : cursor.journal.IsAlarmed) :
    after.journal.IsAlarmed := by
  have hstep := hx.allows cursor halarm
  rw [h] at hstep
  exact hstep.alarm halarm

instance (priority := low) [hx : Excused x] [hf : ∀ a, Excused (f a)] : Excused (x >>= f) :=
  ⟨fun cursor halarm => (hx.allows cursor halarm).bind fun a middle hrun => (hf a).allows middle (Excused.alarm hrun halarm)⟩

instance (priority := low) [Decidable c] [Excused x] [Excused y] : Excused (if c then x else y) := by
  split <;> infer_instance

instance : Excused (throw .exit : Parse α) :=
  ⟨fun _ halarm => ⟨.refl _, fun _ => ⟨fun _ => halarm, nofun⟩⟩⟩

/-- What follows an action is told by its result whether there is an alarm. -/
theorem Alarms.bind [hx : Obeys candid x] (h : Alarms x signal) (hyes : ∀ a, signal a → Excused (f a))
    (hno : ∀ a, ¬ signal a → Obeys candid (f a)) : Obeys candid (x >>= f) := by
  refine ⟨fun cursor => (hx.allows cursor).bind fun a middle hrun => ?_⟩
  by_cases hsignal : signal a
  · exact (hyes a hsignal).allows middle (h hrun hsignal)
  · exact (hno a hsignal).allows middle

theorem Alarms.of_bind {signal : β → Prop} (hf : ∀ a, Alarms (f a) signal) : Alarms (x >>= f) signal := by
  intro cursor b after h
  obtain ⟨a, middle, -, hrest⟩ := bind_eq_ok.1 h
  exact hf a hrest

theorem Alarms.pure (h : ¬ signal a) : Alarms (Pure.pure a) signal := by
  intro cursor b after hrun hsignal
  obtain ⟨rfl, -⟩ := pure_eq_ok.1 hrun
  exact absurd hsignal h

theorem Alarms.ite [Decidable c] (hx : Alarms x signal) (hy : Alarms y signal) :
    Alarms (if c then x else y) signal := by
  split
  · exact hx
  · exact hy

instance (priority := low) [hf : ∀ a, Loud (f a)] : Loud (x >>= f) :=
  ⟨fun signal => .of_bind fun a => (hf a).alarms signal⟩

instance [hx : Loud x] [hf : ∀ a, Excused (f a)] : Loud (x >>= f) := by
  refine ⟨fun signal cursor b after h _ => ?_⟩
  obtain ⟨a, middle, hfirst, hrest⟩ := bind_eq_ok.1 h
  exact Excused.alarm hrest (hx.alarms (fun _ => True) hfirst trivial)

instance (priority := low) [Obeys candid x] [hx : Loud x] [hf : ∀ a, Excused (f a)] : Obeys candid (x >>= f) :=
  (hx.alarms fun _ => True).bind (fun a _ => hf a) fun _ h => absurd trivial h

instance (said text : String) : Loud (liftM (liftM (Journal.alarm said text) : Draft.Action Unit) : Parse Unit) := by
  refine ⟨fun signal cursor u after h _ => ?_⟩
  obtain ⟨journal, halarm, rfl⟩ := lift_writer_eq_ok.1 h
  exact Journal.isAlarmed_of_alarm halarm

instance (kind : ComplaintKind) (line : Scalar) :
    Loud (liftM (liftM (Journal.announce (.ofMessage kind message) false line) : Draft.Action Unit) : Parse Unit) := by
  obtain ⟨said, text, heq⟩ := Journal.announce_eq_alarm kind message line
  rw [heq]
  infer_instance

instance (line : Scalar) :
    Loud (liftM (liftM (Journal.report ⟨message, heading, true, line⟩) : Draft.Action Unit) : Parse Unit) := by
  rw [Journal.report_eq_alarm rfl]
  infer_instance

instance (line : Scalar) :
    Obeys candid (liftM (liftM (Journal.report ⟨message, heading, true, line⟩) : Draft.Action Unit) : Parse Unit) := by
  rw [Journal.report_eq_alarm rfl]
  infer_instance

instance : Loud (complain message heading) := by
  unfold complain
  infer_instance

/-! ### Reading tokens -/

instance (scanner : Scanner) : Obeys Journal.alarming scanner.scan.deliver := by
  refine .bind (.forIn_mem fun entry hentry _ => ?_) fun _ => ?_
  · rw [Journal.report_eq_alarm (Scanner.isError_scan entry hentry)]
    infer_instance
  · split
    · infer_instance
    · exact .throw fun _ => ⟨.refl _, nofun, nofun⟩

instance : Obeys candid readAhead := by
  refine ⟨fun cursor => ?_⟩
  rw [readAhead_eq]
  cases h : cursor.scanner.scan.deliver cursor.journal with
  | ok token journal =>
      have hwarns : Journal.alarming.step cursor.journal journal := Obeys.step h
      exact ⟨hwarns.alarm, fun haccounts => ⟨haccounts.2.mono hwarns.alarm, Scanner.accounts_of_deliver h⟩, fun _ => hwarns.told⟩
  | error failure journal =>
      obtain ⟨hwarns, hexit, hfull⟩ : Journal.alarming.stop failure cursor.journal journal := Obeys.stop h
      exact ⟨⟨hwarns.alarm, fun haccounts => ⟨haccounts.2.mono hwarns.alarm, haccounts.2.mono hwarns.alarm⟩, fun _ => hwarns.told⟩,
        fun _ => ⟨(absurd · hexit), hfull⟩⟩

instance : Obeys candid next := by
  have : Obeys candid (modify fun cursor : Cursor => { cursor with line := cursor.line + 1 }) :=
    .modify fun _ => ⟨id, id, fun _ => .inl rfl⟩
  unfold next check
  infer_instance

/-! ### Texts -/

/-- Moving on: the token ahead becomes the current one, and the next token is read. -/
theorem next_eq_ok {u : Unit} (hnot : ¬ cursor.isAt [.eof]) (h : next cursor = .ok u after) :
    ∃ token journal, cursor.scanner.scan.deliver cursor.journal = .ok token journal ∧
      after = { cursor with
        journal, current := cursor.ahead, scanner := cursor.scanner.scan.scanner, ahead := token
        line := if cursor.isBefore [.newline] then cursor.line + 1 else cursor.line } := by
  unfold next at h
  rw [check_bind, if_neg hnot, bind_eq_ok] at h
  obtain ⟨_, middle, hread, h⟩ := h
  rw [readAhead_eq] at hread
  cases hdeliver : cursor.scanner.scan.deliver cursor.journal with
  | error failure journal => simp [hdeliver] at hread
  | ok token journal =>
      rw [hdeliver] at hread
      obtain rfl := (EStateM.Result.ok.inj hread).2
      rw [check_bind] at h
      refine ⟨token, journal, rfl, ?_⟩
      change (if cursor.isBefore [.newline] then _ else _ : Parse Unit) _ = _ at h
      by_cases hline : cursor.isBefore [.newline]
      · rw [if_pos hline] at h ⊢
        exact (modify_eq_ok.1 h).symm
      · rw [if_neg hline] at h ⊢
        exact (pure_eq_ok.1 h).2.symm

/-- Where the first tokens of a text can be read they are accounted for, and whatever is said is an alarm. -/
theorem accounts_start {source : String} {draft : Draft} (h : Cursor.start source draft = (.ok (), cursor)) :
    cursor.Accounts ∧ draft.journal.Warns cursor.journal := by
  unfold Cursor.start at h
  dsimp only at h
  generalize hopening : ({ toDraft := draft, scanner := .ofSource source } : Cursor) = opening at h
  have hnone : opening.current = none ∧ opening.ahead = none ∧ opening.journal = draft.journal := by simp [← hopening]
  have hnot : ∀ {cursor : Cursor}, cursor.current = none → ¬ cursor.isAt [.eof] := fun h => by
    simp [Cursor.isAt, Cursor.currentKind?, h]
  cases hrun : (do next; next : Parse Unit) opening with
  | error failure after => simp [hrun] at h
  | ok u after =>
      obtain rfl : after = cursor := by simpa [hrun] using h
      obtain ⟨_, middle, hfirst, hsecond⟩ := bind_eq_ok.1 hrun
      obtain ⟨_, journal, hdeliver, rfl⟩ := next_eq_ok (hnot hnone.1) hfirst
      obtain ⟨_, later, hdeliver', rfl⟩ := next_eq_ok (hnot hnone.2.1) hsecond
      have hwarns : Journal.alarming.step opening.journal journal := Obeys.step hdeliver
      have hwarns' : Journal.alarming.step journal later := Obeys.step hdeliver'
      rw [hnone.2.2] at hwarns
      exact ⟨⟨.mono hwarns'.alarm (Scanner.accounts_of_deliver hdeliver), Scanner.accounts_of_deliver hdeliver'⟩,
        hwarns.trans hwarns'⟩

end Parse

end Scriptlet
