import Scriptlet.Proofs.Quiet
import Scriptlet.Proofs.Token.Lexing

/-!
Progress of a cursor.

What is left to a cursor is the text not yet scanned and the tokens it holds, and the messages that
may still be issued.  Every action of the grammar keeps the rule `steady`: nothing that was read comes
back, and no message is taken back.  An action that `Advances` reads a token or issues a message
whenever it ends.
-/

set_option synthInstance.maxSize 1000000

namespace Scriptlet

variable {kinds : List TokenKind}
variable {cursor : Cursor}

namespace Scanner

variable {scanner : Scanner}

theorem length_scan_le (scanner : Scanner) : scanner.scan.scanner.rest.length ≤ scanner.rest.length := by
  obtain ⟨gap, others, _, h⟩ := scanner.exists_scans
  obtain ⟨count, hmoved, -⟩ := isRead_scanHere scanner.skipBlanks.skipComment
  rw [h.start] at hmoved
  unfold scan
  simp only [h.start]
  split <;> simp [hmoved]

theorem scan_fault {fault : Fault} (h : scanner.scan.token = .error fault) : fault ≠ .outOfSteps := by
  obtain ⟨gap, others, count, hscans⟩ := scanner.exists_scans
  exact hscans.read.fault h

end Scanner

/-- What a token counts for: nothing at the end of the text. -/
def Token.weight (token : Option Token) : Nat :=
  if token.any fun t => t.kind == .eof then 0 else 1

theorem Token.weight_le (token : Option Token) : Token.weight token ≤ 1 := by
  unfold Token.weight
  split <;> omega

theorem Scanner.length_scan_add_weight_le {scanner : Scanner} {token : Option Token}
    (h : scanner.scan.token = .ok token) :
    scanner.scan.scanner.rest.length + Token.weight token ≤ scanner.rest.length := by
  obtain ⟨gap, others, count, hscans⟩ := scanner.exists_scans
  have hweight := Token.weight_le token
  rw [hscans.rest_scan h, hscans.rest, List.length_append, List.length_drop]
  cases others with
  | nil =>
      have hread := hscans.read
      rw [h] at hread
      obtain rfl := Except.ok.inj (hread.of_nil (List.take_nil)).2
      simp [Token.weight, Token.ofText]
  | cons => simp only [List.length_cons]; omega

/-! ### What is left to a cursor -/

/-- Later entries of a journal: no message is lost, and the limit holds. -/
structure Journal.Follows (after before : Journal) : Prop where
  limit : after.limit = before.limit
  messages : before.messages.size ≤ after.messages.size
  within : ∀ limit, before.limit = some limit → after.messages.size ≤ max limit before.messages.size

theorem Journal.Follows.of_eq {after before : Journal} (hmessages : after.messages = before.messages)
    (hlimit : after.limit = before.limit) : after.Follows before :=
  ⟨hlimit, Nat.le_of_eq (by rw [hmessages]), fun _ _ => by rw [hmessages]; exact Nat.le_max_right _ _⟩

theorem Journal.Follows.refl (journal : Journal) : journal.Follows journal :=
  .of_eq rfl rfl

theorem Journal.Follows.trans {first second third : Journal} (h : second.Follows first)
    (h' : third.Follows second) : third.Follows first where
  limit := h'.limit.trans h.limit
  messages := Nat.le_trans h.messages h'.messages
  within limit hlimit := by
    have := h.within limit hlimit
    have := h'.within limit (h.limit.trans hlimit)
    omega

namespace Cursor

/-- A bound on the tokens that can still be read. -/
def tokensLeft (cursor : Cursor) : Nat :=
  cursor.scanner.rest.length + Token.weight cursor.current + Token.weight cursor.ahead

/-- A bound on the tokens that can still be read and the messages that can still be issued. -/
def left (cursor : Cursor) : Nat :=
  cursor.tokensLeft + (cursor.journal.limit.getD 0 - cursor.journal.messages.size)

/-- Fewer than `count` tokens and messages are left, and messages are limited. -/
def HasLess (count : Nat) (cursor : Cursor) : Prop :=
  cursor.journal.limit.isSome ∧ cursor.left < count

/-- A cursor that was reached from another one. -/
structure Follows (after before : Cursor) : Prop where
  tokens : after.tokensLeft ≤ before.tokensLeft
  journal : after.journal.Follows before.journal

/-- A cursor that was reached by reading a token or issuing a message. -/
def IsPast (after before : Cursor) : Prop :=
  after.Follows before ∧
    (after.tokensLeft < before.tokensLeft ∨ before.journal.messages.size < after.journal.messages.size)

variable {first second third : Cursor} {count : Nat}

theorem tokensLeft_lt (cursor : Cursor) : cursor.tokensLeft < cursor.tokenBound := by
  have := Token.weight_le cursor.current
  have := Token.weight_le cursor.ahead
  unfold tokensLeft tokenBound
  omega

theorem Follows.refl (cursor : Cursor) : cursor.Follows cursor :=
  ⟨Nat.le_refl _, .refl _⟩

theorem Follows.trans (h : second.Follows first) (h' : third.Follows second) : third.Follows first :=
  ⟨Nat.le_trans h'.tokens h.tokens, h.journal.trans h'.journal⟩

theorem IsPast.trans_follows (h : second.IsPast first) (h' : third.Follows second) : third.IsPast first := by
  refine ⟨h.1.trans h', ?_⟩
  have := h'.tokens
  have := h'.journal.messages
  rcases h.2 with h | h <;> omega

theorem Follows.trans_isPast (h : second.Follows first) (h' : third.IsPast second) : third.IsPast first := by
  refine ⟨h.trans h'.1, ?_⟩
  have := h.tokens
  have := h.journal.messages
  rcases h'.2 with h | h <;> omega

theorem Follows.left_le (h : second.Follows first) : second.left ≤ first.left := by
  have := h.tokens
  have := h.journal.messages
  unfold left
  rw [h.journal.limit]
  omega

theorem HasLess.of_follows (h : second.Follows first) (hless : first.HasLess count) :
    second.HasLess count :=
  ⟨h.journal.limit ▸ hless.1, Nat.lt_of_le_of_lt h.left_le hless.2⟩

theorem IsPast.left_lt (h : second.IsPast first) (hlimit : first.journal.limit.isSome) :
    second.left < first.left := by
  obtain ⟨limit, hlimit⟩ := Option.isSome_iff_exists.1 hlimit
  have htokens := h.1.tokens
  have hmessages := h.1.journal.messages
  have hwithin := h.1.journal.within limit hlimit
  unfold left
  rw [h.1.journal.limit, hlimit, Option.getD_some]
  rcases h.2 with h | h <;> omega

theorem HasLess.of_isPast (h : second.IsPast first) (hless : first.HasLess (count + 1)) :
    second.HasLess count := by
  have := h.left_lt hless.1
  exact ⟨h.1.journal.limit ▸ hless.1, by have := hless.2; omega⟩

end Cursor

/-! ### Messages -/

namespace Journal

variable {α : Type}
variable {message : String} {journal : Journal}
variable {after : Journal} {entry : Report} {u : Unit}

/-- Messages are added, and steps do not run out. -/
def talking : Rule Journal where
  step before after := after.Follows before
  stop failure before after := after.Follows before ∧ failure ≠ .fault .outOfSteps
  refl _ := .refl _
  trans h h' := h.trans h'
  stop_of_step h h' := ⟨h.trans h'.1, h'.2⟩
  step_of_stop _ h := h.1

theorem record_cases (message : String) (journal : Journal) :
    journal.isFull ∧ record message journal = .error .runaway journal ∨
      ¬ journal.isFull ∧
        record message journal = .ok ⟨⟩ { journal with messages := journal.messages.push message } := by
  have hrecord : record message journal =
      (if journal.isFull then do
        let _ ← (throw .runaway : Writer PUnit)
        modify fun journal => { journal with messages := journal.messages.push message }
      else modify fun journal => { journal with messages := journal.messages.push message } : Writer Unit) journal :=
    rfl
  by_cases hfull : journal.isFull = true
  · rw [hrecord, if_pos hfull]
    exact .inl ⟨hfull, rfl⟩
  · rw [hrecord, if_neg hfull]
    exact .inr ⟨hfull, rfl⟩

theorem follows_push (message : String) (h : ¬ journal.isFull) :
    Follows { journal with messages := journal.messages.push message } journal where
  limit := rfl
  messages := by simp
  within limit hlimit := by
    have : journal.messages.size < limit := by simpa [isFull, hlimit] using h
    simp only [Array.size_push]
    omega

instance : Obeys talking (record message) := by
  refine ⟨fun journal => ?_⟩
  rcases record_cases message journal with ⟨_, h⟩ | ⟨hfull, h⟩
  · rw [h]
    exact ⟨.refl _, by simp⟩
  · rw [h]
    exact follows_push message hfull

instance (text : String) : Obeys talking (printLine text) :=
  .modify fun _ => .of_eq rfl rfl

instance : Obeys talking (report entry) := by
  have : Obeys talking (modify flag) := .modify fun _ => .of_eq rfl rfl
  unfold report
  infer_instance

instance (kind : ComplaintKind) (exits : Bool) (line : Scalar) :
    Obeys talking (announce (.ofMessage kind message) exits line) := by
  have : Obeys talking (modify flag) := .modify fun _ => .of_eq rfl rfl
  have : Obeys talking (throw .exit : Writer Unit) := .throw fun _ => ⟨.refl _, by simp⟩
  unfold announce Failure.ofMessage announceAs
  infer_instance

theorem record_size (h : record message journal = .ok u after) : journal.messages.size < after.messages.size := by
  rcases record_cases message journal with ⟨_, h'⟩ | ⟨_, h'⟩
  · simp [h'] at h
  · rw [h'] at h
    obtain rfl := (EStateM.Result.ok.inj h).2
    simp

theorem report_size (h : report entry journal = .ok u after) : journal.messages.size < after.messages.size := by
  unfold report at h
  split at h
  · simp only [bind_eq_ok, modify_eq_ok, printLine] at h
    obtain ⟨_, _, rfl, _, later, hlater, rfl⟩ := h
    have hsize := record_size hlater
    exact hsize
  · simp only [bind_eq_ok, modify_eq_ok, printLine] at h
    obtain ⟨_, later, hlater, rfl⟩ := h
    have hsize := record_size hlater
    exact hsize

end Journal

/-! ### Actions of the grammar -/

namespace Parse

variable {α β : Type} {n : Nat} {cursor after : Cursor}
variable {x : Parse α} {f : α → Parse β} {u : Unit}
variable {message heading : String} {outcome : Scanner.Outcome}

/-- Nothing comes back that was read or said, and steps do not run out where fewer than `n` tokens and
messages are left. -/
def steady (n : Nat) : Rule Cursor where
  step before after := after.Follows before
  stop failure before after :=
    after.Follows before ∧ (failure = .fault .outOfSteps → ¬ before.HasLess n)
  refl _ := .refl _
  trans h h' := h.trans h'
  stop_of_step h h' := ⟨h.trans h'.1, fun hfailure hless => h'.2 hfailure (hless.of_follows h)⟩
  step_of_stop _ h := h.1

/-- A token is read or a message is issued whenever the action ends. -/
class Advances (x : Parse α) : Prop where
  isPast : ∀ {cursor a after}, x cursor = .ok a after → after.IsPast cursor

instance : (steady n).IsLenient where
  step_withDraft cursor draft h := ⟨Nat.le_refl _, .of_eq h.messages h.limit⟩
  stop_withDraft failure cursor draft h hordinary :=
    ⟨⟨Nat.le_refl _, .of_eq h.messages h.limit⟩, fun hfailure => by simp [hfailure] at hordinary⟩

theorem follows_of_ok [hx : Obeys (steady 0) x] {a : α} (h : x cursor = .ok a after) : after.Follows cursor :=
  hx.step h

theorem follows_of_error [hx : Obeys (steady 0) x] {failure : Failure} (h : x cursor = .error failure after) :
    after.Follows cursor :=
  (hx.stop h).1

theorem liftM_writer (x : Journal.Writer α) (cursor : Cursor) :
    (liftM (liftM x : Draft.Action α) : Parse α) cursor = match x cursor.journal with
      | .ok value journal => .ok value { cursor with journal }
      | .error failure journal => .error failure { cursor with journal } := by
  show Draft.onDraft (Draft.onJournal x) cursor = _
  unfold Draft.onDraft Draft.onJournal
  rw [show (Carries.draft cursor).journal = cursor.journal from rfl]
  cases x cursor.journal <;> rfl

instance {x : Journal.Writer α} [h : Obeys Journal.talking x] :
    Obeys (steady n) (liftM (liftM x : Draft.Action α) : Parse α) := by
  refine ⟨fun cursor => ?_⟩
  rw [liftM_writer]
  cases hx : x cursor.journal with
  | ok a journal => exact ⟨Nat.le_refl _, h.step hx⟩
  | error failure journal =>
      obtain ⟨hfollows, hne⟩ := h.stop hx
      exact ⟨⟨Nat.le_refl _, hfollows⟩, fun hfailure => absurd hfailure hne⟩

/-- An action that leaves the text alone. -/
theorem obeys_modify {change : Cursor → Cursor}
    (h : ∀ cursor, (change cursor).tokensLeft = cursor.tokensLeft ∧ (change cursor).journal = cursor.journal) :
    Obeys (steady n) (modify change) := by
  refine .modify fun cursor => ⟨Nat.le_of_eq (h cursor).1, ?_⟩
  rw [(h cursor).2]
  exact .refl _

instance : Obeys looking (check kinds) := by
  unfold check
  infer_instance

instance : Obeys looking (checkAhead kinds) := by
  unfold checkAhead
  infer_instance

instance : Obeys looking line := by
  unfold line
  infer_instance

instance (focus : Value) : Obeys (steady n) (setFocus focus) :=
  obeys_modify fun _ => ⟨rfl, rfl⟩

instance : Obeys looking currentValue := by
  refine .bind inferInstance fun cursor => ?_
  split <;> infer_instance

instance : Obeys (steady n) (complain message heading) := by
  unfold complain
  infer_instance

instance (value : Scalar) : Obeys looking (typeNamed value) := by
  unfold typeNamed
  split <;> infer_instance

/-! ### Reading tokens -/

theorem readAhead_eq (cursor : Cursor) :
    readAhead cursor = match cursor.scanner.scan.deliver cursor.journal with
      | .ok token journal => .ok ⟨⟩
          { cursor with
            journal, current := cursor.ahead, scanner := cursor.scanner.scan.scanner, ahead := token }
      | .error failure journal => .error failure
          { cursor with journal, current := cursor.ahead, scanner := cursor.scanner.scan.scanner } := by
  show EStateM.bind (liftM (liftM cursor.scanner.scan.deliver : Draft.Action _) : Parse _)
      (fun token => modify fun cursor => { cursor with ahead := token })
    { cursor with current := cursor.ahead, scanner := cursor.scanner.scan.scanner } = _
  unfold EStateM.bind
  rw [liftM_writer]
  cases cursor.scanner.scan.deliver cursor.journal <;> rfl

theorem obeys_deliver (h : ∀ fault, outcome.token = .error fault → fault ≠ .outOfSteps) :
    Obeys Journal.talking outcome.deliver := by
  unfold Scanner.Outcome.deliver
  refine .bind inferInstance fun _ => ?_
  cases hfault : outcome.token with
  | ok token => infer_instance
  | error fault => exact .throw fun _ => ⟨.refl _, by simpa using h fault hfault⟩

theorem deliver_eq_ok {token : Option Token} {journal later : Journal} (h : outcome.deliver journal = .ok token later) :
    outcome.token = .ok token := by
  unfold Scanner.Outcome.deliver at h
  obtain ⟨_, _, _, h⟩ := bind_eq_ok.1 h
  cases hfound : outcome.token with
  | error fault => simp [hfound] at h
  | ok found =>
      simp only [hfound, pure_eq_ok] at h
      rw [h.1]

theorem weight_current (h : ¬ cursor.isAt [.eof]) : Token.weight cursor.current = 1 := by
  unfold Token.weight
  rw [if_neg]
  intro heof
  apply h
  cases hcurrent : cursor.current with
  | none => simp [hcurrent] at heof
  | some token => simpa [Cursor.isAt, Cursor.currentKind?, hcurrent] using heof

theorem readAhead_allows (h : ¬ cursor.isAt [.eof]) : (steady n).Allows cursor (readAhead cursor) := by
  have hdeliver : Obeys Journal.talking cursor.scanner.scan.deliver := obeys_deliver fun _ => Scanner.scan_fault
  have hcurrent := weight_current h
  have hlength := cursor.scanner.length_scan_le
  have hahead := Token.weight_le cursor.ahead
  rw [readAhead_eq]
  cases hx : cursor.scanner.scan.deliver cursor.journal with
  | ok token journal =>
      have hscan := Scanner.length_scan_add_weight_le (deliver_eq_ok hx)
      refine ⟨?_, hdeliver.step hx⟩
      simp only [Cursor.tokensLeft]
      omega
  | error failure journal =>
      obtain ⟨hfollows, hne⟩ := hdeliver.stop hx
      refine ⟨⟨?_, hfollows⟩, fun hfailure => absurd hfailure hne⟩
      simp only [Cursor.tokensLeft]
      omega

theorem readAhead_tokens (h : ¬ cursor.isAt [.eof]) (hread : readAhead cursor = .ok u after) :
    after.tokensLeft < cursor.tokensLeft := by
  rw [readAhead_eq] at hread
  have hcurrent := weight_current h
  cases hx : cursor.scanner.scan.deliver cursor.journal with
  | error failure journal => simp [hx] at hread
  | ok token journal =>
      have hscan := Scanner.length_scan_add_weight_le (deliver_eq_ok hx)
      rw [hx] at hread
      obtain rfl := (EStateM.Result.ok.inj hread).2
      simp only [Cursor.tokensLeft]
      omega

theorem get_bind (f : Cursor → Parse β) (cursor : Cursor) : (get >>= f) cursor = f cursor cursor := rfl

theorem check_bind (kinds : List TokenKind) (f : Bool → Parse β) (cursor : Cursor) :
    (check kinds >>= f) cursor = f (cursor.isAt kinds) cursor := rfl

instance : Obeys (steady n) next := by
  have hline : Obeys (steady n) (modify fun cursor : Cursor => { cursor with line := cursor.line + 1 }) :=
    obeys_modify fun _ => ⟨rfl, rfl⟩
  refine ⟨fun cursor => ?_⟩
  unfold next
  rw [check_bind]
  by_cases h : cursor.isAt [.eof] = true
  · rw [if_pos h]
    exact Obeys.allows cursor
  · rw [if_neg h]
    exact (readAhead_allows h).bind fun _ u _ => Obeys.allows u

theorem next_tokens (h : ¬ cursor.isAt [.eof]) (hnext : next cursor = .ok u after) :
    after.tokensLeft < cursor.tokensLeft := by
  have hline : Obeys (steady 0) (modify fun cursor : Cursor => { cursor with line := cursor.line + 1 }) :=
    obeys_modify fun _ => ⟨rfl, rfl⟩
  unfold next at hnext
  rw [check_bind] at hnext
  rw [if_neg h] at hnext
  obtain ⟨_, middle, hread, hnext⟩ := bind_eq_ok.1 hnext
  have hrest : after.Follows middle := follows_of_ok hnext
  exact Nat.lt_of_le_of_lt hrest.tokens (readAhead_tokens h hread)

theorem next_isPast (h : ¬ cursor.isAt [.eof]) (hnext : next cursor = .ok u after) : after.IsPast cursor :=
  ⟨follows_of_ok hnext, Or.inl (next_tokens h hnext)⟩

/-! ### Actions that advance -/

theorem Advances.bind (hx : Advances x) (hf : ∀ a, Obeys (steady 0) (f a)) : Advances (x >>= f) := by
  refine ⟨fun h => ?_⟩
  obtain ⟨a, middle, hfirst, hrest⟩ := bind_eq_ok.1 h
  exact (hx.isPast hfirst).trans_follows ((hf a).step hrest)

theorem Advances.of_bind (hx : Obeys (steady 0) x) (hf : ∀ a, Advances (f a)) : Advances (x >>= f) := by
  refine ⟨fun h => ?_⟩
  obtain ⟨a, middle, hfirst, hrest⟩ := bind_eq_ok.1 h
  exact (hx.step hfirst).trans_isPast ((hf a).isPast hrest)

instance (priority := low) [hx : Obeys (steady 0) x] [hf : ∀ a, Advances (f a)] : Advances (x >>= f) :=
  .of_bind hx hf

instance [hx : Advances x] [hf : ∀ a, Obeys (steady 0) (f a)] : Advances (x >>= f) :=
  .bind hx hf

instance {f : α → β} [hx : Advances x] : Advances (f <$> x) := by
  refine ⟨fun h => ?_⟩
  obtain ⟨a, hx', _⟩ := map_eq_ok.1 h
  exact hx.isPast hx'

instance (fault : Fault) : Advances (fail fault : Parse α) :=
  ⟨fun h => by simp at h⟩

/-- What comes behind a token or a message has fewer of them left. -/
theorem allows_bind_of_isPast (hx : (steady (n + 1)).Allows cursor (x cursor))
    (hpast : ∀ {a after}, x cursor = .ok a after → after.IsPast cursor) (hf : ∀ a, Obeys (steady n) (f a)) :
    (steady (n + 1)).Allows cursor ((x >>= f) cursor) := by
  show (steady (n + 1)).Allows cursor (EStateM.bind x f cursor)
  unfold EStateM.bind
  cases h : x cursor with
  | error failure after =>
      rw [h] at hx
      exact hx
  | ok a middle =>
      have hpast := hpast h
      dsimp only
      cases h' : f a middle with
      | ok b after => exact hpast.1.trans ((hf a).step h')
      | error failure after =>
          obtain ⟨hfollows, hsteps⟩ := (hf a).stop h'
          exact ⟨hpast.1.trans hfollows, fun hfailure hless => hsteps hfailure (hless.of_isPast hpast)⟩

instance [hadvances : Advances x] [hx : Obeys (steady (n + 1)) x] [hf : ∀ a, Obeys (steady n) (f a)] :
    Obeys (steady (n + 1)) (x >>= f) :=
  ⟨fun cursor => allows_bind_of_isPast (hx.allows cursor) hadvances.isPast hf⟩

instance (entry : Report) :
    Advances (liftM (liftM (Journal.report entry) : Draft.Action Unit) : Parse Unit) := by
  refine ⟨fun {cursor u after} h => ?_⟩
  refine ⟨follows_of_ok h, Or.inr ?_⟩
  rw [liftM_writer] at h
  cases hreport : Journal.report entry cursor.journal with
  | error failure journal => simp [hreport] at h
  | ok u journal =>
      rw [hreport] at h
      obtain rfl := (EStateM.Result.ok.inj h).2
      exact Journal.report_size hreport

instance : Advances (complain message heading) := by
  unfold complain
  infer_instance

end Parse

/-- Kinds of tokens among which the end is not. -/
@[reducible] def TokenKind.endless : List TokenKind → Bool
  | [] => true
  | .eof :: _ => false
  | _ :: rest => endless rest

theorem TokenKind.eof_notMem (h : endless kinds) : eof ∉ kinds := by
  induction kinds with
  | nil => simp
  | cons kind rest ih =>
      cases kind
      case eof => simp at h
      all_goals simpa using ih h

theorem Cursor.isAt_of_mem {kind : TokenKind} (h : cursor.isAt [kind]) (hmem : kind ∈ kinds) : cursor.isAt kinds := by
  revert h
  unfold isAt
  cases cursor.currentKind? with
  | none => simp
  | some found =>
      simp only [Option.any_some, List.contains_eq_mem, decide_eq_true_eq, List.mem_singleton]
      rintro rfl
      exact hmem

theorem Cursor.not_isAt_eof (hkinds : TokenKind.endless kinds) (h : cursor.isAt kinds) : ¬ cursor.isAt [.eof] := by
  have heof := TokenKind.eof_notMem hkinds
  revert h
  unfold isAt
  cases cursor.currentKind? with
  | none => simp
  | some kind =>
      simp only [Option.any_some, List.contains_eq_mem, decide_eq_true_eq, List.mem_singleton]
      rintro h rfl
      exact heof h

namespace Parse

variable {α β : Type} {n : Nat} {cursor after : Cursor}
variable {f : Unit → Parse β} {b : β} {message : Option String}

theorem next_bind_allows (h : ¬ cursor.isAt [.eof]) (hf : ∀ u, Obeys (steady n) (f u)) :
    (steady (n + 1)).Allows cursor ((next >>= f) cursor) :=
  allows_bind_of_isPast (Obeys.allows cursor) (next_isPast h) hf

theorem next_bind_isPast (h : ¬ cursor.isAt [.eof]) (hf : ∀ u, Obeys (steady 0) (f u))
    (hx : (next >>= f) cursor = .ok b after) : after.IsPast cursor := by
  obtain ⟨u, middle, hnext, hrest⟩ := bind_eq_ok.1 hx
  exact (next_isPast h hnext).trans_follows ((hf u).step hrest)

theorem currentValue_eq_ok {value : Scalar} :
    currentValue cursor = .ok value after ↔
      (∃ token, cursor.current = some token ∧ token.value = value) ∧ cursor = after := by
  simp only [currentValue, bind_eq_ok, get_eq_ok]
  constructor
  · rintro ⟨_, _, ⟨rfl, rfl⟩, h⟩
    cases hcurrent : cursor.current with
    | none => simp [hcurrent] at h
    | some token =>
        simp only [hcurrent, pure_eq_ok] at h
        exact ⟨⟨token, rfl, h.1⟩, h.2⟩
  · rintro ⟨⟨token, hcurrent, rfl⟩, rfl⟩
    exact ⟨_, _, ⟨rfl, rfl⟩, by simp [hcurrent]⟩

theorem currentValue_next_isPast {f : Scalar → Unit → Parse β} (h : ¬ cursor.isAt [.eof])
    (hf : ∀ value u, Obeys (steady 0) (f value u))
    (hx : (currentValue >>= fun value => next >>= f value) cursor = .ok b after) : after.IsPast cursor := by
  obtain ⟨value, middle, hvalue, hx⟩ := bind_eq_ok.1 hx
  obtain ⟨_, rfl⟩ := currentValue_eq_ok.1 hvalue
  exact next_bind_isPast h (hf value) hx

/-- A rule that is kept by messages and by going on to the next token. -/
class IsOpen (rule : Rule Cursor) : Prop extends rule.IsPatient where
  complain : ∀ message heading, Obeys rule (complain message heading)
  next : Obeys rule next

instance : IsOpen (steady n) where
  complain _ _ := inferInstance
  next := inferInstance

section Open

variable {rule : Rule Cursor} [hrule : IsOpen rule]

instance {message : String} : Obeys rule (complain message heading) :=
  hrule.complain message heading

instance : Obeys rule next :=
  hrule.next

instance : Obeys rule (expect kinds message) := by
  unfold expect
  refine .bind inferInstance fun holds => ?_
  cases holds
  · simp only [Bool.false_eq_true, if_false]
    refine .bind inferInstance fun cursor => ?_
    cases message
    · cases cursor.current <;> infer_instance
    · infer_instance
  · simp only [if_true]
    infer_instance

instance : Obeys rule declaredType := by
  unfold declaredType
  infer_instance

instance (value : Scalar) : Obeys rule (returnType value) := by
  unfold returnType
  infer_instance

instance : Obeys rule adviseOnToken := by
  refine .bind inferInstance fun cursor => ?_
  split
  · infer_instance
  · split <;> infer_instance

instance : Obeys rule adviseOnName := by
  refine .bind inferInstance fun cursor => ?_
  split
  · split <;> infer_instance
  · infer_instance

end Open

/-- A token that is expected is passed, or there is a message about it. -/
instance [hkinds : Holds (TokenKind.endless kinds)] : Advances (expect kinds message) := by
  refine ⟨fun {cursor u after} h => ?_⟩
  unfold expect at h
  rw [check_bind] at h
  by_cases hat : cursor.isAt kinds = true
  · rw [if_pos hat] at h
    exact next_isPast (Cursor.not_isAt_eof hkinds.eq_true hat) h
  · rw [if_neg hat] at h
    obtain ⟨found, middle, hget, h⟩ := bind_eq_ok.1 h
    obtain ⟨rfl, rfl⟩ := get_eq_ok.1 hget
    have hadvances : ∀ text, Advances (complain text >>= fun _ => next) := fun _ => inferInstance
    cases message with
    | some text => exact (hadvances text).isPast h
    | none =>
        cases hcurrent : cursor.current with
        | none => simp [hcurrent] at h
        | some token =>
            rw [hcurrent] at h
            exact (hadvances _).isPast h

end Parse

end Scriptlet
