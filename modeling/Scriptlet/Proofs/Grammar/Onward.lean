import Scriptlet.Proofs.Grammar.Candour
import Scriptlet.Proofs.Node
import Scriptlet.Proofs.Token.Joining

/-!
Reading without a message.

An action of the grammar that ends without a message has said nothing on the way; it has not left the end of
the text, has taken no node away, and has raised no mark of a function or a loop that it did not lower.  Of
a text that is made of lines it leaves lines, and the last token before the end is a line break.
-/

set_option synthInstance.maxSize 10000000

namespace Scriptlet

namespace Cursor

variable {after : Cursor}

def IsQuiet (cursor : Cursor) : Prop :=
  cursor.journal.messages = #[]

/-- No message is added on the way from one cursor to another. -/
def Silent (before after : Cursor) : Prop :=
  after.journal.messages.size ≤ before.journal.messages.size

theorem IsQuiet.silent (h : after.IsQuiet) (before : Cursor) : before.Silent after := by
  rw [Silent, h]
  exact Nat.zero_le _

/-- A cursor in a text that is made of lines: the end comes right behind the last line break. -/
structure IsSound (cursor : Cursor) : Prop where
  lines : Scanner.IsLines cursor.scanner.rest
  last : cursor.scanner.rest = [] → cursor.isBefore [.newline, .eof]
  ending : cursor.isBefore [.eof] → cursor.isAt [.newline, .eof] ∧ cursor.scanner.rest = []

/-- A cursor that was reached from another one without a message. -/
structure Onward (before after : Cursor) : Prop where
  journal : after.journal = before.journal
  size : before.graph.nodes.size ≤ after.graph.nodes.size
  eof : before.isAt [.eof] → after.isAt [.eof]
  sound : before.IsSound → after.IsSound
  inFunction : after.inFunction → before.inFunction
  inLoop : after.inLoop → before.inLoop

theorem Onward.refl (cursor : Cursor) : cursor.Onward cursor :=
  ⟨rfl, Nat.le_refl _, id, id, id, id⟩

theorem Onward.trans {first second third : Cursor} (h : first.Onward second) (h' : second.Onward third) :
    first.Onward third :=
  ⟨h'.journal.trans h.journal, h.size.trans h'.size, h'.eof ∘ h.eof, h'.sound ∘ h.sound,
    h.inFunction ∘ h'.inFunction, h.inLoop ∘ h'.inLoop⟩

theorem Onward.quiet {before : Cursor} (h : before.Onward after) (hquiet : after.IsQuiet) : before.IsQuiet := by
  rwa [IsQuiet, ← h.journal]

end Cursor

/-! ### Work on the draft -/

namespace Draft

variable {α β : Type}
variable {value : Value} {field : Field}
variable {kind : Kind} {name : Value} {x : Action α}

/-- Nothing is said and no node is taken away. -/
class Widens (x : Action α) : Prop where
  step : ∀ {draft a after}, x draft = .ok a after →
    after.journal = draft.journal ∧ draft.graph.nodes.size ≤ after.graph.nodes.size

instance {f : α → Action β} [hx : Widens x] [hf : ∀ a, Widens (f a)] : Widens (x >>= f) := by
  refine ⟨fun h => ?_⟩
  obtain ⟨a, middle, hfirst, hrest⟩ := bind_eq_ok.1 h
  obtain ⟨hjournal, hsize⟩ := hx.step hfirst
  obtain ⟨hjournal', hsize'⟩ := (hf a).step hrest
  exact ⟨hjournal'.trans hjournal, hsize.trans hsize'⟩

instance (priority := low) [h : Obeys looking x] : Widens x := by
  refine ⟨fun hrun => ?_⟩
  obtain rfl := h.step hrun
  exact ⟨rfl, Nat.le_refl _⟩

instance (fields : List (Field × Value)) : Widens (addNode kind fields) := by
  refine ⟨fun h => ?_⟩
  obtain ⟨-, rfl⟩ := addNode_eq_ok.1 h
  exact ⟨rfl, by simp [Graph.add]⟩

instance (content : Value) : Widens (setField value field content) := by
  refine ⟨fun {draft _ after} h => ?_⟩
  cases value with
  | node id =>
      obtain rfl := setField_node_eq_ok.1 h
      exact ⟨rfl, by simp [Graph.setField]⟩
  | _ => simp [setField] at h

instance (returnType parameters block line : Value) : Widens (newFunction name returnType parameters block line) := by
  unfold newFunction
  infer_instance

instance (args parent line : Value) : Widens (newCall name args parent line) := by
  unfold newCall
  infer_instance

end Draft

namespace Parse

variable {α β : Type} {cursor after : Cursor}
variable {count : Nat} {value name left operator right : Value} {kinds : List TokenKind} {u : Unit} {names : List Value}
variable {x : Parse α} {token : Option Token} {wanted : Bool} {type : Value}

/-- An action that goes on without leaving anything behind, where nothing is said in the end. -/
class Flows (x : Parse α) : Prop where
  onward : ∀ {cursor a after}, x cursor = .ok a after → after.IsQuiet → cursor.Onward after

namespace Flows

variable {x : Parse α}
variable {f : α → Parse β}

theorem bind (hx : Flows x) (hf : ∀ a, Flows (f a)) : Flows (x >>= f) := by
  refine ⟨fun h hquiet => ?_⟩
  obtain ⟨a, middle, hfirst, hrest⟩ := bind_eq_ok.1 h
  have honward := (hf a).onward hrest hquiet
  exact (hx.onward hfirst (honward.quiet hquiet)).trans honward

instance [hx : Flows x] [hf : ∀ a, Flows (f a)] : Flows (x >>= f) :=
  bind hx hf

instance (priority := low) [h : Obeys looking x] : Flows x := by
  refine ⟨fun hrun _ => ?_⟩
  obtain rfl := h.step hrun
  exact .refl _

instance (failure : Failure) : Flows (throw failure : Parse α) :=
  ⟨fun h => absurd h throw_ne_ok⟩

instance (fault : Fault) : Flows (fail fault : Parse α) :=
  ⟨fun h => absurd h fail_ne_ok⟩

instance {f : α → β} [hx : Flows x] : Flows (f <$> x) := by
  refine ⟨fun h hquiet => ?_⟩
  obtain ⟨a, hrun, -⟩ := map_eq_ok.1 h
  exact hx.onward hrun hquiet

instance {c : Prop} [Decidable c] {y : Parse α} [Flows x] [Flows y] : Flows (if c then x else y) := by
  split <;> infer_instance

instance {γ : Type} {action : γ → Parse β} [haction : ∀ item, Flows (action item)] {items : List γ} :
    Flows (items.mapM action) := by
  induction items with
  | nil =>
      rw [List.mapM_nil]
      infer_instance
  | cons item rest ih =>
      rw [List.mapM_cons]
      infer_instance

/-- An action that moves no token, says nothing and adds no node. -/
theorem of_still (h : ∀ {cursor a after}, x cursor = .ok a after → cursor.Onward after) : Flows x :=
  ⟨fun hrun _ => h hrun⟩

end Flows

theorem Loud.not_quiet [hx : Loud x] {a : α} (h : x cursor = .ok a after) : ¬ after.IsQuiet :=
  (hx.alarms (fun _ => True) h trivial).2

instance (priority := low) [hx : Loud x] : Flows x :=
  ⟨fun h hquiet => absurd hquiet (Loud.not_quiet h)⟩

/-- An action that flows, and gives up reading only with an alarm. -/
class Candid (x : Parse α) : Prop where
  flows : Flows x
  obeys : Obeys candid x

namespace Candid

variable {x : Parse α} {f : α → Parse β}
variable {message heading : String}

instance (priority := low) [h : Candid x] : Flows x :=
  h.flows

instance (priority := low) [h : Candid x] : Obeys candid x :=
  h.obeys

theorem bind (hx : Candid x) (hf : ∀ a, Candid (f a)) : Candid (x >>= f) :=
  ⟨inferInstance, inferInstance⟩

instance [hx : Candid x] [hf : ∀ a, Candid (f a)] : Candid (x >>= f) :=
  bind hx hf

/-- After an alarm reading may be given up. -/
instance (priority := low) [Candid x] [Loud x] [∀ a, Flows (f a)] [∀ a, Excused (f a)] : Candid (x >>= f) :=
  ⟨inferInstance, inferInstance⟩

instance (priority := low) [Obeys looking x] : Candid x :=
  ⟨inferInstance, inferInstance⟩

instance (fault : Fault) : Candid (fail fault : Parse α) :=
  ⟨inferInstance, inferInstance⟩

instance {f : α → β} [Candid x] : Candid (f <$> x) :=
  ⟨inferInstance, inferInstance⟩

instance {c : Prop} [Decidable c] {y : Parse α} [Candid x] [Candid y] : Candid (if c then x else y) := by
  split <;> infer_instance

instance {γ : Type} {action : γ → Parse β} [∀ item, Candid (action item)] {items : List γ} :
    Candid (items.mapM action) :=
  ⟨inferInstance, inferInstance⟩

instance (line : Scalar) :
    Candid (liftM (liftM (Journal.report ⟨message, heading, true, line⟩) : Draft.Action Unit) : Parse Unit) :=
  ⟨inferInstance, inferInstance⟩

instance : Candid (complain message heading) := by
  unfold complain
  infer_instance

end Candid

/-! ### The cursor -/

theorem onward_withDraft {draft : Draft} (hjournal : draft.journal = cursor.journal)
    (hsize : cursor.graph.nodes.size ≤ draft.graph.nodes.size) : cursor.Onward { cursor with toDraft := draft } :=
  ⟨hjournal, hsize, id, fun h => ⟨h.lines, h.last, h.ending⟩, id, id⟩

instance {x : Draft.Action α} [hx : Draft.Widens x] : Flows (liftM x : Parse α) := by
  refine .of_still fun h => ?_
  obtain ⟨draft, hrun, rfl⟩ := lift_eq_ok.1 h
  obtain ⟨hjournal, hsize⟩ := hx.step hrun
  exact onward_withDraft hjournal hsize

instance {x : Draft.Action α} [Draft.Widens x] [Obeys Draft.quiet x] : Candid (liftM x : Parse α) :=
  ⟨inferInstance, inferInstance⟩

instance (focus : Value) : Candid (setFocus focus) := by
  refine ⟨.of_still fun h => ?_, .modify fun _ => ⟨id, id, fun _ => .inl rfl⟩⟩
  obtain rfl := modify_eq_ok.1 h
  exact ⟨rfl, Nat.le_refl _, id, fun h => ⟨h.lines, h.last, h.ending⟩, id, id⟩

/-! ### Reading tokens -/

/-- A token that is delivered without a message. -/
theorem deliver_silent {outcome : Scanner.Outcome} {journal later : Journal}
    (h : outcome.deliver journal = .ok token later) (hsilent : later.messages.size ≤ journal.messages.size) :
    outcome.reports = [] ∧ later = journal := by
  have htoken := deliver_eq_ok h
  unfold Scanner.Outcome.deliver at h
  rw [htoken] at h
  obtain ⟨_, middle, hreports, h⟩ := bind_eq_ok.1 h
  obtain ⟨-, rfl⟩ := pure_eq_ok.1 h
  cases hlist : outcome.reports with
  | nil =>
      rw [hlist] at hreports
      exact ⟨rfl, ((pure_eq_ok.1 hreports).2).symm⟩
  | cons report rest =>
      -- the first report adds a message, and the others take none back
      rw [hlist, List.forIn_cons] at hreports
      obtain ⟨outcome, later, hfirst, hothers⟩ := bind_eq_ok.1 hreports
      obtain ⟨_, reported, hreport, hfirst⟩ := bind_eq_ok.1 hfirst
      obtain ⟨rfl, rfl⟩ := pure_eq_ok.1 hfirst
      have hsize := Journal.report_size hreport
      have hfollows : Journal.talking.step reported middle := Obeys.step hothers
      have := hfollows.messages
      omega

theorem isAt_iff : cursor.isAt kinds ↔ ∃ token, cursor.current = some token ∧ token.kind ∈ kinds := by
  unfold Cursor.isAt Cursor.currentKind?
  cases cursor.current <;> simp

theorem isBefore_iff : cursor.isBefore kinds ↔ ∃ token, cursor.ahead = some token ∧ token.kind ∈ kinds := by
  unfold Cursor.isBefore
  cases cursor.ahead <;> simp

/-- Moving on without a message: the token ahead becomes the current one, and the next token is read. -/
theorem next_silent (hnot : ¬ cursor.isAt [.eof]) (h : next cursor = .ok u after) (hsilent : cursor.Silent after) :
    ∃ token line, cursor.scanner.scan.token = .ok token ∧ cursor.scanner.scan.reports = [] ∧
      after = { cursor with
        current := cursor.ahead, scanner := cursor.scanner.scan.scanner, ahead := token, line } := by
  obtain ⟨token, journal, hdeliver, rfl⟩ := next_eq_ok hnot h
  obtain ⟨hreports, rfl⟩ := deliver_silent hdeliver hsilent
  exact ⟨token, _, deliver_eq_ok hdeliver, hreports, rfl⟩

theorem next_quiet (hnot : ¬ cursor.isAt [.eof]) (h : next cursor = .ok u after) (hquiet : after.IsQuiet) :
    ∃ token line, cursor.scanner.scan.token = .ok token ∧ cursor.scanner.scan.reports = [] ∧
      after = { cursor with
        current := cursor.ahead, scanner := cursor.scanner.scan.scanner, ahead := token, line } :=
  next_silent hnot h (hquiet.silent cursor)

theorem next_of_eof (h : cursor.isAt [.eof]) : next cursor = .ok () cursor := by
  unfold next
  rw [check_bind, if_pos h]
  rfl

/-- The lines of a text are followed by its end. -/
theorem isSound_next {line : Nat} (h : cursor.IsSound) (htoken : cursor.scanner.scan.token = .ok token)
    (hreports : cursor.scanner.scan.reports = []) :
    Cursor.IsSound { cursor with
      current := cursor.ahead, scanner := cursor.scanner.scan.scanner, ahead := token, line } := by
  rcases eq_or_ne cursor.scanner.rest [] with hrest | hrest
  · obtain ⟨heof, -, hempty⟩ := Scanner.scan_of_rest_nil hrest
    obtain rfl := Except.ok.inj (heof.symm.trans htoken)
    refine ⟨hempty ▸ ⟨by simp, .inl rfl⟩, fun _ => isBefore_iff.2 ⟨_, rfl, by simp [Token.ofText]⟩, fun _ => ⟨?_, hempty⟩⟩
    obtain ⟨found, hahead, hkind⟩ := isBefore_iff.1 (h.last hrest)
    exact isAt_iff.2 ⟨found, hahead, hkind⟩
  · obtain ⟨hlines, found, rfl, hfound, hlast⟩ := Scanner.scan_isLines h.lines hrest hreports htoken
    refine ⟨hlines, fun hend => isBefore_iff.2 ⟨found, rfl, by simp [hlast hend]⟩, fun hend => ?_⟩
    obtain ⟨_, hsome, hkind⟩ := isBefore_iff.1 hend
    obtain rfl := Option.some.inj hsome
    exact absurd (List.mem_singleton.1 hkind) hfound

instance : Candid next := by
  refine ⟨⟨fun {cursor u after} h hquiet => ?_⟩, inferInstance⟩
  by_cases hat : cursor.isAt [.eof] = true
  · rw [next_of_eof hat] at h
    obtain rfl := (EStateM.Result.ok.inj h).2
    exact .refl _
  · obtain ⟨token, line, htoken, hreports, rfl⟩ := next_quiet hat h hquiet
    exact ⟨rfl, Nat.le_refl _, fun heof => absurd heof hat, fun hsound => isSound_next hsound htoken hreports, id, id⟩

instance (message : Option String) : Candid (expect kinds message) := by
  refine .bind inferInstance fun holds => ?_
  cases holds
  · refine .bind inferInstance fun cursor => ?_
    cases message
    · cases cursor.current <;> infer_instance
    · infer_instance
  · exact inferInstanceAs (Candid next)

instance : Candid (skipUntilWithin kinds count) := by
  induction count with
  | zero => exact inferInstanceAs (Candid (fail _))
  | succ count ih =>
      unfold skipUntilWithin
      infer_instance

instance : Candid (skipUntil kinds) := by
  unfold skipUntil
  infer_instance

instance : Candid (skipNewlinesWithin count) := by
  induction count with
  | zero => exact inferInstanceAs (Candid (fail _))
  | succ count ih =>
      unfold skipNewlinesWithin
      infer_instance

instance : Candid skipNewlines := by
  unfold skipNewlines
  infer_instance

instance : Flows recover := by
  unfold recover
  infer_instance

instance : Excused recover := by
  unfold recover
  infer_instance

/-- Tokens are skipped while the test for some kinds has the wanted answer. -/
inductive Skips (wanted : Bool) (kinds : List TokenKind) : Cursor → Cursor → Prop
  | stop {cursor : Cursor} (h : cursor.isAt kinds ≠ wanted) : Skips wanted kinds cursor cursor
  | step {cursor middle after : Cursor} (h : cursor.isAt kinds = wanted) (hnext : next cursor = .ok () middle)
      (hrest : Skips wanted kinds middle after) : Skips wanted kinds cursor after

theorem rounds_skipRound (wanted : Bool) (kinds : List TokenKind) (count : Nat) (cursor : Cursor) :
    rounds (skipRound wanted kinds) (count + 1) () cursor =
      if cursor.isAt kinds = wanted then (next >>= fun _ => rounds (skipRound wanted kinds) count ()) cursor
      else .ok () cursor := by
  rw [rounds]
  simp only [skipRound, bind_assoc, ite_bind, pure_bind, id_map]
  rw [check_bind]
  split <;> rfl

theorem skips_of_rounds (h : rounds (skipRound wanted kinds) count () cursor = .ok u after) :
    Skips wanted kinds cursor after := by
  induction count generalizing cursor with
  | zero => exact absurd h fail_ne_ok
  | succ count ih =>
      rw [rounds_skipRound] at h
      split at h
      case isTrue hat =>
        obtain ⟨_, middle, hnext, h⟩ := bind_eq_ok.1 h
        exact .step hat hnext (ih h)
      case isFalse hat =>
        obtain rfl := (EStateM.Result.ok.inj h).2
        exact .stop hat

/-- The tokens that are left are steps enough. -/
theorem Skips.rounds_eq (hend : StopsAtEnd wanted kinds) (h : Skips wanted kinds cursor after)
    (hcount : cursor.tokensLeft < count) : rounds (skipRound wanted kinds) count () cursor = .ok () after := by
  induction h generalizing count with
  | stop hat =>
      obtain ⟨count, rfl⟩ := Nat.exists_eq_add_of_le' (Nat.lt_of_le_of_lt (Nat.zero_le _) hcount)
      rw [rounds_skipRound, if_neg hat]
  | step hat hnext _ ih =>
      obtain ⟨count, rfl⟩ := Nat.exists_eq_add_of_le' (Nat.lt_of_le_of_lt (Nat.zero_le _) hcount)
      have hless := next_tokens (hend hat) hnext
      rw [rounds_skipRound, if_pos hat]
      exact bind_eq_ok.2 ⟨_, _, hnext, ih (by omega)⟩

theorem skipNewlines_eq_ok : skipNewlines cursor = .ok u after ↔ Skips true [.newline] cursor after := by
  have hrounds : skipNewlines cursor = rounds (skipRound true [.newline]) cursor.tokenBound () cursor := by
    rw [← skipNewlinesWithin_eq_rounds]
    rfl
  rw [hrounds]
  exact ⟨skips_of_rounds, fun h => h.rounds_eq stopsAtEnd_newline cursor.tokensLeft_lt⟩

theorem skipUntil_landmarks_eq_ok : skipUntil landmarks cursor = .ok u after ↔ Skips false landmarks cursor after := by
  have hrounds : skipUntil landmarks cursor = rounds (skipRound false landmarks) cursor.tokenBound () cursor := by
    rw [← skipUntilWithin_eq_rounds]
    rfl
  rw [hrounds]
  exact ⟨skips_of_rounds, fun h => h.rounds_eq stopsAtEnd_landmarks cursor.tokensLeft_lt⟩

instance {body : Parse (List α)} [Candid body] : Candid (repeatUntil kinds body count) := by
  induction count with
  | zero => exact inferInstanceAs (Candid (fail _))
  | succ count ih =>
      unfold repeatUntil
      infer_instance

/-! ### Expressions -/

instance : Candid (joinLogical left operator right) := by
  unfold joinLogical
  infer_instance

instance : Candid (joinComparison left operator right) := by
  unfold joinComparison
  infer_instance

instance : Candid (joinSum left operator right) := by
  unfold joinSum
  infer_instance

instance : Candid (joinProduct left operator right) := by
  unfold joinProduct
  infer_instance

instance (operator : String) : Candid (stepNode name operator) := by
  unfold stepNode
  infer_instance

instance (kind : Kind) : Candid (literalNode kind value) := by
  unfold literalNode
  infer_instance

instance {operators : List TokenKind} {operand : Parse Value} {join : Value → Value → Value → Parse Value}
    [Candid operand] [∀ left operator right, Candid (join left operator right)] :
    Candid (leftChain operators operand join count left) := by
  induction count generalizing left with
  | zero => exact inferInstanceAs (Candid (fail _))
  | succ count ih =>
      unfold leftChain
      infer_instance

section Expressions

variable {expression : Parse Value} [Candid expression] {count : Nat}

instance {item : Parse (List Value)} [Candid item] : Candid (argumentList item count) := by
  unfold argumentList
  infer_instance

instance : Candid (callArgument expression) := by
  unfold callArgument
  infer_instance

instance (receiver : Value) : Candid (methodChain expression count receiver) := by
  induction count generalizing receiver with
  | zero => exact inferInstanceAs (Candid (fail _))
  | succ count ih =>
      unfold methodChain
      infer_instance

instance : Candid (functionCall expression count name) := by
  unfold functionCall
  infer_instance

instance : Candid (named expression count) := by
  unfold named
  infer_instance

instance : Candid (primaryWith expression count) := by
  refine .bind inferInstance fun cursor => ?_
  split <;> infer_instance

instance : Candid (exponent expression) := by
  unfold exponent
  infer_instance

end Expressions

theorem levelsFlow (count : Nat) : Levels (fun x _ => Candid x) count count := by
  induction count with
  | zero => constructor <;> exact inferInstanceAs (Candid (fail _))
  | succ count ih =>
      obtain ⟨_, _, _, _, _, _, _, _⟩ := ih
      constructor <;>
        simp only [expression, equality, comparison, additive, term, factor, unary, unaryWith, primary] <;>
        infer_instance

instance : Candid (expression count) :=
  (levelsFlow count).expression

/-! ### Statements -/

instance : Candid (increment name) := by
  unfold increment
  infer_instance

instance : Candid (decrement name) := by
  unfold decrement
  infer_instance

instance : Candid declaredType := by
  unfold declaredType
  infer_instance

instance (list : NameList) : Candid (declaredNames count list) := by
  induction count generalizing list with
  | zero => exact inferInstanceAs (Candid (fail _))
  | succ count ih =>
      unfold declaredNames
      infer_instance

instance (expression : Value) : Candid (declareAll type expression names) := by
  unfold declareAll
  infer_instance

instance : Candid (declaration count name type) := by
  refine .bind inferInstance fun _ => .bind inferInstance fun _ => ?_
  split
  · refine .bind inferInstance fun list => ?_
    split <;> infer_instance
  · infer_instance

instance : Candid (assignedNames count names) := by
  induction count generalizing names with
  | zero => exact inferInstanceAs (Candid (fail _))
  | succ count ih =>
      unfold assignedNames
      infer_instance

instance : Candid (completeFocus value) := by
  unfold completeFocus
  infer_instance

instance : Candid (assignAll value names) := by
  unfold assignAll
  infer_instance

instance : Candid (assignment count name) := by
  unfold assignment
  infer_instance

instance (counter : Scalar) : Candid (counterUpdate count counter) := by
  unfold counterUpdate
  infer_instance

instance : Candid adviseOnToken := by
  refine .bind inferInstance fun cursor => ?_
  split
  · infer_instance
  · split <;> infer_instance

instance : Candid adviseOnName := by
  refine .bind inferInstance fun cursor => ?_
  split
  · split <;> infer_instance
  · infer_instance

theorem alarms_adviseOnToken : Alarms adviseOnToken (· = true) := by
  refine .of_bind fun cursor => ?_
  split
  · exact fun _ _ _ h => absurd h fail_ne_ok
  · split
    · exact Loud.alarms _
    · exact .pure nofun

theorem alarms_adviseOnName : Alarms adviseOnName (· = true) := by
  refine .of_bind fun cursor => ?_
  split
  · split
    · exact Loud.alarms _
    · exact .pure nofun
  · exact .pure nofun

/-- Advice is a complaint, and where there is no advice there is another one. -/
theorem candid_advised {advise : Parse Bool} [Candid advise] (h : Alarms advise (· = true)) (message : String) :
    Candid (do
      unless ← advise do complain message
      recover
      return .null : Parse Value) := by
  refine ⟨inferInstance, h.bind (fun advised hyes => ?_) fun advised hno => ?_⟩
  · rw [if_pos hyes]
    infer_instance
  · rw [if_neg hno]
    infer_instance

/-- Where no token stands there is an alarm, or nothing is asked. -/
instance : Candid strayToken := by
  have hflows : Flows strayToken := by
    refine .bind inferInstance fun cursor => ?_
    split <;> infer_instance
  refine ⟨hflows, ⟨fun cursor => ?_⟩⟩
  unfold strayToken
  rw [get_bind]
  cases hcurrent : cursor.current with
  | some token => exact (candid_advised alarms_adviseOnToken _).obeys.allows cursor
  | none =>
      show candid.Allows cursor ((do recover; return .null : Parse Value) cursor)
      have hrecover : Excused (do recover; return .null : Parse Value) := inferInstance
      by_cases halarm : cursor.journal.IsAlarmed
      · exact hrecover.allows cursor halarm
      · have hnot : ¬ cursor.Accounts := fun h => halarm (by simpa [hcurrent, Journal.Accounts] using h.1)
        cases (do recover; return .null : Parse Value) cursor with
        | ok value after => exact ⟨(absurd · halarm), (absurd · hnot), (absurd · hnot)⟩
        | error failure after => exact ⟨⟨(absurd · halarm), (absurd · hnot), (absurd · hnot)⟩, (absurd · hnot)⟩

instance : Candid (parameters count) := by
  induction count with
  | zero => exact inferInstanceAs (Candid (fail _))
  | succ count ih =>
      unfold parameters
      infer_instance

/-- Parameters that could not be read to their end are complained about. -/
theorem alarms_parameters : ∀ count, Alarms (parameters count) fun result => result.2 = false
  | 0 => fun _ _ _ h => absurd h fail_ne_ok
  | count + 1 => by
      have hrest (parameter : Value) : Alarms (parameters count >>= fun result => return (parameter :: result.1, result.2))
          fun result => result.2 = false := by
        intro cursor result after h hincomplete
        obtain ⟨⟨_, _⟩, _, hrun, h⟩ := bind_eq_ok.1 h
        obtain ⟨rfl, rfl⟩ := pure_eq_ok.1 h
        exact alarms_parameters count hrun hincomplete
      refine .of_bind fun _ => .ite (.pure nofun) (.of_bind fun _ => .of_bind fun _ => .of_bind fun _ => .ite ?_ (Loud.alarms _))
      refine .of_bind fun _ => .of_bind fun _ => .of_bind fun _ => .of_bind fun _ => .of_bind fun parameter => ?_
      exact .of_bind fun _ => .ite (.of_bind fun _ => hrest parameter) (hrest parameter)

instance (value : Scalar) : Candid (returnType value) := by
  unfold returnType
  infer_instance

instance : Candid (namedStatement count) := by
  have := candid_advised alarms_adviseOnName
  unfold namedStatement
  infer_instance

instance (inLoop : Bool) : Obeys candid (modify fun cursor : Cursor => { cursor with inLoop }) :=
  .modify fun _ => ⟨id, id, fun _ => .inl rfl⟩

instance (inFunction : Bool) : Obeys candid (modify fun cursor : Cursor => { cursor with inFunction }) :=
  .modify fun _ => ⟨id, id, fun _ => .inl rfl⟩

section Blocks

variable {block : Parse Value} [hblock : Candid block] {count : Nat}
variable {f : Value → Parse Value} {node : Value}

instance {expression : Parse Value} [Candid expression] : Candid (elifBranches expression block count) := by
  induction count with
  | zero => exact inferInstanceAs (Candid (fail _))
  | succ count ih =>
      unfold elifBranches
      infer_instance

omit hblock in
/-- A mark is raised for an action and lowered at its end. -/
theorem flows_marked (mark : Bool → Cursor → Cursor)
    (hjournal : ∀ raised cursor, (mark raised cursor).journal = cursor.journal)
    (hmark : ∀ {cursor middle}, (mark true cursor).Onward middle → cursor.Onward (mark false middle))
    [hblock : Flows block] [hf : ∀ body, Flows (f body)] : Flows (do
      modify (mark true)
      let body ← block
      modify (mark false)
      f body) := by
  refine ⟨fun {cursor _ after} h hquiet => ?_⟩
  obtain ⟨_, raised, hraise, h⟩ := bind_eq_ok.1 h
  obtain rfl := modify_eq_ok.1 hraise
  obtain ⟨body, middle, hbody, h⟩ := bind_eq_ok.1 h
  obtain ⟨_, lowered, hlower, h⟩ := bind_eq_ok.1 h
  obtain rfl := modify_eq_ok.1 hlower
  have honward := (hf body).onward h hquiet
  have hlowered := honward.quiet hquiet
  rw [Cursor.IsQuiet, hjournal] at hlowered
  exact (hmark (hblock.onward hbody hlowered)).trans honward

/-- What stands in a loop is read with the mark of a loop. -/
instance : Candid (loopBody block) := by
  refine ⟨flows_marked (fun inLoop cursor => { cursor with inLoop }) (fun _ _ => rfl) fun h => ?_, ?_⟩
  · refine ⟨h.journal, h.size, h.eof, fun hbefore => ?_, h.inFunction, by simp⟩
    obtain ⟨hlines, hlast, hending⟩ := h.sound ⟨hbefore.lines, hbefore.last, hbefore.ending⟩
    exact ⟨hlines, hlast, hending⟩
  · unfold loopBody
    infer_instance

/-- The body of a function is read with the mark of a function. -/
instance (priority := high) [hf : ∀ body, Candid (f body)] :
    Candid (do
      modify fun cursor => { cursor with inFunction := true }
      let body ← block
      modify fun cursor => { cursor with inFunction := false }
      f body) := by
  refine ⟨flows_marked (fun inFunction cursor => { cursor with inFunction }) (fun _ _ => rfl) fun h => ?_, inferInstance⟩
  refine ⟨h.journal, h.size, h.eof, fun hbefore => ?_, by simp, h.inLoop⟩
  obtain ⟨hlines, hlast, hending⟩ := h.sound ⟨hbefore.lines, hbefore.last, hbefore.ending⟩
  exact ⟨hlines, hlast, hending⟩

instance : Candid (functionDeclaration count block) := by
  have hbody (name : Scalar) (type : String) : Candid (do
      let (parameters, complete) ← parameters count
      if complete then
        expect [.rightParen] (some "No enclosing parenthesis ')' found for function declaration")
      else recover
      modify fun cursor => { cursor with inFunction := true }
      let body ← block
      modify fun cursor => { cursor with inFunction := false }
      Draft.newFunction (.scalar name) (.text type) (.list parameters) body (← line) : Parse Value) := by
    refine ⟨inferInstance, (alarms_parameters count).bind (fun ⟨_, complete⟩ h => ?_) fun ⟨_, complete⟩ h => ?_⟩
    all_goals dsimp only at h ⊢
    · rw [h, if_neg Bool.false_ne_true]
      infer_instance
    · rw [Bool.not_eq_false] at h
      rw [if_pos h]
      infer_instance
  unfold functionDeclaration
  infer_instance

omit hblock in
/-- A failure inside a statement is reported, so without a message the statement has been read. -/
theorem guarded_quiet (h : guarded block cursor = .ok node after) (hquiet : after.IsQuiet) :
    ∃ middle, block cursor = .ok node middle ∧ skipNewlines middle = .ok () after := by
  obtain ⟨outcome, middle, hattempt, h⟩ := bind_eq_ok.1 h
  rcases attempt_eq_ok.1 hattempt with ⟨found, hrun, rfl⟩ | ⟨failure, hrun, -, rfl⟩
  · obtain ⟨_, _, hpure, h⟩ := bind_eq_ok.1 h
    obtain ⟨rfl, rfl⟩ := pure_eq_ok.1 hpure
    obtain ⟨_, last, hskip, h⟩ := bind_eq_ok.1 h
    obtain ⟨rfl, rfl⟩ := pure_eq_ok.1 h
    exact ⟨middle, hrun, hskip⟩
  · cases failure <;> dsimp only at h
    case exit => exact absurd h throw_ne_ok
    all_goals exact absurd hquiet (Loud.not_quiet h)

omit hblock in
theorem guarded_eq_ok {middle : Cursor} (h : block cursor = .ok node middle)
    (hskip : skipNewlines middle = .ok () after) : guarded block cursor = .ok node after := by
  refine bind_eq_ok.2 ⟨.ok node, middle, attempt_eq_ok.2 (.inl ⟨node, h, rfl⟩), ?_⟩
  exact bind_eq_ok.2 ⟨node, middle, rfl, bind_eq_ok.2 ⟨(), after, hskip, rfl⟩⟩

/-- What is given up within a statement is given up for good. -/
instance : Candid (guarded block) := by
  refine ⟨⟨fun h hquiet => ?_⟩, ⟨fun cursor => ?_⟩⟩
  · obtain ⟨middle, hrun, hskip⟩ := guarded_quiet h hquiet
    have honward := Flows.onward hskip hquiet
    exact (hblock.flows.onward hrun (honward.quiet hquiet)).trans honward
  · by_cases hexit : ∃ middle, block cursor = .error .exit middle
    · obtain ⟨middle, hrun⟩ := hexit
      have hattempt : attempt block cursor = .ok (.error .exit) middle := attempt_eq_ok.2 (.inr ⟨.exit, hrun, rfl, rfl⟩)
      have hguarded : guarded block cursor = .error .exit middle := by
        show EStateM.bind (attempt block) _ cursor = _
        rw [EStateM.bind, hattempt]
        rfl
      rw [hguarded]
      exact hblock.obeys.stop hrun
    · refine (Obeys.allows cursor).bind fun outcome middle hattempt => (?_ : Obeys candid _).allows middle
      rcases attempt_eq_ok.1 hattempt with ⟨node, -, rfl⟩ | ⟨failure, hrun, -, rfl⟩
      · infer_instance
      · cases failure with
        | exit => exact absurd ⟨middle, hrun⟩ hexit
        | complaint _ | runaway | fault _ => infer_instance

end Blocks

section Bodies

variable {block : Value → Parse Value} [∀ appended, Candid (block appended)] {count : Nat}

instance : Candid (statementBody count block) := by
  unfold statementBody conditional returnStatement breakStatement whileLoop forLoop setStatement
  refine .bind inferInstance fun cursor => ?_
  split <;> infer_instance

end Bodies

theorem flows_statement_block (count : Nat) : Candid (statement count) ∧ ∀ appended, Candid (block count appended) := by
  induction count with
  | zero => exact ⟨inferInstanceAs (Candid (fail _)), fun _ => inferInstanceAs (Candid (fail _))⟩
  | succ count ih =>
      obtain ⟨_, _⟩ := ih
      unfold statement block braced
      exact ⟨inferInstance, fun _ => inferInstance⟩

instance : Candid (statement count) :=
  (flows_statement_block count).1

instance (appended : Value) : Candid (block count appended) :=
  (flows_statement_block count).2 appended

end Parse

end Scriptlet
