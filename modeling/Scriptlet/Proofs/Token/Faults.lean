import Scriptlet.Proofs.Grammar.Progress
import Scriptlet.Proofs.Token.Spelling

/-!
When reading a token fails.

A token that is read costs at least one character, so the end is reached in as many calls as the text
has characters and one more.  Reading fails at a lone ampersand and at a number that has no value, and
nowhere else.
-/

namespace Scriptlet

namespace Journal

variable {message : String} {entry : Report}

/-- A journal without a limit never ends an operation. -/
def unlimited : Rule Journal where
  step before after := before.limit = none → after.limit = none
  stop _ before _ := before.limit ≠ none
  refl _ h := h
  trans h h' := h' ∘ h
  stop_of_step h h' := h' ∘ h
  step_of_stop _ h := fun hnone => absurd hnone h

instance : Obeys unlimited (record message) := by
  refine ⟨fun journal => ?_⟩
  rcases record_cases message journal with ⟨hfull, h⟩ | ⟨_, h⟩
  · rw [h]
    exact fun hnone => by simp [isFull, hnone] at hfull
  · rw [h]
    exact id

instance : Obeys unlimited (report entry) := by
  have : Obeys unlimited (modify flag) := .modify fun _ h => h
  have : ∀ text, Obeys unlimited (printLine text) := fun _ => .modify fun _ h => h
  unfold report
  infer_instance

end Journal

namespace Scanner

variable {scanner : Scanner} {text rest : List Char} {outcome : Outcome} {journal : Journal}

theorem position_lt_scan {token : Option Token} (h : scanner.scan.token = .ok token) :
    scanner.position < scanner.scan.scanner.position := by
  obtain ⟨gap, others, count, hscans⟩ := scanner.exists_scans
  rw [hscans.moved h, position_advance]
  show _ < (scanner.advanceBy _).position + 1
  rw [position_advanceBy]
  omega

/-- A text that starts with a lone ampersand or with a number that has no value. -/
inductive Malformed : List Char → Prop where
  | ampersand {rest : List Char} (hend : rest.head? ≠ some '&') : Malformed ('&' :: rest)
  | integer {digits rest : List Char} (hne : digits ≠ []) (hdigits : ∀ d ∈ digits, Text.isDigit d)
      (hend : ∀ c ∈ rest.head?, Text.isDigit c = false ∧ c ≠ '.') (hvalue : Number.readInt? (String.ofList digits) = none) :
      Malformed (digits ++ rest)
  | double {whole digits rest : List Char} (hne : whole ≠ []) (hwhole : ∀ d ∈ whole, Text.isDigit d)
      (hdigits : ∀ d ∈ digits, Text.isDigit d) (hend : ∀ c ∈ rest.head?, Text.isDigit c = false)
      (hvalue : Number.readFloat? (String.ofList (whole ++ '.' :: digits)) = none) : Malformed (whole ++ '.' :: digits ++ rest)

theorem stops_iff {p : Char → Bool} (hp : p endMark = false) : Stops p text ↔ ∀ c ∈ text.head?, p c = false := by
  cases text <;> simp [Stops, hp]

theorem malformed_of_lexes {found : Except Fault (Option Token)} {silent : Bool} {fault : Fault}
    (h : Lexes text rest found silent) (hfound : found = .error fault) : Malformed (text ++ rest) := by
  cases h with
  | integer hne hdigits hend hpoint =>
      refine .integer hne hdigits (fun c hc => ?_) (Option.map_eq_none_iff.1 (numberToken_eq_error.1 hfound).1)
      exact ⟨(stops_iff (by decide)).1 hend c hc, ne_of_beq_false ((stops_iff (by decide)).1 hpoint c hc)⟩
  | double hne hwhole hdigits hend =>
      exact .double hne hwhole hdigits ((stops_iff (by decide)).1 hend)
        (Option.map_eq_none_iff.1 (numberToken_eq_error.1 hfound).1)
  | ampersand hend => exact .ampersand fun hhead => absurd ((stops_iff (by decide)).1 hend '&' hhead) (by decide)
  | _ => cases hfound

theorem lexes_of_malformed (h : Malformed text) :
    ∃ word rest fault silent, text = word ++ rest ∧ Lexes word rest (.error fault) silent := by
  cases h with
  | ampersand hend =>
      refine ⟨['&'], _, _, _, rfl, .ampersand ((stops_iff (by decide)).2 fun c hc => beq_false_of_ne ?_)⟩
      rintro rfl
      exact hend hc
  | integer hne hdigits hend hvalue =>
      have hread := Lexes.integer hne hdigits ((stops_iff (by decide)).2 fun c hc => (hend c hc).1)
        ((stops_iff (by decide)).2 fun c hc => beq_false_of_ne (hend c hc).2)
      rw [integerToken, hvalue] at hread
      exact ⟨_, _, _, _, rfl, hread⟩
  | double hne hwhole hdigits hend hvalue =>
      have hread := Lexes.double hne hwhole hdigits ((stops_iff (by decide)).2 hend)
      rw [doubleToken, hvalue] at hread
      exact ⟨_, _, _, _, rfl, hread⟩

theorem scan_error_iff (scanner : Scanner) :
    (∃ fault, scanner.scan.token = .error fault) ↔ Malformed scanner.skipBlanks.skipComment.rest := by
  constructor
  · rintro ⟨fault, hfault⟩
    obtain ⟨gap, others, count, h⟩ := scanner.exists_scans
    have hmalformed := malformed_of_lexes h.read hfault
    rwa [h.start, rest_advanceBy, h.rest, List.drop_left, ← others.take_append_drop (count + 1)]
  · intro h
    obtain ⟨word, rest, fault, silent, hrest, hread⟩ := lexes_of_malformed h
    exact ⟨fault, scanner.scan_token ▸ (scanHere_of_lexes hread hrest (.inr ⟨fault, rfl⟩)).1⟩

end Scanner

namespace Reading

variable {reading after : Reading} {token : Option Token}

theorem next_eq_ok (h : next reading = .ok token after) :
    reading.scanner.scan.deliver reading.journal = .ok token after.journal ∧ reading.scanner.scan.token = .ok token ∧
      after.scanner = reading.scanner.scan.scanner := by
  delta next at h
  dsimp only at h
  split at h
  case h_1 hdeliver =>
    obtain ⟨rfl, rfl⟩ := EStateM.Result.ok.inj h
    exact ⟨hdeliver, Parse.deliver_eq_ok hdeliver, rfl⟩
  case h_2 => cases h

/-- Without a limit every token that is scanned is handed out. -/
theorem next_of_unlimited (hlimit : reading.journal.limit = none) (htoken : reading.scanner.scan.token = .ok token) :
    ∃ after, next reading = .ok token after ∧ after.journal.limit = none := by
  have hobeys : Obeys Journal.unlimited reading.scanner.scan.deliver := by
    unfold Scanner.Outcome.deliver
    rw [htoken]
    infer_instance
  delta next
  dsimp only
  cases hdeliver : reading.scanner.scan.deliver reading.journal with
  | ok found journal =>
      obtain rfl : token = found := Except.ok.inj (htoken.symm.trans (Parse.deliver_eq_ok hdeliver))
      exact ⟨_, rfl, hobeys.step hdeliver hlimit⟩
  | error failure journal => exact absurd hlimit (hobeys.stop hdeliver)

theorem next_error_iff (hlimit : reading.journal.limit = none) :
    (∃ failure after, next reading = .error failure after) ↔ Scanner.Malformed reading.scanner.skipBlanks.skipComment.rest := by
  rw [← Scanner.scan_error_iff]
  cases htoken : reading.scanner.scan.token with
  | ok token =>
      obtain ⟨after, hnext, -⟩ := next_of_unlimited hlimit htoken
      simp [hnext]
  | error fault =>
      cases hnext : next reading with
      | ok token after => cases htoken.symm.trans (next_eq_ok hnext).2.1
      | error failure after => simp

/-- The end is reached in as many calls as there are characters, and one more. -/
theorem getLast?_tokensWithin {count : Nat} (hcount : reading.scanner.rest.length < count)
    (h : (tokensWithin count reading).2.1 = none) :
    ∃ token line, (tokensWithin count reading).1.getLast? = some (some token, line) ∧ token.kind = .eof := by
  induction count generalizing reading with
  | zero => omega
  | succ count ih =>
      rw [tokensWithin_succ] at h ⊢
      cases hnext : next reading with
      | error failure after => simp [hnext] at h
      | ok token after =>
          obtain ⟨-, htoken, hscanner⟩ := next_eq_ok hnext
          have hlength := Scanner.length_scan_add_weight_le htoken
          simp only [hnext] at h ⊢
          split at h
          case isTrue heof =>
            obtain ⟨token, rfl, hkind⟩ := (Option.any_eq_true _ _).1 heof
            exact ⟨token, after.scanner.line, by rw [if_pos heof]; rfl, beq_iff_eq.1 hkind⟩
          case isFalse heof =>
            rw [if_neg heof]
            rw [Token.weight, if_neg heof, ← hscanner] at hlength
            obtain ⟨token, line, hlast, hkind⟩ := ih (by omega) h
            exact ⟨token, line, by rw [List.getLast?_cons, hlast]; rfl, hkind⟩

/-- A text before its first token is read; any number of messages may be issued about it. -/
def ofSource (source : String) : Reading :=
  { scanner := .ofSource source, journal := { limit := none } }

/-- Reading a token moves on, so the end of a text is reached in two calls more than it has characters, unless one
of them fails.  A call fails exactly where the text is malformed behind blanks and a remark. -/
theorem next_advances (source : String) (reading : Reading) :
    (∀ token after, next reading = .ok token after → reading.scanner.position < after.scanner.position) ∧
      (reading.journal.limit = none →
        ((∃ failure after, next reading = .error failure after) ↔
          Scanner.Malformed reading.scanner.skipBlanks.skipComment.rest)) ∧
      ((tokensWithin (source.length + 2) (ofSource source)).2.1 = none →
        ∃ token line, (tokensWithin (source.length + 2) (ofSource source)).1.getLast? = some (some token, line) ∧
          token.kind = .eof) := by
  refine ⟨fun token after h => ?_, next_error_iff, getLast?_tokensWithin ?_⟩
  · obtain ⟨-, htoken, hscanner⟩ := next_eq_ok h
    exact hscanner ▸ Scanner.position_lt_scan htoken
  · simp [ofSource, Scanner.ofSource, String.length_toList]

theorem next_advances_ampersand :
    (∃ failure after, next (ofSource " & x") = .error failure after) ∧
      ∃ token line, (tokensWithin 4 (ofSource "&&")).1.getLast? = some (some token, line) ∧ token.kind = .eof :=
  ⟨((next_advances "" (ofSource " & x")).2.1 rfl).2 (.ampersand (by decide)),
    (next_advances "&&" (ofSource "")).2.2 (by decide +kernel)⟩

end Reading

end Scriptlet
