import Scriptlet.Proofs.Token.Lexeme
import Mathlib.Data.List.TakeWhile

/-!
How tokens are written.

`Lexes` says what is read from a text before another one, of which only the first character counts.  A
scanner reads by these rules, and everywhere one of them applies.
-/

namespace Scriptlet.Scanner

section

variable {scanner : Scanner} {rest : List Char} {c : Char} {p : Char → Bool}

/-! ### Moving -/

@[simp] theorem rest_advance (scanner : Scanner) : scanner.advance.rest = scanner.rest.tail := by
  unfold advance
  dsimp only
  split <;> rfl

@[simp] theorem rest_advanceBy (count : Nat) (scanner : Scanner) :
    (scanner.advanceBy count).rest = scanner.rest.drop count := by
  induction count generalizing scanner with
  | zero => rfl
  | succ count ih => rw [advanceBy, ih, rest_advance, List.drop_tail]

theorem position_advance (scanner : Scanner) : scanner.advance.position = scanner.position + 1 := by
  unfold advance
  dsimp only
  split <;> rfl

theorem position_advanceBy (count : Nat) (scanner : Scanner) :
    (scanner.advanceBy count).position = scanner.position + count := by
  induction count generalizing scanner with
  | zero => rfl
  | succ count ih =>
      rw [advanceBy, ih, position_advance]
      omega

theorem advanceBy_add (first second : Nat) (scanner : Scanner) :
    (scanner.advanceBy first).advanceBy second = scanner.advanceBy (first + second) := by
  induction first generalizing scanner with
  | zero => rw [Nat.zero_add]; rfl
  | succ first ih => rw [Nat.succ_add, advanceBy, advanceBy, ih]

theorem current_eq (h : scanner.rest = c :: rest) : scanner.current = c := by
  simp [current, h]

theorem peek_eq (h : scanner.rest = c :: rest) : scanner.peek = rest.headD endMark := by
  simp [peek, h]

theorem exists_cons (hhead : rest.headD endMark = c) (hc : c ≠ endMark) : ∃ others, rest = c :: others := by
  cases rest with
  | nil => exact absurd hhead.symm hc
  | cons d others => exact ⟨others, by rw [← hhead, List.headD_cons]⟩

theorem exists_rest (hcurrent : scanner.current = c) (hc : c ≠ endMark) : ∃ rest, scanner.rest = c :: rest :=
  exists_cons hcurrent hc

/-! ### Runs of characters -/

/-- A text at which a run of characters ends. -/
def Stops (p : Char → Bool) (text : List Char) : Prop :=
  p (text.headD endMark) = false

theorem takeWhile_run {run : List Char} (hrun : ∀ c ∈ run, p c) (hrest : Stops p rest) :
    (run ++ rest).takeWhile p = run := by
  rw [List.takeWhile_append_of_pos hrun]
  cases rest with
  | nil => simp
  | cons c rest => rw [List.takeWhile_cons_of_neg (by simpa [Stops] using hrest), List.append_nil]

theorem exists_run (hend : p endMark = false) (text : List Char) :
    ∃ run rest, text = run ++ rest ∧ (∀ c ∈ run, p c) ∧ Stops p rest := by
  refine ⟨text.takeWhile p, text.dropWhile p, List.takeWhile_append_dropWhile.symm, fun c => List.mem_takeWhile_imp, ?_⟩
  cases hdrop : text.dropWhile p with
  | nil => exact hend
  | cons c others =>
      have hhead := List.head?_dropWhile_not p text
      rw [hdrop] at hhead
      simpa [Stops] using hhead

end

/-! ### Rules -/

/-- The characters that make a longer token out of a sign. -/
def goesOn (sign : String) (c : Char) : Bool :=
  match sign with
  | "+" => c == '+' || c == '='
  | "-" => c == '-' || c == '='
  | "=" | "!" | "<" | ">" => c == '='
  | "." => Text.isDigit c
  | _ => false

/-- The inside of a text literal that is closed behind it, and the text that it stands for. -/
inductive Inside : List Char → List Char → Prop where
  | nil : Inside [] []
  | plain {c : Char} {text rest : List Char} (hc : c ≠ '"' ∧ c ≠ '\\') (hnext : (text ++ ['"']).headD endMark ≠ endMark)
      (h : Inside text rest) : Inside (c :: text) (c :: rest)
  | escape {c : Char} {text rest : List Char} (hc : escapable.contains c) (hnext : (text ++ ['"']).headD endMark ≠ endMark)
      (h : Inside text rest) : Inside ('\\' :: c :: text) ('/' :: c :: rest)

def wordToken (word : List Char) : Token :=
  .ofText (wordKind (String.ofList word)) (String.ofList word)

/-- The token of a number, if it has a value. -/
def numberToken (kind : TokenKind) (fault : Fault) : Option Scalar → Except Fault (Option Token)
  | some value => .ok (some ⟨kind, value⟩)
  | none => .error fault

def integerToken (digits : List Char) : Except Fault (Option Token) :=
  numberToken .integer (.unexpectedOption "lineNumber") ((Number.readInt? (String.ofList digits)).map .int)

def doubleToken (text : List Char) : Except Fault (Option Token) :=
  numberToken .double (.unassigned "number") ((Number.readFloat? (String.ofList text)).map .double)

/-- What is read from a text before another one, and whether nothing is reported about it. -/
inductive Lexes : List Char → List Char → Except Fault (Option Token) → Bool → Prop where
  | finish : Lexes [] [] (.ok (some (.ofText .eof ""))) true
  | mark {rest : List Char} : Lexes [endMark] rest (.ok (some (.ofText .eof ""))) true
  | sign {kind : TokenKind} {sign : String} {rest : List Char} (hsign : (kind, sign) ∈ Lexeme.signs)
      (hend : Stops (goesOn sign) rest) : Lexes sign.toList rest (.ok (some (.ofText kind sign))) true
  | word {c : Char} {text rest : List Char} (hstart : Text.isWordStart c) (hdigit : Text.isDigit c = false)
      (hparts : ∀ d ∈ text, Text.isWordPart d) (hend : Stops Text.isWordPart rest) :
      Lexes (c :: text) rest (.ok (some (wordToken (c :: text)))) true
  | integer {digits rest : List Char} (hne : digits ≠ []) (hdigits : ∀ d ∈ digits, Text.isDigit d)
      (hend : Stops Text.isDigit rest) (hpoint : Stops (· == '.') rest) : Lexes digits rest (integerToken digits) true
  | double {whole digits rest : List Char} (hne : whole ≠ []) (hwhole : ∀ d ∈ whole, Text.isDigit d)
      (hdigits : ∀ d ∈ digits, Text.isDigit d) (hend : Stops Text.isDigit rest) :
      Lexes (whole ++ '.' :: digits) rest (doubleToken (whole ++ '.' :: digits))
        (!digits.isEmpty && (Number.readFloat? (String.ofList (whole ++ '.' :: digits))).isSome)
  | fraction {digits rest : List Char} (hne : digits ≠ []) (hdigits : ∀ d ∈ digits, Text.isDigit d)
      (hend : Stops Text.isDigit rest) : Lexes ('.' :: digits) rest
        (.ok (some ⟨.double, .double ((Number.readFloat? (String.ofList ('.' :: digits))).getD 0)⟩))
        (Number.readFloat? (String.ofList ('.' :: digits))).isSome
  | text {text content rest : List Char} (h : Inside text content) :
      Lexes ('"' :: (text ++ ['"'])) rest (.ok (some (.ofText .string (String.ofList content)))) true
  | unopened : Lexes ['"'] [] (.ok (some (.ofText .string ""))) true
  | broken {line : Nat} {text : List Char} (h : (textBody line text).reports ≠ []) (content : String) :
      Lexes ('"' :: text.take ((textBody line text).length + 1)) (text.drop ((textBody line text).length + 1))
        (.ok (some (.ofText .string content))) false
  | ampersand {rest : List Char} (hend : Stops (· == '&') rest) :
      Lexes ['&'] rest (.error (.unexpectedOption "lineNumber")) true
  | stray {c : Char} {rest : List Char} (hc : c ∉ ['"', '/', '\n']) : Lexes [c] rest (.ok none) false

/-- An outcome that stops on the last character of a text. -/
def Outcome.Takes (outcome : Outcome) (scanner : Scanner) (text : List Char) (found : Except Fault (Option Token))
    (silent : Bool) : Prop :=
  outcome.token = found ∧ outcome.reports.isEmpty = silent ∧ outcome.scanner = scanner.advanceBy (text.length - 1)

/-- An outcome of one of the rules, which stops on the last character that was read. -/
def Outcome.IsRead (outcome : Outcome) (scanner : Scanner) : Prop :=
  ∃ count, outcome.scanner = scanner.advanceBy count ∧
    Lexes (scanner.rest.take (count + 1)) (scanner.rest.drop (count + 1)) outcome.token outcome.reports.isEmpty

variable {scanner : Scanner} {text rest digits : List Char} {c : Char} {kind : TokenKind}
variable {found : Except Fault (Option Token)} {silent : Bool} {token : Option Token}

/-! ### Numbers and words -/

theorem numberToken_eq_error {fault other : Fault} {value : Option Scalar} :
    numberToken kind fault value = .error other ↔ value = none ∧ other = fault := by
  cases value <;> simp [numberToken, eq_comm]

theorem numberToken_eq_ok {fault : Fault} {value : Option Scalar} (h : numberToken kind fault value = .ok token) :
    ∃ value, token = some ⟨kind, value⟩ := by
  cases value with
  | some value => exact ⟨value, (Except.ok.inj h).symm⟩
  | none => cases h

theorem scanNumber_integer (hdigits : ∀ d ∈ digits, Text.isDigit d) (hend : Stops Text.isDigit rest)
    (hpoint : Stops (· == '.') rest) (h : scanner.rest = digits ++ rest) :
    scanner.scanNumber.Takes scanner digits (integerToken digits) true := by
  unfold scanNumber integerToken
  simp only [h, takeWhile_run hdigits hend, List.drop_left, if_neg (ne_of_beq_false hpoint), List.take_left]
  cases Number.readInt? (String.ofList digits) <;> exact ⟨rfl, rfl, rfl⟩

theorem scanNumber_double {whole : List Char} (hwhole : ∀ d ∈ whole, Text.isDigit d)
    (hdigits : ∀ d ∈ digits, Text.isDigit d) (hend : Stops Text.isDigit rest)
    (h : scanner.rest = whole ++ '.' :: digits ++ rest) :
    scanner.scanNumber.Takes scanner (whole ++ '.' :: digits) (doubleToken (whole ++ '.' :: digits))
      (!digits.isEmpty && (Number.readFloat? (String.ofList (whole ++ '.' :: digits))).isSome) := by
  have hrest : scanner.rest = whole ++ '.' :: (digits ++ rest) := by rw [h, List.append_assoc, List.cons_append]
  have htake : scanner.rest.takeWhile Text.isDigit = whole := by
    rw [hrest, takeWhile_run hwhole (by simp only [Stops, List.headD_cons]; decide)]
  have hinside : scanner.rest.drop whole.length = '.' :: (digits ++ rest) := by rw [hrest, List.drop_left]
  have hlength : whole.length + 1 + digits.length = (whole ++ '.' :: digits).length := by
    simp only [List.length_append, List.length_cons]
    omega
  have htext : scanner.rest.take (whole.length + 1 + digits.length) = whole ++ '.' :: digits := by
    rw [hlength, h, List.take_left]
  have hmoved : (scanner.advanceBy whole.length).advanceBy digits.length =
      scanner.advanceBy ((whole ++ '.' :: digits).length - 1) := by
    rw [advanceBy_add, ← hlength]
    congr 1
    omega
  unfold scanNumber scanDouble doubleToken
  simp only [htake, hinside, rest_advanceBy, List.headD_cons, if_pos, List.tail_cons, takeWhile_run hdigits hend, htext, hmoved]
  cases Number.readFloat? (String.ofList (whole ++ '.' :: digits)) <;> cases digits <;> exact ⟨rfl, rfl, rfl⟩

theorem scanPoint_fraction (hne : digits ≠ []) (hdigits : ∀ d ∈ digits, Text.isDigit d) (hend : Stops Text.isDigit rest)
    (h : scanner.rest = '.' :: digits ++ rest) :
    scanner.scanPoint.Takes scanner ('.' :: digits)
      (.ok (some ⟨.double, .double ((Number.readFloat? (String.ofList ('.' :: digits))).getD 0)⟩))
      (Number.readFloat? (String.ofList ('.' :: digits))).isSome := by
  have htext : scanner.rest.take (1 + digits.length) = '.' :: digits := by
    rw [h, Nat.add_comm, ← List.length_cons, List.take_left]
  have htail : scanner.rest.tail = digits ++ rest := by rw [h, List.cons_append, List.tail_cons]
  unfold scanPoint
  simp only [htail, takeWhile_run hdigits hend, htext, if_neg (mt List.length_eq_zero_iff.1 hne)]
  cases Number.readFloat? (String.ofList ('.' :: digits)) <;> exact ⟨rfl, rfl, rfl⟩

theorem scanWord_eq (hparts : ∀ d ∈ text, Text.isWordPart d) (hend : Stops Text.isWordPart rest)
    (h : scanner.rest = c :: text ++ rest) :
    scanner.scanWord = ⟨scanner.advanceBy ((c :: text).length - 1), .ok (some (wordToken (c :: text))), []⟩ := by
  have htake : scanner.rest.take (1 + text.length) = c :: text := by
    rw [h, Nat.add_comm, ← List.length_cons, List.take_left]
  have htail : scanner.rest.tail = text ++ rest := by rw [h, List.cons_append, List.tail_cons]
  unfold scanWord lexeme wordToken
  simp only [htail, takeWhile_run hparts hend, htake, List.length_cons, Nat.add_sub_cancel_left, Nat.add_sub_cancel]

/-! ### Texts -/

theorem textBody_inside {content : List Char} (h : Inside text content) (line : Nat) (rest : List Char) :
    textBody line (text ++ '"' :: rest) = ⟨text.length, content, []⟩ := by
  have hhead : ∀ text : List Char, (text ++ '"' :: rest).headD endMark = (text ++ ['"']).headD endMark := by
    rintro (_ | ⟨first, others⟩) <;> rfl
  induction h generalizing line with
  | nil => rfl
  | plain hc hnext h ih =>
      rw [List.cons_append, textBody]
      · simp only [hhead, if_neg hnext, ih, List.length_cons, Nat.add_comm 1]
      · exact hc.1
      · exact fun _ _ hslash => absurd hslash hc.2
  | escape hc hnext h ih =>
      simp only [List.cons_append, textBody, hhead, if_neg hnext, ih, if_pos hc, List.length_cons, Nat.add_comm 2]
      rfl

theorem inside_textBody {line : Nat} (hne : text ≠ []) (hreports : (textBody line text).reports = []) :
    ∃ rest written content, text = written ++ '"' :: rest ∧ Inside written content := by
  have hhead : ∀ {written rest : List Char}, (written ++ '"' :: rest).headD endMark ≠ endMark →
      (written ++ ['"']).headD endMark ≠ endMark := by
    rintro (_ | ⟨first, others⟩) rest h <;> exact h
  have hsome : ∀ {rest : List Char}, rest.headD endMark ≠ endMark → rest ≠ [] := by rintro _ h rfl; exact h rfl
  fun_induction textBody line text with
  | case1 => exact absurd rfl hne
  | case2 line rest => exact ⟨rest, [], [], rfl, .nil⟩
  | case3 => simp at hreports
  | case4 line c rest line' value reports next hend body ih =>
      obtain ⟨hescape, hbody⟩ := List.append_eq_nil_iff.1 hreports
      obtain ⟨after, written, content, rfl, h⟩ := ih (hsome hend) hbody
      have hknown : escapable.contains c = true := by
        by_contra hunknown
        simp [reports, if_neg hunknown] at hescape
      exact ⟨after, '\\' :: c :: written, _, rfl, .escape hknown (hhead hend) h⟩
  | case5 => simp at hreports
  | case6 line c rest hquote hslash next hend body ih =>
      obtain ⟨after, written, content, rfl, h⟩ := ih (hsome hend) hreports
      refine ⟨after, c :: written, _, rfl, .plain ⟨hquote, ?_⟩ (hhead hend) h⟩
      rintro rfl
      obtain ⟨first, others, hcons⟩ := List.exists_cons_of_ne_nil (hsome hend)
      exact hslash first others rfl hcons

/-! ### Scanners read by the rules -/

theorem scanHere_default (hc : Text.isDigit c || Text.isWordStart c) (h : scanner.current = c) :
    scanner.scanHere = if Text.isDigit c then scanner.scanNumber else scanner.scanWord := by
  unfold scanHere
  split
  case h_25 =>
    rw [h]
    rcases Bool.or_eq_true_iff.1 hc with hdigit | hstart
    · rw [if_pos hdigit, if_pos hdigit]
    · rw [if_pos hstart]
  all_goals
    rename_i hcurrent
    rw [h] at hcurrent
    subst hcurrent
    exact absurd hc (by decide)

theorem scanHere_sign {sign : String} (hsign : (kind, sign) ∈ Lexeme.signs) (hend : Stops (goesOn sign) rest)
    (h : scanner.rest = sign.toList ++ rest) : scanner.scanHere = scanner.lexeme sign.toList.length kind := by
  have hdot : sign = "." → rest.takeWhile Text.isDigit = [] := by
    rintro rfl
    exact @takeWhile_run rest _ [] (by simp) hend
  simp only [Lexeme.signs, List.mem_cons, List.not_mem_nil, Prod.mk.injEq] at hsign
  repeat' rcases hsign with ⟨rfl, rfl⟩ | hsign
  all_goals
    simp at h
    have hcurrent := current_eq h
    have hpeek := peek_eq h
    unfold scanHere
    rw [hcurrent]
    simp [Stops, goesOn] at hend
    simp [stepOrAssign, either, scanPoint, hcurrent, hpeek, h, hend, hdot]

theorem scanHere_of_lexes (h : Lexes text rest found silent) (hrest : scanner.rest = text ++ rest)
    (hread : silent = true ∨ ∃ fault, found = .error fault) :
    scanner.scanHere.token = found ∧ scanner.scanHere.reports.isEmpty = silent ∧ scanner.scanHere.scanner.rest.tail = rest := by
  have hmoved : ∀ {outcome : Outcome}, text ≠ [] → outcome.Takes scanner text found silent →
      outcome.token = found ∧ outcome.reports.isEmpty = silent ∧ outcome.scanner.rest.tail = rest := by
    rintro outcome hne ⟨htoken, hreports, hmoved⟩
    refine ⟨htoken, hreports, ?_⟩
    rw [hmoved, rest_advanceBy, hrest, List.tail_drop, Nat.sub_add_cancel (List.length_pos_iff.2 hne), List.drop_left]
  have hnumber : ∀ {digits others : List Char}, digits ≠ [] → (∀ d ∈ digits, Text.isDigit d) →
      scanner.rest = digits ++ others → scanner.scanHere = scanner.scanNumber := by
    intro digits others hne hdigits hrest
    obtain ⟨first, more, rfl⟩ := List.exists_cons_of_ne_nil hne
    have hfirst := hdigits first List.mem_cons_self
    rw [scanHere_default (by simp [hfirst]) (current_eq hrest), if_pos hfirst]
  cases h with
  | finish | mark | unopened => simp [scanHere, current, hrest, endMark, scanText, textBody]
  | sign hsign hend =>
      have hne : ∀ entry ∈ Lexeme.signs, entry.2.toList ≠ [] := by decide
      refine hmoved (hne _ hsign) ?_
      rw [scanHere_sign hsign hend hrest, lexeme, hrest, List.take_left, String.ofList_toList]
      exact ⟨rfl, rfl, rfl⟩
  | word hstart hdigit hparts hend =>
      refine hmoved (List.cons_ne_nil _ _) ?_
      rw [scanHere_default (by simp [hstart]) (current_eq hrest), if_neg (by simp [hdigit]), scanWord_eq hparts hend hrest]
      exact ⟨rfl, rfl, rfl⟩
  | integer hne hdigits hend hpoint =>
      refine hmoved hne ?_
      rw [hnumber hne hdigits hrest]
      exact scanNumber_integer hdigits hend hpoint hrest
  | double hne hwhole hdigits hend =>
      refine hmoved (by simp) ?_
      rw [hnumber hne hwhole (hrest.trans (List.append_assoc _ _ _))]
      exact scanNumber_double hwhole hdigits hend hrest
  | fraction hne hdigits hend =>
      have hscan : scanner.scanHere = scanner.scanPoint := by simp [scanHere, current_eq hrest]
      refine hmoved (List.cons_ne_nil _ _) ?_
      rw [hscan]
      exact scanPoint_fraction hne hdigits hend hrest
  | @text text content _ h =>
      have hscan : scanner.scanHere = scanner.scanText := by simp [scanHere, current_eq hrest]
      have hinside : scanner.advance.rest = text ++ '"' :: rest := by simp [hrest]
      rw [hscan, scanText, hinside, textBody_inside h]
      exact ⟨rfl, rfl, by simp [hrest]⟩
  | ampersand hend =>
      have hpeek : scanner.peek ≠ '&' := peek_eq hrest ▸ ne_of_beq_false hend
      simp [scanHere, current_eq hrest, hpeek, hrest]
  | broken | stray => simp at hread

/-! ### One of the rules applies -/

theorem isRead_of {outcome : Outcome} (h : scanner.rest = text ++ rest) (hne : text ≠ [])
    (hread : Lexes text rest found silent) (htakes : outcome.Takes scanner text found silent) : outcome.IsRead scanner := by
  obtain ⟨rfl, rfl, hmoved⟩ := htakes
  refine ⟨_, hmoved, ?_⟩
  rwa [Nat.sub_add_cancel (List.length_pos_iff.2 hne), h, List.take_left, List.drop_left]

theorem isRead_lexeme (h : scanner.rest = text ++ rest) (hne : text ≠ [])
    (hsign : (kind, String.ofList text) ∈ Lexeme.signs) (hend : Stops (goesOn (String.ofList text)) rest) :
    (scanner.lexeme text.length kind).IsRead scanner := by
  have hread := Lexes.sign hsign hend
  rw [String.toList_ofList] at hread
  exact isRead_of h hne hread ⟨by rw [lexeme, h, List.take_left], rfl, rfl⟩

theorem isRead_scanNumber (h : scanner.rest = c :: rest) (hc : Text.isDigit c) : scanner.scanNumber.IsRead scanner := by
  obtain ⟨digits, rest, rfl, hdigits, hend⟩ := exists_run (p := Text.isDigit) (by decide) rest
  have hwhole : ∀ d ∈ c :: digits, Text.isDigit d := List.forall_mem_cons.2 ⟨hc, hdigits⟩
  by_cases hpoint : rest.headD endMark = '.'
  · obtain ⟨others, rfl⟩ := exists_cons hpoint (by decide)
    obtain ⟨fraction, rest, rfl, hfraction, hend⟩ := exists_run (p := Text.isDigit) (by decide) others
    have hrest : scanner.rest = c :: digits ++ '.' :: fraction ++ rest := by simp [h]
    exact isRead_of hrest (by simp) (.double (List.cons_ne_nil _ _) hwhole hfraction hend)
      (scanNumber_double hwhole hfraction hend hrest)
  · have hpoint := beq_false_of_ne hpoint
    exact isRead_of h (by simp) (.integer (List.cons_ne_nil _ _) hwhole hend hpoint) (scanNumber_integer hwhole hend hpoint h)

theorem isRead_scanPoint (h : scanner.rest = '.' :: rest) : scanner.scanPoint.IsRead scanner := by
  obtain ⟨digits, rest, rfl, hdigits, hend⟩ := exists_run (p := Text.isDigit) (by decide) rest
  rcases eq_or_ne digits [] with rfl | hne
  · have hdot : scanner.scanPoint = scanner.lexeme 1 .dot := by
      rw [scanPoint, h, List.tail_cons, takeWhile_run hdigits hend]
      rfl
    rw [hdot]
    exact isRead_lexeme (show scanner.rest = ['.'] ++ _ from h) (by simp) (by decide) hend
  · exact isRead_of h (List.cons_ne_nil _ _) (.fraction hne hdigits hend) (scanPoint_fraction hne hdigits hend h)

theorem isRead_scanText (h : scanner.rest = '"' :: rest) : scanner.scanText.IsRead scanner := by
  have hinside : scanner.advance.rest = rest := by rw [rest_advance, h, List.tail_cons]
  refine ⟨(textBody scanner.advance.line rest).length + 1, by simp only [scanText, hinside]; rfl, ?_⟩
  simp only [scanText, hinside, h, List.take_succ_cons, List.drop_succ_cons]
  rcases eq_or_ne rest [] with rfl | hne
  · exact .unopened
  by_cases hreports : (textBody scanner.advance.line rest).reports = []
  · obtain ⟨rest, written, content, rfl, hwritten⟩ := inside_textBody hne hreports
    rw [textBody_inside hwritten, List.append_cons, List.take_left' (by simp), List.drop_left' (by simp)]
    exact .text hwritten
  · rw [List.isEmpty_eq_false_iff.2 hreports]
    exact .broken hreports _

theorem isRead_scanHere (scanner : Scanner) : scanner.scanHere.IsRead scanner := by
  have hone : ∀ {c kind}, scanner.current = c → c ≠ endMark → (kind, String.ofList [c]) ∈ Lexeme.signs →
      goesOn (String.ofList [c]) scanner.peek = false → (scanner.lexeme 1 kind).IsRead scanner := by
    intro c kind hcurrent hc hsign hend
    obtain ⟨rest, hrest⟩ := exists_rest hcurrent hc
    exact isRead_lexeme (show scanner.rest = [c] ++ rest from hrest) (by simp) hsign (by rwa [Stops, ← peek_eq hrest])
  have htwo : ∀ {c d kind}, scanner.current = c → scanner.peek = d → c ≠ endMark ∧ d ≠ endMark →
      (kind, String.ofList [c, d]) ∈ Lexeme.signs → goesOn (String.ofList [c, d]) = (fun _ => false) →
      (scanner.lexeme 2 kind).IsRead scanner := by
    intro c d kind hcurrent hpeek ⟨hc, hd⟩ hsign hend
    obtain ⟨rest, hrest⟩ := exists_rest hcurrent hc
    obtain ⟨rest, rfl⟩ := exists_cons (peek_eq hrest ▸ hpeek) hd
    exact isRead_lexeme (show scanner.rest = [c, d] ++ rest from hrest) (by simp) hsign (by rw [Stops, hend])
  have hstray : ∀ {c reports}, scanner.current = c → c ≠ endMark → c ∉ ['"', '/', '\n'] → reports ≠ [] →
      Outcome.IsRead ⟨scanner, .ok none, reports⟩ scanner := by
    intro c reports hcurrent hend hc hreports
    obtain ⟨rest, hrest⟩ := exists_rest hcurrent hend
    exact isRead_of (show scanner.rest = [c] ++ rest from hrest) (by simp) (.stray hc)
      ⟨rfl, List.isEmpty_eq_false_iff.2 hreports, rfl⟩
  unfold scanHere stepOrAssign either
  split
  case h_1 hcurrent | h_2 hcurrent =>
    rw [hcurrent]
    split
    case isTrue hpeek => exact htwo hcurrent hpeek (by decide) (by decide) rfl
    case isFalse hsame =>
      split
      case isTrue hpeek => exact htwo hcurrent hpeek (by decide) (by decide) rfl
      case isFalse hpeek =>
        exact hone hcurrent (by decide) (by decide) (Bool.or_eq_false_iff.2 ⟨beq_false_of_ne hsame, beq_false_of_ne hpeek⟩)
  case h_7 hcurrent | h_8 hcurrent | h_9 hcurrent | h_10 hcurrent =>
    split
    case isTrue hpeek => exact htwo hcurrent hpeek (by decide) (by decide) rfl
    case isFalse hpeek => exact hone hcurrent (by decide) (by decide) (beq_false_of_ne hpeek)
  case h_11 hcurrent =>
    split
    case isTrue hpeek => exact htwo hcurrent hpeek (by decide) (by decide) rfl
    case isFalse hpeek =>
      obtain ⟨rest, hrest⟩ := exists_rest hcurrent (by decide)
      exact isRead_of (show scanner.rest = ['&'] ++ rest from hrest) (by simp)
        (.ampersand (beq_false_of_ne (peek_eq hrest ▸ hpeek))) ⟨rfl, rfl, rfl⟩
  case h_12 hcurrent =>
    split
    case isTrue hpeek => exact htwo hcurrent hpeek (by decide) (by decide) rfl
    case isFalse => exact hstray hcurrent (by decide) (by decide) (by simp)
  case h_13 hcurrent =>
    obtain ⟨rest, hrest⟩ := exists_rest hcurrent (by decide)
    exact isRead_scanText hrest
  case h_19 hcurrent =>
    obtain ⟨rest, hrest⟩ := exists_rest hcurrent (by decide)
    exact isRead_scanPoint hrest
  case h_24 hcurrent =>
    refine ⟨0, rfl, ?_⟩
    cases hrest : scanner.rest with
    | nil => exact .finish
    | cons first rest =>
        obtain rfl : first = endMark := current_eq hrest ▸ hcurrent
        exact .mark
  case h_25 _ _ _ hslash _ _ _ _ _ _ _ _ hquote _ _ _ _ _ _ _ _ _ hnewline hend =>
    obtain ⟨rest, hrest⟩ := exists_rest rfl hend
    split
    case isTrue hdigit => exact isRead_scanNumber hrest hdigit
    case isFalse hdigit =>
      split
      case isTrue hstart =>
        obtain ⟨parts, rest, rfl, hparts, hends⟩ := exists_run (p := Text.isWordPart) (by decide) rest
        rw [scanWord_eq hparts hends hrest]
        exact isRead_of hrest (by simp) (.word hstart (by simpa using hdigit) hparts hends) ⟨rfl, rfl, rfl⟩
      case isFalse => exact hstray rfl hend (by simpa using ⟨hquote, hslash, hnewline⟩) (by simp)
  all_goals
    rename_i hcurrent
    exact hone hcurrent (by decide) (by decide) rfl

theorem Lexes.of_nil (h : Lexes text rest found silent) (hnil : text = []) :
    rest = [] ∧ found = .ok (some (.ofText .eof "")) := by
  have hsigns : ∀ entry ∈ Lexeme.signs, entry.2.toList ≠ [] := by decide
  cases h with
  | finish => exact ⟨rfl, rfl⟩
  | sign hsign => exact absurd hnil (hsigns _ hsign)
  | integer hne => exact absurd hnil hne
  | _ => simp at hnil

theorem Lexes.ne_nil {token : Token} (h : Lexes text rest (.ok (some token)) silent) (hkind : token.kind ≠ .eof) :
    text ≠ [] := by
  intro hnil
  obtain rfl := Option.some.inj (Except.ok.inj (h.of_nil hnil).2)
  exact hkind rfl

/-- Only numbers and a lone ampersand stop a scanner. -/
theorem Lexes.fault {fault : Fault} (h : Lexes text rest found silent) (hfound : found = .error fault) :
    fault ≠ .outOfSteps := by
  cases h with
  | integer | double => simp [(numberToken_eq_error.1 hfound).2]
  | ampersand => simp [← Except.error.inj hfound]
  | _ => cases hfound

/-! ### Between tokens -/

/-- A text that starts a remark. -/
def IsRemark (text : List Char) : Prop :=
  text.headD endMark = '/' ∧ text.tail.headD endMark = '/'

/-- Blanks and a remark that are skipped before another text. -/
inductive Gap : List Char → List Char → Prop where
  | blanks {blanks rest : List Char} (hblanks : ∀ c ∈ blanks, c == ' ') (hend : Stops (· == ' ') rest)
      (hremark : ¬ IsRemark rest) : Gap blanks rest
  | remark {blanks text rest : List Char} (hblanks : ∀ c ∈ blanks, c == ' ') (htext : ∀ c ∈ text, inComment c)
      (hend : Stops inComment rest) : Gap (blanks ++ '/' :: '/' :: text) rest

/-- What stands before a token is skipped. -/
theorem skip_of_gap {gap : List Char} (hgap : Gap gap rest) (h : scanner.rest = gap ++ rest) :
    scanner.skipBlanks.skipComment = scanner.advanceBy gap.length := by
  cases hgap with
  | blanks hblanks hend hremark =>
      rw [skipBlanks, h, takeWhile_run hblanks hend, skipComment, if_neg]
      simpa [current, peek, h, IsRemark] using hremark
  | @remark blanks text _ hblanks htext hend =>
      rw [List.append_assoc] at h
      have hrest : (scanner.advanceBy blanks.length).rest = '/' :: '/' :: text ++ rest := by
        rw [rest_advanceBy, h, List.drop_left]
      have hall : ∀ c ∈ '/' :: '/' :: text, inComment c := by simpa [inComment, endMark] using htext
      have hstop : Stops (· == ' ') ('/' :: '/' :: text ++ rest) := rfl
      rw [skipBlanks, h, takeWhile_run hblanks hstop, skipComment, if_pos (by rw [current, peek, hrest]; rfl), hrest,
        takeWhile_run hall hend, advanceBy_add, List.length_append]

theorem exists_gap (text : List Char) : ∃ gap rest, text = gap ++ rest ∧ Gap gap rest := by
  obtain ⟨blanks, rest, rfl, hblanks, hend⟩ := exists_run (p := (· == ' ')) (by decide) text
  by_cases hremark : IsRemark rest
  · obtain ⟨rest, rfl⟩ := exists_cons hremark.1 (by decide)
    obtain ⟨rest, rfl⟩ := exists_cons hremark.2 (by decide)
    obtain ⟨text, rest, rfl, htext, hend⟩ := exists_run (p := inComment) (by decide) rest
    exact ⟨_, rest, by simp, .remark hblanks htext hend⟩
  · exact ⟨_, rest, rfl, .blanks hblanks hend hremark⟩

theorem scan_token (scanner : Scanner) : scanner.scan.token = scanner.skipBlanks.skipComment.scanHere.token := by
  unfold scan
  dsimp only
  split <;> rfl

theorem scan_reports (scanner : Scanner) : scanner.scan.reports = scanner.skipBlanks.skipComment.scanHere.reports := by
  unfold scan
  dsimp only
  split <;> rfl

/-- A text whose next token is read without a report, wherever the text stands. -/
def Offers (text : List Char) (token : Option Token) (rest : List Char) : Prop :=
  ∀ scanner : Scanner, scanner.rest = text →
    scanner.scan.token = .ok token ∧ scanner.scan.reports = [] ∧ scanner.scan.scanner.rest = rest

theorem offers_of_lexes {gap : List Char} (hgap : Gap gap (text ++ rest))
    (h : Lexes text rest (.ok token) true) : Offers (gap ++ (text ++ rest)) token rest := by
  intro scanner hrest
  have hskip : scanner.skipBlanks.skipComment.rest = text ++ rest := by
    rw [skip_of_gap hgap hrest, rest_advanceBy, hrest, List.drop_left]
  obtain ⟨htoken, hreports, hmoved⟩ := scanHere_of_lexes h hskip (.inl rfl)
  refine ⟨scanner.scan_token ▸ htoken, scanner.scan_reports ▸ List.isEmpty_iff.1 hreports, ?_⟩
  unfold scan
  simp only [htoken, rest_advance, hmoved]

/-- What a scanner does: it skips a gap and goes on to the last character of what one of the rules reads. -/
structure Scans (scanner : Scanner) (gap others : List Char) (count : Nat) : Prop where
  rest : scanner.rest = gap ++ others
  skips : Gap gap others
  start : scanner.skipBlanks.skipComment = scanner.advanceBy gap.length
  read : Lexes (others.take (count + 1)) (others.drop (count + 1)) scanner.scan.token scanner.scan.reports.isEmpty
  moved : ∀ {token}, scanner.scan.token = .ok token →
    scanner.scan.scanner = ({ scanner.advanceBy (gap.length + count) with last := token } : Scanner).advance

theorem exists_scans (scanner : Scanner) : ∃ gap others count, scanner.Scans gap others count := by
  obtain ⟨gap, others, hrest, hgap⟩ := exists_gap scanner.rest
  have hstart := skip_of_gap hgap hrest
  obtain ⟨count, hmoved, hread⟩ := isRead_scanHere scanner.skipBlanks.skipComment
  refine ⟨gap, others, count, hrest, hgap, hstart, ?_, fun {token} htoken => ?_⟩
  · rwa [← scan_token, ← scan_reports, hstart, rest_advanceBy, hrest, List.drop_left] at hread
  · rw [scan_token] at htoken
    unfold scan
    simp only [htoken]
    rw [hmoved, hstart, advanceBy_add]

theorem Scans.rest_scan {gap others : List Char} {count : Nat} (h : scanner.Scans gap others count)
    (htoken : scanner.scan.token = .ok token) : scanner.scan.scanner.rest = others.drop (count + 1) := by
  rw [h.moved htoken, rest_advance]
  show (scanner.advanceBy (gap.length + count)).rest.tail = _
  rw [rest_advanceBy, h.rest, List.tail_drop, Nat.add_assoc, ← List.drop_drop, List.drop_left]

theorem lexes_of_scan (hreports : scanner.scan.reports = []) (htoken : scanner.scan.token = .ok token) :
    ∃ gap text, scanner.rest = gap ++ (text ++ scanner.scan.scanner.rest) ∧ Gap gap (text ++ scanner.scan.scanner.rest) ∧
      Lexes text scanner.scan.scanner.rest (.ok token) true := by
  obtain ⟨gap, others, count, h⟩ := exists_scans scanner
  have hread := h.read
  rw [htoken, hreports, ← h.rest_scan htoken] at hread
  refine ⟨gap, others.take (count + 1), ?_, ?_, hread⟩
  · rw [h.rest_scan htoken, List.take_append_drop, h.rest]
  · rw [h.rest_scan htoken, List.take_append_drop]
    exact h.skips

theorem offers_of_scan (hreports : scanner.scan.reports = []) (htoken : scanner.scan.token = .ok token) :
    Offers scanner.rest token scanner.scan.scanner.rest := by
  obtain ⟨gap, text, hrest, hgap, h⟩ := lexes_of_scan hreports htoken
  exact hrest ▸ offers_of_lexes hgap h

end Scriptlet.Scanner
