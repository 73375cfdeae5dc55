import Scriptlet.Token.Lexer
import Mathlib.Tactic.Common

/-!
Lexemes: tokens together with the text that they are written with, and the characters that such texts are
made of.
-/

namespace Scriptlet

/-! ### Characters -/

namespace Text

variable {c : Char}

/-- What holds of the ten codes holds of every digit. -/
theorem of_isDigit {p : Nat → Prop} (hcodes : ∀ code < 128, 48 ≤ code → code ≤ 57 → p code) (h : c.isDigit) :
    p c.toNat := by
  simp only [Char.isDigit, Bool.and_eq_true, decide_eq_true_eq, UInt32.le_iff_toNat_le] at h
  exact hcodes c.toNat (Nat.lt_of_le_of_lt h.2 (by decide)) h.1 h.2

theorem isDigit_of_isDigit (h : c.isDigit) : isDigit c :=
  of_isDigit (p := fun code => digitRanges.containsCode code) (by decide) h

theorem isNumeral_of_isDigit (h : c.isDigit) : isNumeral c :=
  of_isDigit (p := fun code => numeralRanges.containsCode code) (by decide) h

/-- The decimal digits are the same everywhere. -/
theorem decimalValue?_of_isDigit (h : c.isDigit) : decimalValue? c = some (c.toNat - '0'.toNat) :=
  of_isDigit (p := fun code => (decimalRanges.offset? code).map (· % 10) = some (code - 48)) (by decide) h

theorem not_isBlank_of_isDigit (h : c.isDigit) : isBlank c = false :=
  of_isDigit (p := fun code => blankRanges.containsCode code = false) (by decide) h

/-- What holds of the codes of the plain letters holds of all of them. -/
theorem of_isAlpha {p : Nat → Prop}
    (hcodes : ∀ code < 128, (65 ≤ code ∧ code ≤ 90) ∨ (97 ≤ code ∧ code ≤ 122) → p code) (h : c.isAlpha) : p c.toNat := by
  have hcode : (65 ≤ c.toNat ∧ c.toNat ≤ 90) ∨ (97 ≤ c.toNat ∧ c.toNat ≤ 122) := by
    have h : (decide (c.val ≥ 65 ∧ c.val ≤ 90) || (c.val ≥ 97 && c.val ≤ 122)) = true := h
    simp only [Bool.or_eq_true, Bool.and_eq_true, decide_eq_true_eq, UInt32.le_iff_toNat_le, ge_iff_le] at h
    exact h
  exact hcodes c.toNat (by omega) hcode

theorem isLetter_of_isAlpha (h : c.isAlpha) : isLetter c :=
  of_isAlpha (p := fun code => letterRanges.containsCode code) (by decide) h

theorem not_isDigit_of_isAlpha (h : c.isAlpha) : isDigit c = false :=
  of_isAlpha (p := fun code => digitRanges.containsCode code = false) (by decide) h

end Text

/-! ### Lexemes -/

namespace Lexeme

/-- The words that are not free for names. -/
def reservedWords : List (TokenKind × String) :=
  [(.whileKey, "while"), (.functionKey, "function"), (.setKey, "set"), (.ifKey, "if"), (.elseKey, "else"),
    (.elifKey, "elif"), (.forKey, "for"), (.returnKey, "return"), (.breakKey, "break"), (.glitchKey, "glitch"),
    (.boolean, "true"), (.boolean, "false"), (.null, "null")]

/-- Operators, punctuation and the line break. -/
def signs : List (TokenKind × String) :=
  [(.assign, "="), (.plus, "+"), (.minus, "-"), (.asterisk, "*"), (.slash, "/"), (.modulo, "%"), (.power, "^"),
    (.equal, "=="), (.notEqual, "!="), (.less, "<"), (.lessEqual, "<="), (.greater, ">"), (.greaterEqual, ">="),
    (.increment, "++"), (.decrement, "--"), (.plusAssign, "+="), (.minusAssign, "-="),
    (.and, "&&"), (.or, "||"), (.not, "!"),
    (.leftBrace, "\x7b"), (.rightBrace, "\x7d"), (.leftParen, "("), (.rightParen, ")"), (.semicolon, ";"),
    (.comma, ","), (.dot, "."), (.colon, ":"), (.questionMark, "?"), (.newline, "\n")]

/-- A word of letters, digits and underscores that does not start with a digit. -/
def isWord : List Char → Bool
  | [] => false
  | first :: rest => (first.isAlpha || first == '_') && rest.all fun c => c.isAlphanum || c == '_'

def isNumber (digits : List Char) : Bool :=
  !digits.isEmpty && digits.all Char.isDigit

/-- Text that needs no escapes. -/
def isPlain (text : List Char) : Bool :=
  text.all fun c => c != '"' && c != '\\' && c != Scanner.endMark

end Lexeme

open Lexeme in
/-- A token that can be written down. -/
inductive Lexeme where
  | reserved (kind : TokenKind) (word : String) (h : (kind, word) ∈ reservedWords)
  | sign (kind : TokenKind) (text : String) (h : (kind, text) ∈ signs)
  | name (word : String) (hword : isWord word.toList) (hfree : word ∉ reservedWords.map Prod.snd)
  | integer (value : Nat) (h : (toString value).length ≤ 4300)
  | double (whole fraction : List Char) (hwhole : isNumber whole) (hfraction : isNumber fraction)
  | string (content : String) (h : isPlain content.toList)

namespace Lexeme

/-- The number that is written as two runs of digits with a point between them. -/
def decimal (whole fraction : List Char) : Float :=
  let digits := List.map fun c : Char => c.toNat - '0'.toNat
  Number.ofDecimalParts false (digits whole) (digits fraction) 0

def token : Lexeme → Token
  | .reserved kind word _ => .ofText kind word
  | .sign kind text _ => .ofText kind text
  | .name word _ _ => .ofText .identifier word
  | .integer value _ => ⟨.integer, .int value⟩
  | .double whole fraction _ _ => ⟨.double, .double (decimal whole fraction)⟩
  | .string content _ => .ofText .string content

def text : Lexeme → String
  | .reserved _ word _ => word
  | .sign _ text _ => text
  | .name word _ _ => word
  | .integer value _ => toString value
  | .double whole fraction _ _ => String.ofList (whole ++ '.' :: fraction)
  | .string content _ => "\"" ++ content ++ "\""

/-- Lexemes written one after the other, with a blank between them. -/
def print (lexemes : List Lexeme) : String :=
  String.intercalate " " (lexemes.map text)

/-! ### Numbers -/

variable {digits : List Char}

theorem isNumber_iff : isNumber digits ↔ digits ≠ [] ∧ ∀ c ∈ digits, c.isDigit := by
  simp [isNumber]

theorem readDigits?_eq (h : ∀ c ∈ digits, c.isDigit) :
    Number.readDigits? digits = some (digits.map fun c => c.toNat - '0'.toNat) := by
  induction digits with
  | nil => rfl
  | cons c rest ih =>
      have hc := Text.decimalValue?_of_isDigit (h c List.mem_cons_self)
      have hrest := ih fun d hd => h d (List.mem_cons_of_mem c hd)
      cases rest with
      | nil => simp [Number.readDigits?, hc]
      | cons d rest =>
          have hd : d ≠ '_' := by
            rintro rfl
            have := h '_' (by simp)
            simp [Char.isDigit] at this
          rw [Number.readDigits?, hc, hrest]
          · rfl
          · simp
          · simp [hd]

/-- There is nothing to trim off a text without white space. -/
theorem trimmed_eq {text : List Char} (h : ∀ c ∈ text, Text.isBlank c = false) :
    Number.trimmed (String.ofList text) = text := by
  have hdrop : ∀ other : List Char, (∀ c ∈ other, Text.isBlank c = false) → other.dropWhile Text.isBlank = other := by
    intro other hother
    cases other with
    | nil => rfl
    | cons c rest => exact List.dropWhile_cons_of_neg (by simp [hother c List.mem_cons_self])
  rw [Number.trimmed, Text.trimBlank, String.toList_ofList, String.toList_ofList, hdrop text h,
    hdrop text.reverse fun c hc => h c (List.mem_reverse.1 hc), List.reverse_reverse]

theorem splitSign_eq {c : Char} {rest : List Char} (h : c.isDigit) :
    Number.splitSign (c :: rest) = (false, c :: rest) := by
  unfold Number.splitSign
  split
  case h_1 heq =>
    obtain rfl := (List.cons.inj heq).1
    simp [Char.isDigit] at h
  case h_2 heq =>
    obtain rfl := (List.cons.inj heq).1
    simp [Char.isDigit] at h
  case h_3 => rfl

theorem ofDigits_toDigits (n : Nat) : Number.ofDigits ((Nat.toDigits 10 n).map fun c => c.toNat - '0'.toNat) = n := by
  have hvalue := Nat.ofDigitChars_ten_toDigits (n := n)
  rw [Nat.ofDigitChars] at hvalue
  rw [Number.ofDigits, List.foldl_map]
  exact hvalue

theorem readInt?_toDigits {n : Nat} (h : (Nat.toDigits 10 n).length ≤ 4300) :
    Number.readInt? (String.ofList (Nat.toDigits 10 n)) = some (n : Int) := by
  have hdigits : ∀ c ∈ Nat.toDigits 10 n, c.isDigit := fun c hc => Nat.isDigit_of_mem_toDigits (by decide) (by decide) hc
  have htrimmed := trimmed_eq fun c hc => Text.not_isBlank_of_isDigit (hdigits c hc)
  obtain ⟨c, rest, hcons⟩ := List.exists_cons_of_ne_nil (Nat.toDigits_ne_nil (n := n) (b := 10))
  have hsign : Number.splitSign (Nat.toDigits 10 n) = (false, Nat.toDigits 10 n) := by
    rw [hcons]
    exact splitSign_eq (hdigits c (hcons ▸ List.mem_cons_self))
  have hsome : ((Nat.toDigits 10 n).map fun c => c.toNat - '0'.toNat).isEmpty = false := by
    rw [hcons]
    rfl
  rw [Number.readInt?, htrimmed, hsign]
  simp only [readDigits?_eq hdigits, hsome, ofDigits_toDigits, Number.maxIntDigits, List.length_map, Bool.false_or,
    decide_eq_true_eq, Nat.not_lt.2 h, if_false, Bool.false_eq_true]

/-- A number is none of the words that stand for numbers. -/
theorem ofList_map_toLower_ne {c : Char} {rest word : List Char} (hc : c.isDigit) (hword : word.head? ∈ [some 'i', some 'n']) :
    String.ofList ((c :: rest).map Char.toLower) ≠ String.ofList word := by
  have hcodes : ∀ code < 128, 48 ≤ code → code ≤ 57 → some (Char.ofNat code).toLower ∉ [some 'i', some 'n'] := by decide
  simp only [Char.isDigit, Bool.and_eq_true, decide_eq_true_eq, UInt32.le_iff_toNat_le] at hc
  have hlower := hcodes c.toNat (Nat.lt_of_le_of_lt hc.2 (by decide)) hc.1 hc.2
  intro heq
  rw [← String.ofList_injective heq] at hword
  rw [Char.ofNat_toNat] at hlower
  exact hlower hword

theorem splitAtChar_of_not {text : List Char} {p : Char → Bool} (h : ∀ c ∈ text, p c = false) :
    Number.splitAtChar p text = (text, none) := by
  have hdrop : text.dropWhile (fun c => !p c) = [] := by
    rw [← List.append_nil text, List.dropWhile_append_of_pos fun c hc => by simp [h c hc]]
    rfl
  rw [Number.splitAtChar, hdrop]

theorem splitAtChar_of_mem {before after : List Char} {c : Char} {p : Char → Bool} (h : ∀ c ∈ before, p c = false)
    (hc : p c) : Number.splitAtChar p (before ++ c :: after) = (before, some after) := by
  have hbefore : ∀ d ∈ before, (!p d) = true := fun d hd => by simp [h d hd]
  have hdrop : (before ++ c :: after).dropWhile (fun c => !p c) = c :: after := by
    rw [List.dropWhile_append_of_pos hbefore, List.dropWhile_cons_of_neg (by simp [hc])]
  have htake : (before ++ c :: after).takeWhile (fun c => !p c) = before := by
    rw [List.takeWhile_append_of_pos hbefore, List.takeWhile_cons_of_neg (by simp [hc]), List.append_nil]
  rw [Number.splitAtChar, hdrop, htake]

theorem readFloat?_decimal {whole fraction : List Char} (hwhole : isNumber whole) (hfraction : isNumber fraction) :
    Number.readFloat? (String.ofList (whole ++ '.' :: fraction)) = some (decimal whole fraction) := by
  obtain ⟨hne, hwhole⟩ := isNumber_iff.1 hwhole
  obtain ⟨-, hfraction⟩ := isNumber_iff.1 hfraction
  have hmem : ∀ c ∈ whole ++ '.' :: fraction, c.isDigit ∨ c = '.' := by
    intro c hc
    rcases List.mem_append.1 hc with hc | hc
    · exact .inl (hwhole c hc)
    · rcases List.mem_cons.1 hc with rfl | hc
      · exact .inr rfl
      · exact .inl (hfraction c hc)
  have htrimmed : Number.trimmed (String.ofList (whole ++ '.' :: fraction)) = whole ++ '.' :: fraction := by
    refine trimmed_eq fun c hc => ?_
    rcases hmem c hc with h | rfl
    · exact Text.not_isBlank_of_isDigit h
    · decide
  obtain ⟨c, rest, rfl⟩ := List.exists_cons_of_ne_nil hne
  have hsign : Number.splitSign (c :: rest ++ '.' :: fraction) = (false, c :: rest ++ '.' :: fraction) :=
    splitSign_eq (hwhole c List.mem_cons_self)
  have hno : ∀ d : Char, d.isDigit ∨ d = '.' → (d == 'e' || d == 'E') = false := by
    rintro d (hd | rfl)
    · rw [Bool.or_eq_false_iff, beq_eq_false_iff_ne, beq_eq_false_iff_ne]
      constructor <;> rintro rfl <;> simp [Char.isDigit] at hd
    · decide
  have hpoint : ∀ d ∈ c :: rest, (d == '.') = false := by
    intro d hd
    rw [beq_eq_false_iff_ne]
    rintro rfl
    simpa [Char.isDigit] using hwhole '.' hd
  have hfirst := hwhole c List.mem_cons_self
  have hword : ∀ word : String, word.toList.head? ∈ [some 'i', some 'n'] →
      decide (String.ofList ((c :: rest ++ '.' :: fraction).map Char.toLower) = word) = false := by
    intro word hhead
    have hne : String.ofList ((c :: (rest ++ '.' :: fraction)).map Char.toLower) ≠ String.ofList word.toList :=
      ofList_map_toLower_ne hfirst hhead
    rw [String.ofList_toList] at hne
    exact decide_eq_false hne
  rw [Number.readFloat?, htrimmed, hsign]
  simp only [splitAtChar_of_not fun d hd => hno d (hmem d hd), splitAtChar_of_mem hpoint (beq_self_eq_true '.')]
  rw [hword "inf" (by decide), hword "infinity" (by decide), if_neg (by decide),
    if_neg (of_decide_eq_false (hword "nan" (by decide)))]
  simp only [Option.getD_some, readDigits?_eq hwhole, readDigits?_eq hfraction]
  rfl

end Lexeme

end Scriptlet
