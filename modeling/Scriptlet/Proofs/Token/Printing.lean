import Scriptlet.Proofs.Token.Spelling

/-!
Reading undoes writing: lexemes that are written with a blank between them are read as their tokens.

A lexeme is read the same whatever follows the blank or the line break behind it, since no token goes on
over either of them.
-/

namespace Scriptlet

namespace Scanner

variable {text rest : List Char} {word : String} {kind : TokenKind} {d : Char} {p : Char → Bool}

theorem stops_delimiter (hrest : isDelimiter (rest.headD endMark)) (hp : p ' ' = false ∧ p '\n' = false) : Stops p rest := by
  unfold Stops
  rcases hrest with hblank | hbreak
  · rw [hblank, hp.1]
  · rw [hbreak, hp.2]

/-! ### Words -/

theorem isWordPart_of (h : (d.isAlphanum || d == '_') = true) : Text.isWordPart d = true := by
  rw [Bool.or_eq_true, Char.isAlphanum, Bool.or_eq_true] at h
  unfold Text.isWordPart Text.isAlphanumeric
  rcases h with (h | h) | h
  · simp [Text.isLetter_of_isAlpha h]
  · simp [Text.isNumeral_of_isDigit h]
  · simp [h]

theorem lexes_word (hword : Lexeme.isWord word.toList) (hrest : isDelimiter (rest.headD endMark)) :
    Lexes word.toList rest (.ok (some (.ofText (wordKind word) word))) true := by
  obtain ⟨first, others, hcons⟩ : ∃ first others, word.toList = first :: others :=
    List.exists_cons_of_ne_nil fun hnil => by simp [hnil, Lexeme.isWord] at hword
  have hends : Stops Text.isWordPart rest := stops_delimiter hrest (by decide)
  have hread : ∀ hstart hdigit hparts, Lexes (first :: others) rest (.ok (some (wordToken (first :: others)))) true :=
    fun hstart hdigit hparts => .word hstart hdigit hparts hends
  rw [wordToken, ← hcons, String.ofList_toList] at hread
  simp only [hcons, Lexeme.isWord, Bool.and_eq_true, List.all_eq_true] at hword
  refine hread ?_ ?_ fun d hd => isWordPart_of (hword.2 d hd)
  · rcases Bool.or_eq_true_iff.1 hword.1 with hfirst | hfirst
    · simp [Text.isWordStart, Text.isLetter_of_isAlpha hfirst]
    · simp [Text.isWordStart, hfirst]
  · rcases Bool.or_eq_true_iff.1 hword.1 with hfirst | hfirst
    · exact Text.not_isDigit_of_isAlpha hfirst
    · rw [beq_iff_eq.1 hfirst]
      decide

theorem wordKind_reserved (h : (kind, word) ∈ Lexeme.reservedWords) :
    Lexeme.isWord word.toList ∧ wordKind word = kind := by
  have hall : ∀ entry ∈ Lexeme.reservedWords, Lexeme.isWord entry.2.toList ∧ wordKind entry.2 = entry.1 := by decide
  exact hall _ h

theorem wordKind_name (h : word ∉ Lexeme.reservedWords.map Prod.snd) : wordKind word = .identifier := by
  have hkeyword : TokenKind.keyword? word = none := by
    have hall : ∀ kind ∈ TokenKind.all, 100 ≤ kind.code → kind.code < 200 →
        kind.lowerName ∈ Lexeme.reservedWords.map Prod.snd := by decide
    rw [TokenKind.keyword?, TokenKind.named?, List.find?_eq_none]
    intro kind hkind hnamed
    simp only [Bool.and_eq_true, beq_iff_eq, decide_eq_true_eq] at hnamed
    exact h (hnamed.1.1 ▸ hall kind hkind hnamed.1.2 hnamed.2)
  have hne : ∀ other ∈ Lexeme.reservedWords.map Prod.snd, word ≠ other := fun other hother heq => h (heq ▸ hother)
  rw [wordKind, hkeyword, if_neg (by simp [hne "true" (by decide), hne "false" (by decide)]),
    if_neg (hne "null" (by decide))]
  rfl

/-- Plain text stands for itself. -/
theorem inside_plain (htext : Lexeme.isPlain text) : Inside text text := by
  induction text with
  | nil => exact .nil
  | cons c others ih =>
      simp only [Lexeme.isPlain, List.all_cons, Bool.and_eq_true, bne_iff_ne] at htext
      refine .plain htext.1.1 ?_ (ih htext.2)
      cases others with
      | nil => decide
      | cons d others =>
          simp only [List.all_cons, Bool.and_eq_true, bne_iff_ne] at htext
          exact htext.2.1.2

/-! ### Lexemes -/

theorem lexes_lexeme (lexeme : Lexeme) (hrest : isDelimiter (rest.headD endMark)) :
    Lexes lexeme.text.toList rest (.ok (some lexeme.token)) true := by
  have hdigits : ∀ {digits : List Char}, Lexeme.isNumber digits → digits ≠ [] ∧ ∀ d ∈ digits, Text.isDigit d := fun h =>
    ⟨(Lexeme.isNumber_iff.1 h).1, fun d hd => Text.isDigit_of_isDigit ((Lexeme.isNumber_iff.1 h).2 d hd)⟩
  have hends : Stops Text.isDigit rest := stops_delimiter hrest (by decide)
  cases lexeme with
  | reserved kind word hmem =>
      obtain ⟨hword, hkind⟩ := wordKind_reserved hmem
      have hread := lexes_word hword hrest
      rwa [hkind] at hread
  | sign kind text hsign => exact .sign hsign (stops_delimiter hrest (goesOn_delimiter _))
  | name word hword hfree =>
      have hread := lexes_word hword hrest
      rwa [wordKind_name hfree] at hread
  | integer value hlength =>
      rw [Nat.toString_eq_repr, Nat.repr, String.length_ofList] at hlength
      have hnumber : Lexeme.isNumber (Nat.toDigits 10 value) := Lexeme.isNumber_iff.2
        ⟨Nat.toDigits_ne_nil, fun d hd => Nat.isDigit_of_mem_toDigits (by decide) (by decide) hd⟩
      have hread := Lexes.integer (hdigits hnumber).1 (hdigits hnumber).2 hends (stops_delimiter hrest (by decide))
      rw [integerToken, Lexeme.readInt?_toDigits hlength] at hread
      rwa [Lexeme.text, Nat.toString_eq_repr, Nat.toList_repr]
  | double whole fraction hwhole hfraction =>
      have hread := Lexes.double (hdigits hwhole).1 (hdigits hwhole).2 (hdigits hfraction).2 hends
      rw [doubleToken, Lexeme.readFloat?_decimal hwhole hfraction, List.isEmpty_eq_false_iff.2 (hdigits hfraction).1] at hread
      rwa [Lexeme.text, String.toList_ofList]
  | string content hplain =>
      have hread : Lexes _ rest _ true := .text (inside_plain hplain)
      rw [String.ofList_toList] at hread
      simpa [Lexeme.text, Lexeme.token] using hread

/-- A token before a delimiter starts neither with a blank nor with a remark. -/
theorem Lexes.gap {found : Except Fault (Option Token)} {silent : Bool} {blanks : List Char} (h : Lexes text rest found silent)
    (hsilent : silent = true) (hne : text ≠ []) (hrest : isDelimiter (rest.headD endMark)) (hblanks : ∀ c ∈ blanks, c == ' ') :
    Gap blanks (text ++ rest) := by
  have hstart : ∀ {c : Char} {others : List Char}, text = c :: others → c ≠ ' ' ∧ (c = '/' → others = []) → Gap blanks (text ++ rest) := by
    rintro c others rfl ⟨hblank, hslash⟩
    refine .blanks hblanks (beq_false_of_ne hblank) fun ⟨hfirst, hsecond⟩ => ?_
    obtain rfl := hslash hfirst
    have hstops : Stops (· == '/') rest := stops_delimiter hrest ⟨rfl, rfl⟩
    exact ne_of_beq_false hstops hsecond
  have hdigit : ∀ {c : Char}, Text.isDigit c → c ≠ ' ' ∧ c ≠ '/' := by
    intro c hc
    constructor <;> rintro rfl <;> exact absurd hc (by decide)
  obtain ⟨c, others, htext⟩ := List.exists_cons_of_ne_nil hne
  refine hstart htext ?_
  cases h with
  | finish => cases htext
  | mark | unopened | text | fraction | ampersand =>
      obtain ⟨rfl, -⟩ := List.cons.inj htext
      exact ⟨by decide, fun h => absurd h (by decide)⟩
  | sign hsign =>
      have hsigns : ∀ entry ∈ Lexeme.signs, entry.2.toList.head? ≠ some ' ' ∧
        (entry.2.toList.head? = some '/' → entry.2.toList.tail = []) := by decide
      simpa [htext] using hsigns _ hsign
  | word hword =>
      obtain ⟨rfl, -⟩ := List.cons.inj htext
      exact ⟨by rintro rfl; exact absurd hword (by decide), by rintro rfl; exact absurd hword (by decide)⟩
  | integer _ hdigits =>
      have hfirst := hdigit (hdigits c (htext ▸ List.mem_cons_self))
      exact ⟨hfirst.1, fun h => absurd h hfirst.2⟩
  | @double whole _ _ hwhole hall =>
      obtain ⟨d, more, rfl⟩ := List.exists_cons_of_ne_nil hwhole
      obtain ⟨rfl, -⟩ := List.cons.inj htext
      have hfirst := hdigit (hall d List.mem_cons_self)
      exact ⟨hfirst.1, fun h => absurd h hfirst.2⟩
  | broken | stray => cases hsilent

end Scanner

/-! ### All lexemes -/

open Scanner

namespace Lexeme

/-- Lexemes written one after the other, with a blank before each of them. -/
def spaced (lexemes : List Lexeme) : List Char :=
  lexemes.flatMap fun lexeme => ' ' :: lexeme.text.toList

theorem spaced_cons (lexeme : Lexeme) (lexemes : List Lexeme) :
    spaced (lexeme :: lexemes) = ' ' :: lexeme.text.toList ++ spaced lexemes :=
  rfl

theorem toList_print (lexeme : Lexeme) (lexemes : List Lexeme) :
    (print (lexeme :: lexemes)).toList = lexeme.text.toList ++ spaced lexemes := by
  rw [print, String.toList_intercalate]
  induction lexemes generalizing lexeme with
  | nil => simp [spaced]
  | cons second lexemes ih =>
      have hsecond := ih second
      simp only [List.map_cons, List.intercalate_cons_cons] at hsecond ⊢
      rw [hsecond, spaced_cons]
      simp

theorem kind_token_ne (lexeme : Lexeme) : lexeme.token.kind ≠ .eof := by
  have hreserved : ∀ entry ∈ reservedWords, entry.1 ≠ .eof := by decide
  have hsigns : ∀ entry ∈ signs, entry.1 ≠ .eof := by decide
  cases lexeme with
  | reserved kind word h => exact hreserved _ h
  | sign kind text h => exact hsigns _ h
  | name | integer | double | string => simp [token, Token.ofText]

theorem spells_newline : Spells ['\n'] [.ofText .newline "\n", .ofText .eof ""] := by
  have hend : Spells ([] ++ ([] ++ [])) [.ofText .eof ""] :=
    .last (.blanks (by simp) rfl fun h => absurd h.1 (by decide)) .finish rfl
  have hread : Lexes "\n".toList [] (.ok (some (.ofText .newline "\n"))) true := .sign (by decide) rfl
  have hgap : Gap [] ("\n".toList ++ []) := .blanks (by simp) rfl fun h => absurd h.1 (by decide)
  exact .more hgap hread (by decide) hend

theorem isDelimiter_spaced (lexemes : List Lexeme) : isDelimiter ((spaced lexemes ++ ['\n']).headD endMark) := by
  cases lexemes with
  | nil => exact .inr rfl
  | cons => exact .inl rfl

theorem spells_spaced (lexemes : List Lexeme) :
    Spells (spaced lexemes ++ ['\n']) (lexemes.map token ++ [.ofText .newline "\n", .ofText .eof ""]) := by
  induction lexemes with
  | nil => exact spells_newline
  | cons lexeme lexemes ih =>
      have hread := lexes_lexeme lexeme (isDelimiter_spaced lexemes)
      have hgap : Gap [' '] _ := hread.gap rfl (hread.ne_nil lexeme.kind_token_ne) (isDelimiter_spaced lexemes) (by simp)
      rw [spaced_cons, List.append_assoc]
      show Spells ([' '] ++ (lexeme.text.toList ++ _)) _
      exact .more hgap hread lexeme.kind_token_ne ih

theorem length_le_print (lexemes : List Lexeme) : lexemes.length ≤ (print lexemes).length := by
  cases lexemes with
  | nil => exact Nat.zero_le _
  | cons lexeme lexemes =>
      have hprint : Spells ((print (lexeme :: lexemes)).toList ++ ['\n']) _ :=
        (spells_spaced (lexeme :: lexemes)).blank (by rw [toList_print, spaced_cons]; rfl)
      simpa [String.length_toList] using hprint.length_le

end Lexeme

namespace Reading

variable {reading : Reading}

/-- The text before the reading, up to blanks. -/
def Faces (reading : Reading) (text : List Char) : Prop :=
  reading.scanner.rest.dropWhile (· == ' ') = text.dropWhile (· == ' ')

theorem tokensWithin_lexemes {lexemes : List Lexeme} {count : Nat} (hcount : lexemes.length + 2 ≤ count)
    (h : reading.Faces (Lexeme.spaced lexemes ++ ['\n'])) :
    ∃ entries after, tokensWithin count reading = (entries, none, after) ∧
      entries.map Prod.fst = lexemes.map (some ∘ Lexeme.token) ++ [some (.ofText .newline "\n"), some (.ofText .eof "")] ∧
      after.journal = reading.journal := by
  obtain ⟨entries, after, htokens, hentries, hjournal⟩ :=
    tokensWithin_of_spells ((Lexeme.spells_spaced lexemes).blank h) (by simpa using hcount) rfl
  exact ⟨entries, after, htokens, by simpa using hentries, hjournal⟩

/-- Lexemes that are written down with a blank between them are read as their tokens, and after them the line
break and the end that close every text; nothing is reported. -/
theorem tokens_print (lexemes : List Lexeme) :
    ∃ entries last, tokens (Lexeme.print lexemes) = (entries, none, last) ∧
      entries.map Prod.fst = lexemes.map (some ∘ Lexeme.token) ++ [some (.ofText .newline "\n"), some (.ofText .eof "")] ∧
      last.journal = {} := by
  refine tokensWithin_lexemes (Nat.add_le_add_right (Lexeme.length_le_print lexemes) 2) ?_
  cases lexemes with
  | nil => rfl
  | cons lexeme lexemes =>
      rw [Faces, Lexeme.spaced_cons]
      show ((Lexeme.print (lexeme :: lexemes)).toList ++ ['\n']).dropWhile (· == ' ') = _
      rw [Lexeme.toList_print, List.cons_append, List.cons_append, List.dropWhile_cons_of_pos (by decide)]

end Reading

end Scriptlet
