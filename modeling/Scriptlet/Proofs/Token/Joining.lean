import Scriptlet.Proofs.Token.Lexing

/-!
What stands behind a token: a token is read the same before a text that starts alike or with a delimiter.
Only the line break ends in a line break, and so the tokens of a text that ends in one do not depend on
what stands behind it.
-/

namespace Scriptlet.Scanner

variable {alone joined : Scanner} {gap text rest other tail : List Char} {c : Char} {p : Char → Bool}
variable {token : Option Token} {found : Except Fault (Option Token)} {silent : Bool}

/-- A character that ends every token before it. -/
def isDelimiter (c : Char) : Prop :=
  c = ' ' ∨ c = '\n'

/-- A text that can stand behind a token in the place of another one. -/
def Replaces (other rest : List Char) : Prop :=
  rest ≠ [] ∧ (other.headD endMark = rest.headD endMark ∨ isDelimiter (other.headD endMark))

theorem Replaces.stops (h : Replaces other rest) (hp : p ' ' = false ∧ p '\n' = false) (hrest : Stops p rest) :
    Stops p other := by
  unfold Stops at hrest ⊢
  rcases h.2 with hsame | hblank | hbreak
  · rw [hsame, hrest]
  · rw [hblank, hp.1]
  · rw [hbreak, hp.2]

theorem goesOn_delimiter (sign : String) : goesOn sign ' ' = false ∧ goesOn sign '\n' = false := by
  unfold goesOn
  split <;> decide

theorem Lexes.replace (h : Lexes text rest found silent)
    (hsilent : silent = true) (hother : Replaces other rest) : Lexes text other found silent := by
  cases h with
  | finish | unopened => exact absurd rfl hother.1
  | mark => exact .mark
  | sign hsign hend => exact .sign hsign (hother.stops (goesOn_delimiter _) hend)
  | word hstart hdigit hparts hend => exact .word hstart hdigit hparts (hother.stops (by decide) hend)
  | integer hne hdigits hend hpoint =>
      exact .integer hne hdigits (hother.stops (by decide) hend) (hother.stops (by decide) hpoint)
  | double hne hwhole hdigits hend => exact .double hne hwhole hdigits (hother.stops (by decide) hend)
  | fraction hne hdigits hend => exact .fraction hne hdigits (hother.stops (by decide) hend)
  | text h => exact .text h
  | ampersand hend => exact .ampersand (hother.stops (by decide) hend)
  | broken | stray => cases hsilent

theorem Gap.replace (h : Gap gap (c :: text ++ rest)) (hother : c = '/' → Replaces other rest) :
    Gap gap (c :: text ++ other) := by
  cases h with
  | remark hblanks htext hend => exact .remark hblanks htext hend
  | blanks hblanks hend hremark =>
      refine .blanks hblanks hend fun ⟨hfirst, hsecond⟩ => ?_
      cases text with
      | nil =>
          have hrest : Stops (· == '/') rest := beq_false_of_ne fun hrest => hremark ⟨hfirst, hrest⟩
          have hstops : Stops (· == '/') other := (hother hfirst).stops ⟨rfl, rfl⟩ hrest
          exact ne_of_beq_false hstops hsecond
      | cons second others => exact hremark ⟨hfirst, hsecond⟩

/-! ### Lines -/

/-- Lines that are all closed by a line break, without an end mark among them. -/
structure IsLines (text : List Char) : Prop where
  notMem : endMark ∉ text
  closed : text = [] ∨ ∃ body, text = body ++ ['\n']

theorem IsLines.drop (h : IsLines text) (count : Nat) : IsLines (text.drop count) := by
  refine ⟨fun hmem => h.notMem (List.mem_of_mem_drop hmem), ?_⟩
  rcases h.closed with rfl | ⟨body, rfl⟩
  · exact .inl List.drop_nil
  · rcases Nat.lt_or_ge body.length count with hlong | hshort
    · exact .inl (List.drop_eq_nil_of_le (by simpa using Nat.succ_le_of_lt hlong))
    · exact .inr ⟨body.drop count, List.drop_append_of_le_length hshort⟩

theorem Gap.newline_notMem (h : Gap gap rest) : '\n' ∉ gap := by
  cases h with
  | blanks hblanks => exact fun hmem => absurd (hblanks _ hmem) (by decide)
  | remark hblanks htext =>
      simp only [List.mem_append, List.mem_cons, not_or]
      exact ⟨fun hmem => absurd (hblanks _ hmem) (by decide), by decide, by decide,
        fun hmem => absurd (htext _ hmem) (by decide)⟩

/-- Only the line break ends in a line break. -/
theorem Lexes.newline (h : Lexes text rest found silent)
    (hsilent : silent = true) (hlast : text.getLast? = some '\n') :
    text = ['\n'] ∧ found = .ok (some (.ofText .newline "\n")) := by
  have hmem := List.mem_of_getLast? hlast
  have hdigits : ∀ {digits : List Char}, (∀ d ∈ digits, Text.isDigit d) → '\n' ∉ digits :=
    fun h hmem => absurd (h _ hmem) (by decide)
  cases h with
  | finish | mark | unopened | ampersand => simp [endMark] at hmem
  | sign hsign =>
      have hsigns : ∀ entry ∈ Lexeme.signs, entry.2.toList.getLast? = some '\n' → entry = (.newline, "\n") := by decide
      obtain ⟨rfl, rfl⟩ := Prod.mk.inj (hsigns _ hsign hlast)
      exact ⟨rfl, rfl⟩
  | word hstart _ hparts =>
      rcases List.mem_cons.1 hmem with rfl | hmem
      · exact absurd hstart (by decide)
      · exact absurd (hparts _ hmem) (by decide)
  | integer _ hall => exact absurd hmem (hdigits hall)
  | double _ hwhole hall => simp [hdigits hwhole, hdigits hall] at hmem
  | fraction _ hall => simp [hdigits hall] at hmem
  | text =>
      rw [← List.cons_append, List.getLast?_concat] at hlast
      exact absurd hlast (by decide)
  | broken | stray => cases hsilent

theorem wordKind_ne {kind : TokenKind} (hkind : kind = .eof ∨ kind = .newline) (word : String) : wordKind word ≠ kind := by
  unfold wordKind
  split
  · rcases hkind with rfl | rfl <;> simp
  · split
    · rcases hkind with rfl | rfl <;> simp
    · cases hkey : TokenKind.keyword? word with
      | none => rcases hkind with rfl | rfl <;> simp
      | some found =>
          have hfound := List.find?_some hkey
          rintro rfl
          rcases hkind with rfl | rfl <;> simp [TokenKind.code] at hfound

/-- The end is read only at the end mark. -/
theorem Lexes.alive (h : Lexes text rest found silent) (hsilent : silent = true) (hfound : found = .ok token) :
    ∃ found, token = some found ∧ (found.kind = .eof → text = [] ∨ text = [endMark]) := by
  cases h with
  | finish => exact ⟨_, (Except.ok.inj hfound).symm, fun _ => .inl rfl⟩
  | mark => exact ⟨_, (Except.ok.inj hfound).symm, fun _ => .inr rfl⟩
  | sign hsign =>
      have hsigns : ∀ entry ∈ Lexeme.signs, entry.1 ≠ .eof := by decide
      exact ⟨_, (Except.ok.inj hfound).symm, fun heof => absurd heof (hsigns _ hsign)⟩
  | word => exact ⟨_, (Except.ok.inj hfound).symm, fun heof => absurd heof (wordKind_ne (.inl rfl) _)⟩
  | integer | double =>
      obtain ⟨value, rfl⟩ := numberToken_eq_ok hfound
      exact ⟨_, rfl, by simp⟩
  | fraction | text | unopened => exact ⟨_, (Except.ok.inj hfound).symm, by simp [Token.ofText]⟩
  | ampersand => cases hfound
  | broken | stray => cases hsilent

/-- A token that is read from closed lines, and the last one of them. -/
theorem Lexes.closed {body : List Char} (h : Lexes text rest found true)
    (hgap : Gap gap (text ++ rest)) (hbody : gap ++ (text ++ rest) = body ++ ['\n']) :
    text ≠ [] ∧ (rest = [] → text = ['\n'] ∧ found = .ok (some (.ofText .newline "\n"))) := by
  have hne : text ≠ [] := by
    rintro rfl
    obtain ⟨rfl, -⟩ := h.of_nil rfl
    rw [List.append_nil, List.append_nil] at hbody
    exact hgap.newline_notMem (by simp [hbody])
  refine ⟨hne, ?_⟩
  rintro rfl
  have hlast := congrArg List.getLast? hbody
  rw [List.append_nil, List.getLast?_append, List.getLast?_concat, List.getLast?_eq_some_getLast hne, Option.some_or] at hlast
  exact h.newline rfl (List.getLast?_eq_some_getLast hne ▸ hlast)

/-- Reading a token from lines leaves lines, and the last token is a line break. -/
theorem scan_isLines (hlines : IsLines alone.rest) (hne : alone.rest ≠ []) (hreports : alone.scan.reports = [])
    (htoken : alone.scan.token = .ok token) :
    IsLines alone.scan.scanner.rest ∧ ∃ found, token = some found ∧ found.kind ≠ .eof ∧
      (alone.scan.scanner.rest = [] → found.kind = .newline) := by
  obtain ⟨gap, text, hrest, hgap, h⟩ := lexes_of_scan hreports htoken
  obtain ⟨body, hbody⟩ := hlines.closed.resolve_left hne
  obtain ⟨hsome, hlast⟩ := h.closed hgap (hrest ▸ hbody)
  have hmark : endMark ∉ text := fun hmem => hlines.notMem (by simp [hrest, hmem])
  obtain ⟨found, rfl, hkind⟩ := h.alive rfl rfl
  refine ⟨?_, found, rfl, fun heof => ?_, fun hend => ?_⟩
  · have hdrop := hlines.drop (gap ++ text).length
    rwa [hrest, ← List.append_assoc, List.drop_left] at hdrop
  · rcases hkind heof with rfl | rfl
    · exact hsome rfl
    · simp at hmark
  · obtain rfl := Option.some.inj (Except.ok.inj (hlast hend).2)
    rfl

/-- A text that can be read before `tail`: it ends in a line break, or there is nothing behind it. -/
def Joins (text tail : List Char) : Prop :=
  tail = [] ∨ ∃ body, text = body ++ ['\n']

theorem IsLines.joins (h : IsLines text) (hne : text ≠ []) (tail : List Char) : Joins text tail :=
  .inr (h.closed.resolve_left hne)

/-- A token that is read without a report is read the same before another text. -/
theorem scan_append (h : joined.rest = alone.rest ++ tail) (hjoin : Joins alone.rest tail)
    (hreports : alone.scan.reports = []) (htoken : alone.scan.token = .ok token) :
    joined.scan.token = .ok token ∧ joined.scan.reports = [] ∧
      joined.scan.scanner.rest = alone.scan.scanner.rest ++ tail := by
  obtain ⟨gap, text, hrest, hgap, hread⟩ := lexes_of_scan hreports htoken
  generalize alone.scan.scanner.rest = rest at *
  have hjoined : joined.rest = gap ++ (text ++ (rest ++ tail)) := by simp [h, hrest]
  rcases hjoin with rfl | ⟨body, hbody⟩
  · rw [List.append_nil] at hjoined ⊢
    exact offers_of_lexes hgap hread joined hjoined
  · obtain ⟨hne, hlast⟩ := hread.closed hgap (hrest ▸ hbody)
    obtain ⟨c, text, rfl⟩ := List.exists_cons_of_ne_nil hne
    rcases eq_or_ne rest [] with rfl | hsome
    · obtain ⟨⟨⟩, hnewline⟩ := hlast rfl
      obtain rfl := Except.ok.inj hnewline
      have hsign : (TokenKind.newline, "\n") ∈ Lexeme.signs := by decide
      exact offers_of_lexes (hgap.replace nofun) (.sign hsign rfl) joined hjoined
    · have hother : Replaces (rest ++ tail) rest := by
        obtain ⟨d, rest, rfl⟩ := List.exists_cons_of_ne_nil hsome
        exact ⟨hsome, .inl rfl⟩
      exact offers_of_lexes (hgap.replace fun _ => hother) (hread.replace rfl hother) joined hjoined

theorem scan_of_rest_nil (h : alone.rest = []) :
    alone.scan.token = .ok (some (.ofText .eof "")) ∧ alone.scan.reports = [] ∧ alone.scan.scanner.rest = [] :=
  have hgap : Gap [] [] := .blanks (by simp) rfl (by simp [IsRemark, endMark])
  offers_of_lexes hgap .finish alone h

end Scriptlet.Scanner
