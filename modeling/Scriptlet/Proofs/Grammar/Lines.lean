import Scriptlet.Proofs.Grammar.Onward

/-!
The lines that are counted.

The scanner counts a line break when it comes to it, and a cursor when it comes to the token of one.  The
breaks inside text literals make no tokens.  They are told apart from the others by a `Survey` of the
text, which goes over it character by character and knows nothing of tokens.
-/

namespace Scriptlet

/-- Where a character of a text stands. -/
inductive Zone where
  | code
  | slash
  | remark
  | opening
  | literal
  | escape
  deriving DecidableEq

namespace Zone

/-- The zone behind a character. -/
def next (zone : Zone) (c : Char) : Zone :=
  match zone with
  | code => if c = '"' then opening else if c = '/' then slash else code
  | slash => if c = '"' then opening else if c = '/' then remark else code
  | remark => if Scanner.inComment c then remark else code
  | opening => if c = '"' then code else if c = '\\' then escape else literal
  | literal => if c = '"' ∨ c = Scanner.endMark then code else if c = '\\' then escape else literal
  | escape => literal

def isText : Zone → Bool
  | opening | literal | escape => true
  | _ => false

end Zone

/-- The line breaks of a text that are outside its text literals, and the zone behind it. -/
structure Survey where
  breaks : Nat
  zone : Zone
  deriving DecidableEq

namespace Survey

def pass (survey : Survey) (c : Char) : Survey :=
  ⟨if c = '\n' ∧ survey.zone.isText = false then survey.breaks + 1 else survey.breaks, survey.zone.next c⟩

def ofText (text : List Char) : Survey :=
  text.foldl pass ⟨0, .code⟩

/-- Before another text a survey may start afresh. -/
def Meets (survey : Survey) (rest : List Char) : Prop :=
  ∀ c ∈ rest.head?, survey.pass c = pass ⟨survey.breaks, .code⟩ c

/-- A text with so many line breaks outside text literals, behind which a survey may start afresh. -/
def Crosses (text rest : List Char) (breaks : Nat) : Prop :=
  ∀ before, (text.foldl pass ⟨before, .code⟩).breaks = before + breaks ∧ Meets (text.foldl pass ⟨before, .code⟩) rest

variable {survey : Survey} {text rest : List Char} {breaks : Nat} {c : Char}

theorem Crosses.of_meets (h : Crosses text rest breaks) (hmeets : survey.Meets (text ++ rest)) :
    (text.foldl pass survey).breaks = survey.breaks + breaks ∧ (text.foldl pass survey).Meets rest := by
  cases text with
  | nil => exact ⟨(h survey.breaks).1, hmeets⟩
  | cons c text =>
      rw [List.foldl_cons, hmeets c rfl]
      exact h survey.breaks

theorem foldl_plain (h : ∀ c ∈ text, c ∉ ['"', '/', '\n']) (before : Nat) :
    text.foldl pass ⟨before, .code⟩ = ⟨before, .code⟩ := by
  induction text with
  | nil => rfl
  | cons c text ih =>
      have hc := h c List.mem_cons_self
      simp only [List.mem_cons, List.not_mem_nil, or_false, not_or] at hc
      rw [List.foldl_cons, pass, if_neg (fun hbreak => hc.2.2 hbreak.1), Zone.next, if_neg hc.1, if_neg hc.2.1]
      exact ih fun d hd => h d (List.mem_cons_of_mem _ hd)

theorem crosses_plain (h : ∀ c ∈ text, c ∉ ['"', '/', '\n']) : Crosses text rest 0 := by
  intro before
  rw [foldl_plain h]
  exact ⟨rfl, fun _ _ => rfl⟩

end Survey

namespace Scanner

variable {scanner : Scanner} {text rest gap : List Char} {zone : Zone}

theorem Gap.not_isRemark (h : Gap gap rest) : ¬ IsRemark rest := by
  cases h with
  | blanks _ _ hremark => exact hremark
  | remark _ _ hend =>
      rintro ⟨hslash, -⟩
      rw [Stops, hslash] at hend
      exact absurd hend (by decide)

theorem Gap.crosses (h : Gap gap rest) : Survey.Crosses gap rest 0 := by
  have hplain : ∀ {blanks : List Char}, (∀ c ∈ blanks, c == ' ') → ∀ c ∈ blanks, c ∉ ['"', '/', '\n'] := by
    intro blanks hblanks c hc
    rw [beq_iff_eq.1 (hblanks c hc)]
    decide
  cases h with
  | blanks hblanks => exact Survey.crosses_plain (hplain hblanks)
  | @remark blanks text _ hblanks htext hend =>
      intro before
      have hstay : text.foldl Survey.pass ⟨before, .remark⟩ = ⟨before, .remark⟩ := by
        induction text with
        | nil => rfl
        | cons c text ih =>
            have hc := htext c List.mem_cons_self
            have hbreak : c ≠ '\n' := by rintro rfl; exact absurd hc (by decide)
            rw [List.foldl_cons, Survey.pass, if_neg (fun h => hbreak h.1), Zone.next, if_pos hc]
            exact ih fun d hd => htext d (List.mem_cons_of_mem _ hd)
      rw [List.foldl_append, Survey.foldl_plain (hplain hblanks)]
      show (text.foldl Survey.pass ⟨before, .remark⟩).breaks = _ ∧
        Survey.Meets (text.foldl Survey.pass ⟨before, .remark⟩) rest
      rw [hstay]
      refine ⟨rfl, fun c hc => ?_⟩
      have hout : inComment c = false := by
        cases rest with
        | nil => cases hc
        | cons d rest => exact Option.some.inj hc ▸ hend
      rcases Bool.and_eq_false_iff.1 hout with hbreak | hmark
      · rw [bne_eq_false_iff_eq.1 hbreak]
        rfl
      · rw [bne_eq_false_iff_eq.1 hmark]
        rfl

/-- A zone that is left behind so many characters of a text, without a line break that counts. -/
def Leaves (zone : Zone) (text : List Char) (count : Nat) : Prop :=
  ∀ before, ((text.take count).foldl Survey.pass ⟨before, zone⟩).breaks = before ∧
    Survey.Meets ((text.take count).foldl Survey.pass ⟨before, zone⟩) (text.drop count)

theorem Leaves.cons {zone' : Zone} {c : Char} {count : Nat} (hc : ∀ before, Survey.pass ⟨before, zone⟩ c = ⟨before, zone'⟩)
    (h : Leaves zone' text count) : Leaves zone (c :: text) (count + 1) := by
  intro before
  rw [List.take_succ_cons, List.foldl_cons, hc, List.drop_succ_cons]
  exact h before

/-- A text literal that is broken off is left at the end mark. -/
theorem leaves_broken (hend : text.headD endMark = endMark) : Leaves .literal text 1 := by
  intro before
  cases text with
  | nil => exact ⟨rfl, fun c hc => by cases hc⟩
  | cons c text =>
      obtain rfl : c = endMark := hend
      exact ⟨rfl, fun _ _ => rfl⟩

theorem leaves_textBody {line : Nat} (hzone : zone = .opening ∨ zone = .literal ∧ text.headD endMark ≠ endMark) :
    Leaves zone text ((textBody line text).length + 1) := by
  have hescape : ∀ {zone : Zone}, zone = .opening ∨ zone = .literal →
      ∀ before, Survey.pass ⟨before, zone⟩ '\\' = ⟨before, .escape⟩ := by
    rintro _ (rfl | rfl) before <;> rfl
  have hescaped : ∀ (c : Char) (before : Nat), Survey.pass ⟨before, .escape⟩ c = ⟨before, .literal⟩ := by
    intro c before
    simp [Survey.pass, Zone.isText, Zone.next]
  have hplain : ∀ {zone : Zone} {c : Char} {text : List Char},
      zone = .opening ∨ zone = .literal ∧ (c :: text).headD endMark ≠ endMark → c ≠ '"' → c ≠ '\\' → ∀ before,
      Survey.pass ⟨before, zone⟩ c = ⟨before, .literal⟩ := by
    rintro zone c text (rfl | ⟨rfl, hc⟩) hquote hslash before <;> simp_all [Survey.pass, Zone.isText, Zone.next]
  fun_induction textBody line text generalizing zone with
  | case1 => exact fun before => ⟨rfl, fun c hc => by cases hc⟩
  | case2 => rcases hzone with rfl | ⟨rfl, -⟩ <;> exact fun before => ⟨rfl, fun _ _ => rfl⟩
  | case3 =>
      rename_i hend
      exact .cons (hescape (hzone.imp_right And.left)) (.cons (hescaped _) (leaves_broken hend))
  | case4 =>
      rename_i hend body ih
      rw [Nat.add_comm 2]
      exact .cons (hescape (hzone.imp_right And.left)) (.cons (hescaped _) (ih (.inr ⟨rfl, hend⟩)))
  | case5 line c rest hquote hslash next =>
      rename_i hend
      cases rest with
      | nil =>
          exact fun before => by rcases hzone with rfl | ⟨rfl, -⟩ <;> simp [Survey.pass, Survey.Meets, Zone.isText]
      | cons d rest => exact .cons (hplain hzone hquote fun hc => hslash d rest hc rfl) (leaves_broken hend)
  | case6 line c rest hquote hslash next =>
      rename_i hend body ih
      rw [Nat.add_comm 1]
      obtain ⟨d, rest, rfl⟩ : ∃ d others, rest = d :: others :=
        List.exists_cons_of_ne_nil (by rintro rfl; exact hend rfl)
      exact .cons (hplain hzone hquote fun hc => hslash d rest hc rfl) (ih (.inr ⟨rfl, hend⟩))

end Scanner

/-- The lines that a token ends. -/
def Token.lines (token : Option Token) : Nat :=
  if (token.map Token.kind).any [TokenKind.newline].contains then 1 else 0

namespace Scanner

variable {scanner : Scanner} {text rest gap : List Char} {token : Option Token}

theorem lines_eq_zero {token : Token} (h : token.kind ≠ .newline) : Token.lines (some token) = 0 := by
  simp [Token.lines, h]

theorem Lexes.crosses {found : Except Fault (Option Token)} {silent : Bool} (h : Lexes text rest found silent)
    (hremark : ¬ IsRemark (text ++ rest)) (hfound : found = .ok token) : Survey.Crosses text rest (Token.lines token) := by
  have hclass : ∀ {p : Char → Bool} {c : Char}, ['"', '/', '\n'].all (!p ·) → p c → c ∉ ['"', '/', '\n'] :=
    fun hp hc hmem => by simpa [hc] using List.all_eq_true.1 hp _ hmem
  have hdigit : ∀ {c : Char}, Text.isDigit c → c ∉ ['"', '/', '\n'] := hclass (by decide)
  have htext : ∀ (line : Nat) (text : List Char), Survey.Crosses ('"' :: text.take ((textBody line text).length + 1))
      (text.drop ((textBody line text).length + 1)) 0 := fun _ _ before => leaves_textBody (.inl rfl) before
  cases h with
  | finish =>
      obtain rfl := Except.ok.inj hfound
      exact fun before => ⟨rfl, fun c hc => by cases hc⟩
  | mark =>
      obtain rfl := Except.ok.inj hfound
      exact Survey.crosses_plain (by simp [endMark])
  | @sign kind sign _ hsign =>
      obtain rfl := Except.ok.inj hfound
      have hsigns : ∀ entry ∈ Lexeme.signs, entry = (.newline, "\n") ∨ entry = (.slash, "/") ∨
          entry.1 ≠ .newline ∧ entry.2.toList.all (· ∉ ['"', '/', '\n']) := by decide
      rcases hsigns _ hsign with heq | heq | ⟨hkind, hplain⟩
      · obtain ⟨rfl, rfl⟩ := Prod.mk.inj heq
        exact fun before => ⟨rfl, fun _ _ => rfl⟩
      · obtain ⟨rfl, rfl⟩ := Prod.mk.inj heq
        refine fun before => ⟨rfl, fun c hc => ?_⟩
        have hslash : c ≠ '/' := by
          rintro rfl
          obtain ⟨rest, rfl⟩ := List.head?_eq_some_iff.1 hc
          exact hremark ⟨rfl, rfl⟩
        show Survey.pass ⟨before, .slash⟩ c = Survey.pass ⟨before, .code⟩ c
        simp [Survey.pass, Zone.next, Zone.isText, hslash]
      · rw [lines_eq_zero hkind]
        exact Survey.crosses_plain fun c hc => of_decide_eq_true (List.all_eq_true.1 hplain c hc)
  | word hstart _ hparts =>
      obtain rfl := Except.ok.inj hfound
      rw [lines_eq_zero (wordKind_ne (.inr rfl) _)]
      exact Survey.crosses_plain
        (List.forall_mem_cons.2 ⟨hclass (by decide) hstart, fun d hd => hclass (by decide) (hparts d hd)⟩)
  | integer _ hdigits =>
      obtain ⟨value, rfl⟩ := numberToken_eq_ok hfound
      exact Survey.crosses_plain fun d hd => hdigit (hdigits d hd)
  | double _ hwhole hdigits =>
      obtain ⟨value, rfl⟩ := numberToken_eq_ok hfound
      refine Survey.crosses_plain fun d hd => ?_
      rcases List.mem_append.1 hd with hd | hd
      · exact hdigit (hwhole d hd)
      · rcases List.mem_cons.1 hd with rfl | hd
        · decide
        · exact hdigit (hdigits d hd)
  | fraction _ hdigits =>
      obtain rfl := Except.ok.inj hfound
      exact Survey.crosses_plain (List.forall_mem_cons.2 ⟨by decide, fun d hd => hdigit (hdigits d hd)⟩)
  | @text text content _ hinside =>
      obtain rfl := Except.ok.inj hfound
      have hlength : text.length + 1 = (text ++ ['"']).length := by simp
      have hcross := htext 0 (text ++ '"' :: rest)
      simp only [textBody_inside hinside, hlength] at hcross
      rwa [text.append_cons '"' rest, List.take_left, List.drop_left] at hcross
  | unopened =>
      obtain rfl := Except.ok.inj hfound
      exact fun before => ⟨rfl, fun c hc => by cases hc⟩
  | broken =>
      obtain rfl := Except.ok.inj hfound
      exact htext _ _
  | ampersand => cases hfound
  | stray hc =>
      obtain rfl := Except.ok.inj hfound
      exact Survey.crosses_plain (by simpa using hc)

def call (source : String) : Nat → Scanner
  | 0 => .ofSource source
  | count + 1 => (call source count).scan.scanner

/-- The place of the token that the next call reads. -/
def tokenPosition (scanner : Scanner) : Nat :=
  scanner.skipBlanks.skipComment.position

/-- A scanner that stands where it says it does. -/
structure IsLocated (text : List Char) (scanner : Scanner) : Prop where
  rest : scanner.rest = text.drop scanner.position
  line : scanner.line = 1 + (text.take (scanner.position + 1)).count '\n'

/-- A scanner behind a text with so many line breaks outside text literals. -/
structure IsSurveyed (text : List Char) (breaks : Nat) (scanner : Scanner) : Prop extends IsLocated text scanner where
  breaks : (Survey.ofText (text.take scanner.position)).breaks = breaks
  meets : (Survey.ofText (text.take scanner.position)).Meets scanner.rest

theorem isLocated_ofSource (source : String) : IsLocated (source.toList ++ ['\n']) (.ofSource source) := by
  refine ⟨rfl, ?_⟩
  cases hsource : source.toList with
  | nil => simp [ofSource, hsource, lineAt]
  | cons c text =>
      simp only [ofSource, hsource, List.cons_append, List.headD_cons, lineAt]
      split <;> simp_all

theorem IsLocated.advance (h : IsLocated text scanner) : IsLocated text scanner.advance := by
  have hhead : scanner.rest.tail.head? = text[scanner.position + 1]? := by rw [h.rest, List.tail_drop, List.head?_drop]
  refine ⟨by rw [rest_advance, position_advance, h.rest, List.tail_drop], ?_⟩
  rw [position_advance, List.take_add_one, List.count_append, ← hhead, ← Nat.add_assoc, ← h.line]
  unfold Scanner.advance
  dsimp only
  split
  case isTrue hbreak => rw [hbreak]; rfl
  case isFalse hother =>
    generalize scanner.rest.tail.head? = first at hother
    cases first with
    | none => rfl
    | some c =>
        rw [Option.toList_some, List.count_singleton, if_neg (by simpa using hother)]
        rfl

theorem IsLocated.advanceBy (h : IsLocated text scanner) (count : Nat) : IsLocated text (scanner.advanceBy count) := by
  induction count generalizing scanner with
  | zero => exact h
  | succ count ih => exact ih h.advance

theorem IsLocated.scan (h : IsLocated text scanner) (htoken : scanner.scan.token = .ok token) :
    IsLocated text scanner.scan.scanner := by
  obtain ⟨gap, others, count, hscans⟩ := scanner.exists_scans
  have hlast := h.advanceBy (gap.length + count)
  rw [hscans.moved htoken]
  exact .advance ⟨hlast.rest, hlast.line⟩

theorem IsSurveyed.scan {breaks : Nat} (h : IsSurveyed text breaks scanner) (htoken : scanner.scan.token = .ok token) :
    (Survey.ofText (text.take scanner.tokenPosition)).breaks = breaks ∧
      IsSurveyed text (breaks + Token.lines token) scanner.scan.scanner := by
  obtain ⟨gap, others, count, hscans⟩ := scanner.exists_scans
  have hdrop : text.drop scanner.position = gap ++ others := h.rest ▸ hscans.rest
  have hstart : scanner.tokenPosition = scanner.position + gap.length := by
    rw [tokenPosition, hscans.start, position_advanceBy]
  have hend : scanner.scan.scanner.position = scanner.tokenPosition + (count + 1) := by
    rw [hscans.moved htoken, position_advance, hstart]
    show (scanner.advanceBy _).position + 1 = _
    rw [position_advanceBy]
    omega
  have hgap : Survey.ofText (text.take scanner.tokenPosition) =
      gap.foldl Survey.pass (Survey.ofText (text.take scanner.position)) := by
    rw [hstart, List.take_add, hdrop, List.take_left, Survey.ofText, List.foldl_append]
    rfl
  have hword : Survey.ofText (text.take scanner.scan.scanner.position) =
      (others.take (count + 1)).foldl Survey.pass (Survey.ofText (text.take scanner.tokenPosition)) := by
    rw [hend, List.take_add, hstart, ← List.drop_drop, hdrop, List.drop_left, Survey.ofText, List.foldl_append]
    rfl
  obtain ⟨hbreaks, hmeets⟩ := hscans.skips.crosses.of_meets (hscans.rest ▸ h.meets)
  rw [← hgap, h.breaks] at hbreaks
  rw [← hgap, ← others.take_append_drop (count + 1)] at hmeets
  have hcrosses := hscans.read.crosses (by rw [List.take_append_drop]; exact hscans.skips.not_isRemark) htoken
  obtain ⟨hlines, hafter⟩ := hcrosses.of_meets hmeets
  rw [← hword, hbreaks] at hlines
  rw [← hword, ← hscans.rest_scan htoken] at hafter
  exact ⟨hbreaks, h.toIsLocated.scan htoken, hlines, hafter⟩

end Scanner

namespace Parse

variable {cursor after : Cursor} {source : String} {k : Nat}

def nextTimes : Nat → Parse Unit
  | 0 => pure ()
  | count + 1 => do
      nextTimes count
      next

/-- A cursor at the token that a call reads, with the line breaks before it counted. -/
structure IsAtCall (source : String) (k : Nat) (cursor : Cursor) : Prop where
  scanner : cursor.scanner = .call source (k + 2)
  current : (Scanner.call source k).scan.token = .ok cursor.current
  ahead : (Scanner.call source (k + 1)).scan.token = .ok cursor.ahead
  line : ∃ breaks, (Scanner.call source k).IsSurveyed (source.toList ++ ['\n']) breaks ∧
    cursor.line = 1 + breaks + Token.lines cursor.current

theorem line_next (hnot : ¬ cursor.isAt [.eof]) (h : next cursor = .ok () after) :
    cursor.scanner.scan.token = .ok after.ahead ∧ after.scanner = cursor.scanner.scan.scanner ∧
      after.current = cursor.ahead ∧ after.line = cursor.line + Token.lines cursor.ahead := by
  obtain ⟨token, journal, hdeliver, rfl⟩ := next_eq_ok hnot h
  refine ⟨deliver_eq_ok hdeliver, rfl, rfl, ?_⟩
  show (if (cursor.ahead.map Token.kind).any _ then _ else _) = _
  unfold Token.lines
  split <;> rfl

theorem IsAtCall.next (h : IsAtCall source k cursor) (hnot : ¬ cursor.isAt [.eof]) (hnext : next cursor = .ok () after) :
    IsAtCall source (k + 1) after := by
  obtain ⟨hahead, hscanner, hcurrent, hline⟩ := line_next hnot hnext
  obtain ⟨breaks, hsurveyed, hbreaks⟩ := h.line
  refine ⟨hscanner.trans (congrArg (·.scan.scanner) h.scanner), hcurrent ▸ h.ahead, h.scanner ▸ hahead,
    breaks + Token.lines cursor.current, (hsurveyed.scan h.current).2, ?_⟩
  rw [hline, hbreaks, hcurrent]
  omega

theorem isAtCall_start {draft : Draft} {first : Cursor} (h : Cursor.start source draft = (.ok (), first)) :
    IsAtCall source 0 first := by
  unfold Cursor.start at h
  dsimp only at h
  split at h
  case h_2 => cases h
  case h_1 hrun =>
    obtain rfl := (Prod.mk.inj h).2
    obtain ⟨_, middle, hfirst, hsecond⟩ := bind_eq_ok.1 hrun
    obtain ⟨hahead, hscanner, hcurrent, hline⟩ := line_next (by simp [Cursor.isAt, Cursor.currentKind?]) hfirst
    obtain ⟨hahead', hscanner', hcurrent', hline'⟩ :=
      line_next (by simp [Cursor.isAt, Cursor.currentKind?, hcurrent]) hsecond
    rw [hscanner] at hahead' hscanner'
    refine ⟨hscanner', hcurrent' ▸ hahead, hahead', 0, ?_, ?_⟩
    · exact ⟨Scanner.isLocated_ofSource source, rfl, fun _ _ => rfl⟩
    · rw [hline', hline, hcurrent']
      rfl

theorem isAtCall_nextTimes {first : Cursor} {n : Nat} (hfirst : IsAtCall source 0 first)
    (h : nextTimes n first = .ok () cursor) :
    ∃ k ≤ n, (k < n → cursor.isAt [.eof]) ∧ IsAtCall source k cursor := by
  induction n generalizing cursor with
  | zero =>
      obtain ⟨-, rfl⟩ := pure_eq_ok.1 h
      exact ⟨0, Nat.le_refl 0, fun h => absurd h (Nat.lt_irrefl 0), hfirst⟩
  | succ n ih =>
      obtain ⟨_, middle, hmiddle, hnext⟩ := bind_eq_ok.1 h
      obtain ⟨k, hle, hend, hcall⟩ := ih hmiddle
      by_cases hat : middle.isAt [.eof]
      · rw [next_of_eof hat] at hnext
        obtain rfl := (EStateM.Result.ok.inj hnext).2
        exact ⟨k, by omega, fun _ => hat, hcall⟩
      · obtain rfl : k = n := by
          by_contra hne
          exact hat (hend (by omega))
        exact ⟨k + 1, Nat.le_refl _, fun h => absurd h (Nat.lt_irrefl _), hcall.next hat hnext⟩

theorem isLocated_call (h : IsAtCall source k cursor) : cursor.scanner.IsLocated (source.toList ++ ['\n']) := by
  obtain ⟨breaks, hsurveyed, -⟩ := h.line
  rw [h.scanner]
  exact (hsurveyed.toIsLocated.scan h.current).scan h.ahead

/-- After any number of steps of a new cursor its scanner has counted the line breaks that it has come to.  The
cursor is at the token of one of the calls, and unless that is a line break itself, it has counted those
before the token that are outside text literals. -/
theorem line_nextTimes {source : String} {draft : Draft} {first cursor : Cursor} {n : Nat}
    (hstart : Cursor.start source draft = (.ok (), first)) (h : nextTimes n first = .ok () cursor) :
    cursor.scanner.line = 1 + ((source.toList ++ ['\n']).take (cursor.scanner.position + 1)).count '\n' ∧
      ∃ k ≤ n, (k < n → cursor.isAt [.eof]) ∧ cursor.scanner = .call source (k + 2) ∧
        (Scanner.call source k).scan.token = .ok cursor.current ∧
        (cursor.currentKind? ≠ some .newline → cursor.line =
          1 + (Survey.ofText ((source.toList ++ ['\n']).take (Scanner.call source k).tokenPosition)).breaks) := by
  obtain ⟨k, hle, hend, hcall⟩ := isAtCall_nextTimes (isAtCall_start hstart) h
  refine ⟨(isLocated_call hcall).line, k, hle, hend, hcall.scanner, hcall.current, fun hkind => ?_⟩
  obtain ⟨breaks, hsurveyed, hline⟩ := hcall.line
  have hlines : Token.lines cursor.current = 0 := by
    cases hcurrent : cursor.current with
    | none => rfl
    | some token => exact Scanner.lines_eq_zero (by simpa [Cursor.currentKind?, hcurrent] using hkind)
  rw [hline, hlines, (hsurveyed.scan hcall.current).1, Nat.add_zero]

theorem line_nextTimes_literal :
    ∃ first cursor, Cursor.start "\"\n\"\nx" {} = (.ok (), first) ∧ nextTimes 2 first = .ok () cursor ∧
      cursor.currentKind? = some .identifier ∧ ∃ k, cursor.line =
        1 + (Survey.ofText ("\"\n\"\nx\n".toList.take (Scanner.call "\"\n\"\nx" k).tokenPosition)).breaks := by
  obtain ⟨first, hfirst⟩ : ∃ first, Cursor.start "\"\n\"\nx" {} = (.ok (), first) := ⟨_, rfl⟩
  obtain ⟨cursor, hcursor, hkind⟩ :
      ∃ cursor, nextTimes 2 first = .ok () cursor ∧ cursor.currentKind? = some .identifier := by
    obtain rfl := (Prod.mk.inj hfirst).2
    exact ⟨_, rfl, rfl⟩
  obtain ⟨-, k, -, -, -, -, hline⟩ := line_nextTimes hfirst hcursor
  exact ⟨first, cursor, hfirst, hcursor, hkind, k, hline (by simp [hkind])⟩

end Parse

end Scriptlet
