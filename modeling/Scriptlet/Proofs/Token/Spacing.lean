import Scriptlet.Proofs.Grammar.Lines
import Scriptlet.Proofs.Token.Faults

/-!
Room between tokens.

Where a call starts, blanks may be put into a text, and before a line break a remark as well: the tokens
stay the same.  The token before ends all the same, since no token goes on over a blank, and what stands
behind is skipped before the next token.
-/

namespace Scriptlet

open Scanner

variable {scanner : Scanner} {text rest other gap : List Char} {token : Token} {tokens : List Token}

/-- The tokens that a scanner hands out up to the end, without a report. -/
inductive Scanner.Runs : Scanner → List Token → Prop where
  | last {scanner : Scanner} {token : Token} (htoken : scanner.scan.token = .ok (some token))
      (hreports : scanner.scan.reports = []) (hkind : token.kind = .eof) : Runs scanner [token]
  | more {scanner : Scanner} {token : Token} {tokens : List Token} (htoken : scanner.scan.token = .ok (some token))
      (hreports : scanner.scan.reports = []) (hkind : token.kind ≠ .eof) (hrest : Runs scanner.scan.scanner tokens) :
      Runs scanner (token :: tokens)

theorem Scanner.Runs.spells (h : scanner.Runs tokens) : Spells scanner.rest tokens := by
  induction h with
  | last htoken hreports hkind =>
      obtain ⟨gap, word, hrest, hgap, hword⟩ := lexes_of_scan hreports htoken
      rw [hrest]
      exact .last hgap hword hkind
  | more htoken hreports hkind _ ih =>
      obtain ⟨gap, word, hrest, hgap, hword⟩ := lexes_of_scan hreports htoken
      rw [hrest]
      exact .more hgap hword hkind ih

theorem Reading.runs_of_tokensWithin {reading after : Reading} {entries : List (Option Token × Nat)} {count : Nat}
    (h : tokensWithin count reading = (entries, none, after)) (hcount : reading.scanner.rest.length < count)
    (hsilent : after.journal.messages = #[]) :
    reading.journal.messages = #[] ∧ ∃ tokens, reading.scanner.Runs tokens ∧ entries.map Prod.fst = tokens.map some := by
  induction count generalizing reading entries with
  | zero => omega
  | succ count ih =>
      rw [tokensWithin_succ] at h
      cases hnext : next reading with
      | error failure middle => simp [hnext] at h
      | ok token middle =>
          obtain ⟨hdeliver, htoken, hscanner⟩ := next_eq_ok hnext
          have hlength := length_scan_add_weight_le htoken
          have hquiet : middle.journal.messages = #[] → reading.journal.messages = #[] ∧ reading.scanner.scan.reports = [] := by
            intro hmiddle
            obtain ⟨hreports, hjournal⟩ := Parse.deliver_silent hdeliver (by simp [hmiddle])
            exact ⟨hjournal ▸ hmiddle, hreports⟩
          simp only [hnext] at h
          split at h
          case isTrue heof =>
            obtain ⟨token, rfl, hkind⟩ := (Option.any_eq_true _ _).1 heof
            cases h
            obtain ⟨hmessages, hreports⟩ := hquiet hsilent
            exact ⟨hmessages, [token], .last htoken hreports (beq_iff_eq.1 hkind), rfl⟩
          case isFalse heof =>
            rw [Token.weight, if_neg heof, ← hscanner] at hlength
            obtain ⟨rfl, hrest⟩ := Prod.mk.inj h
            obtain ⟨hmiddle, tokens, hruns, hentries⟩ := ih (Prod.ext rfl hrest) (by omega)
            obtain ⟨hmessages, hreports⟩ := hquiet hmiddle
            obtain ⟨_, _, _, _, hword⟩ := lexes_of_scan hreports htoken
            obtain ⟨found, rfl, -⟩ := hword.alive rfl rfl
            have hkind : found.kind ≠ .eof := by simpa using heof
            exact ⟨hmessages, found :: tokens, .more htoken hreports hkind (hscanner ▸ hruns),
              by rw [List.map_cons, hentries]; rfl⟩

/-- What may stand at the start of a call, before what is there. -/
def IsRoom (gap rest : List Char) : Prop :=
  (∀ c ∈ gap, c = ' ') ∨
    rest.head? = some '\n' ∧ ∃ remark, gap = ' ' :: '/' :: '/' :: remark ∧ '\n' ∉ remark ∧ endMark ∉ remark

theorem IsRoom.spells (h : IsRoom gap rest) (hrest : Spells rest tokens) : Spells (gap ++ rest) tokens := by
  rcases h with hblanks | ⟨hhead, remark, rfl, hbreak, hmark⟩
  · exact hrest.blank (List.dropWhile_append_of_pos fun c hc => beq_iff_eq.2 (hblanks c hc))
  · refine hrest.regap ?_
    rintro gap rest rfl hgap
    obtain rfl : gap = [] := by
      cases hgap with
      | blanks hblanks =>
          cases gap with
          | nil => rfl
          | cons c gap => simp_all
      | @remark blanks _ _ hblanks =>
          cases blanks with
          | nil => simp at hhead
          | cons c blanks => simp_all
    obtain ⟨rest, rfl⟩ := List.head?_eq_some_iff.1 hhead
    have htext : ∀ c ∈ remark, inComment c := fun c hc => by
      simp only [inComment, Bool.and_eq_true, bne_iff_ne]
      exact ⟨fun h => hbreak (h ▸ hc), fun h => hmark (h ▸ hc)⟩
    have hblank : ∀ c ∈ [' '], c == ' ' := by simp
    exact ⟨_, rfl, .remark hblank htext rfl⟩

theorem IsRoom.replaces (h : IsRoom gap rest) (hne : rest ≠ []) : Replaces (gap ++ rest) rest := by
  refine ⟨hne, ?_⟩
  rcases h with hblanks | ⟨-, remark, rfl, -⟩
  · cases gap with
    | nil => exact .inl rfl
    | cons c gap => exact .inr (.inl (hblanks c List.mem_cons_self))
  · exact .inr (.inl rfl)

/-- A text up to a call, what is handed out up to there and from there on. -/
structure Scanner.IsCut (source : String) (k : Nat) (before : List Char) (first last : List Token) : Prop where
  located : (call source k).IsLocated (source.toList ++ ['\n'])
  rest : source.toList ++ ['\n'] = before ++ (call source k).rest
  length : first.length = k
  runs : (call source k).Runs last
  replace : ∀ {other}, Replaces other (call source k).rest → Spells other last → Spells (before ++ other) (first ++ last)

theorem Scanner.exists_isCut {source : String} {k : Nat} (h : (Scanner.ofSource source).Runs tokens)
    (hk : k < tokens.length) :
    ∃ before first last, IsCut source k before first last ∧ tokens = first ++ last := by
  induction k with
  | zero => exact ⟨[], [], tokens, ⟨isLocated_ofSource source, rfl, rfl, h, fun _ => id⟩, rfl⟩
  | succ k ih =>
      obtain ⟨before, first, last, hcut, rfl⟩ := ih (by omega)
      have hruns := hcut.runs
      cases hruns with
      | last => simp [hcut.length] at hk
      | @more _ token tokens htoken hreports hkind hruns =>
          obtain ⟨gap, word, hrest, hgap, hword⟩ := lexes_of_scan hreports htoken
          obtain ⟨c, word, rfl⟩ := List.exists_cons_of_ne_nil (hword.ne_nil hkind)
          refine ⟨before ++ (gap ++ c :: word), first ++ [token], tokens,
            ⟨hcut.located.scan htoken, ?_, ?_, hruns, ?_⟩, by simp⟩
          · rw [hcut.rest, hrest]
            simp [call]
          · simp [hcut.length]
          · intro other hother hspells
            have hreplaces : Replaces (gap ++ (c :: word ++ other)) (call source k).rest := by
              rw [hrest]
              cases gap <;> exact ⟨by simp, .inl rfl⟩
            simpa using hcut.replace hreplaces
              (.more (hgap.replace fun _ => hother) (hword.replace rfl hother) hkind hspells)

theorem Scanner.IsCut.spells {source : String} {k : Nat} {before : List Char} {first last : List Token}
    (h : IsCut source k before first last)
    (hne : (call source k).rest ≠ []) (hroom : IsRoom gap (call source k).rest) :
    Spells (source.toList.take (call source k).position ++ gap ++ source.toList.drop (call source k).position ++ ['\n'])
      (first ++ last) := by
  have hrest := h.located.rest
  have hlength := congrArg List.length h.rest
  have hposition := congrArg List.length hrest
  have hpos := List.length_pos_iff.2 hne
  simp only [List.length_append, List.length_singleton, List.length_drop] at hlength hposition
  have hsource : source.toList.take (call source k).position = before := by
    rw [← List.take_append_of_le_length (by omega), h.rest, List.take_left' (by omega)]
  rw [List.append_assoc, ← List.drop_append_of_le_length (by omega), ← hrest, hsource, List.append_assoc]
  exact h.replace (hroom.replaces hne) (hroom.spells h.runs.spells)

theorem Scanner.Gap.append_blanks {skipped : List Char} (h : Gap skipped ['\n']) (hblanks : ∀ c ∈ gap, c = ' ') :
    Gap (skipped ++ gap) ['\n'] := by
  cases h with
  | blanks hskipped hend hremark =>
      refine .blanks (fun c hc => ?_) hend hremark
      exact (List.mem_append.1 hc).elim (hskipped c) fun hc => beq_iff_eq.2 (hblanks c hc)
  | @remark blanks text _ hskipped htext hend =>
      have hall : ∀ c ∈ text ++ gap, inComment c := fun c hc =>
        (List.mem_append.1 hc).elim (htext c) fun hc => by rw [hblanks c hc]; decide
      simpa using Gap.remark hskipped hall hend

/-- Blanks at the end of a text: they stand before the line break that closes it. -/
theorem Scanner.Runs.spells_append {source : String} {k : Nat} (h : (Scanner.ofSource source).Runs tokens)
    (hk : k < tokens.length) (hend : (call source k).rest = []) (hblanks : ∀ c ∈ gap, c = ' ') :
    Spells (source.toList ++ gap ++ ['\n']) tokens := by
  cases k with
  | zero => exact absurd hend (by simp [call, Scanner.ofSource])
  | succ k =>
      obtain ⟨before, first, last, hcut, rfl⟩ := exists_isCut (k := k) h (by omega)
      have hruns := hcut.runs
      cases hruns with
      | last => simp [hcut.length] at hk
      | @more _ token tokens htoken hreports hkind hruns =>
          obtain ⟨skipped, word, hrest, hgap, hword⟩ := lexes_of_scan hreports htoken
          have hspells := hruns.spells
          rw [show (call source k).scan.scanner.rest = [] from hend] at hrest hgap hword hspells
          have hlast : word.getLast? = some '\n' := by
            have hclosed := congrArg List.getLast? hcut.rest
            rw [hrest, List.append_nil, List.getLast?_concat, List.getLast?_append, List.getLast?_append,
              List.getLast?_eq_some_getLast (hword.ne_nil hkind), Option.some_or, Option.some_or] at hclosed
            rw [List.getLast?_eq_some_getLast (hword.ne_nil hkind), hclosed]
          obtain ⟨rfl, -⟩ := hword.newline rfl hlast
          have hsource : source.toList = before ++ skipped := by simpa [hrest, ← List.append_assoc] using hcut.rest
          rw [hsource, List.append_assoc, List.append_assoc, ← List.append_assoc skipped]
          refine hcut.replace ?_ (.more (hgap.append_blanks hblanks) hword hkind hspells)
          rw [hrest]
          refine ⟨by simp, ?_⟩
          cases skipped with
          | cons => exact .inl rfl
          | nil =>
              cases gap with
              | nil => exact .inl rfl
              | cons c gap => exact .inr (.inl (hblanks c List.mem_cons_self))

namespace Reading

/-- A text that is read without a message is read as the same tokens with room at the start of one of the calls. -/
theorem tokens_spaced {source : String} {entries : List (Option Token × Nat)} {after : Reading} {k : Nat} {gap : List Char}
    (h : Reading.tokens source = (entries, none, after)) (hsilent : after.journal.messages = #[]) (hk : k < entries.length)
    (hgap : IsRoom gap ((source.toList ++ ['\n']).drop (call source k).position)) :
    ∃ entries' after', Reading.tokens (String.ofList (source.toList.take (call source k).position ++ gap ++
        source.toList.drop (call source k).position)) = (entries', none, after') ∧
      after'.journal.messages = #[] ∧ entries'.map Prod.fst = entries.map Prod.fst := by
  obtain ⟨-, tokens, hruns, hentries⟩ := runs_of_tokensWithin h (by simp [Scanner.ofSource, String.length_toList]) hsilent
  have hlength : k < tokens.length := by rwa [← List.length_map some, ← hentries, List.length_map]
  obtain ⟨before, first, last, hcut, rfl⟩ := exists_isCut hruns hlength
  rw [← hcut.located.rest] at hgap
  suffices hspells : Spells ((String.ofList (source.toList.take (call source k).position ++ gap ++
      source.toList.drop (call source k).position)).toList ++ ['\n']) (first ++ last) by
    obtain ⟨entries', last, htokens, hmap, hjournal⟩ := tokens_of_spells hspells
    exact ⟨entries', last, htokens, by rw [hjournal], hmap.trans hentries.symm⟩
  rw [String.toList_ofList]
  by_cases hend : (call source k).rest = []
  · have hblanks : ∀ c ∈ gap, c = ' ' := hgap.resolve_right fun h => by simp [hend] at h
    have hlong := List.drop_eq_nil_iff.1 (hcut.located.rest ▸ hend)
    rw [List.length_append, List.length_singleton] at hlong
    rw [List.take_of_length_le (by omega), List.drop_of_length_le (by omega), List.append_nil]
    exact hruns.spells_append hlength hend hblanks
  · exact hcut.spells hend hgap

theorem tokens_spaced_remark :
    ∃ entries after entries' after', Reading.tokens "a+b" = (entries, none, after) ∧
      Reading.tokens "a+b // c" = (entries', none, after') ∧
      entries'.map Prod.fst = entries.map Prod.fst := by
  obtain ⟨entries, after, h, hsilent, hlength⟩ : ∃ entries after, Reading.tokens "a+b" = (entries, none, after) ∧
    after.journal.messages = #[] ∧ 3 < entries.length := ⟨_, _, rfl, rfl, by decide⟩
  have hgap : IsRoom " // c".toList (("a+b".toList ++ ['\n']).drop (call "a+b" 3).position) :=
    .inr ⟨by decide, " c".toList, rfl, by decide, by decide⟩
  obtain ⟨entries', after', htokens, -, hmap⟩ := tokens_spaced h hsilent hlength hgap
  exact ⟨entries, after, entries', after', h, htokens, hmap⟩

end Reading

end Scriptlet
