import Scriptlet.Proofs.Token.Joining
import Scriptlet.Token.Stream

/-!
Texts that are read to their end without a report, and their tokens.
-/

namespace Scriptlet

open Scanner

/-- The tokens of a text up to its end, where nothing is reported about any of them. -/
inductive Spells : List Char → List Token → Prop where
  | last {gap word rest : List Char} {token : Token} (hgap : Gap gap (word ++ rest))
      (hword : Lexes word rest (.ok (some token)) true) (hkind : token.kind = .eof) : Spells (gap ++ (word ++ rest)) [token]
  | more {gap word rest : List Char} {token : Token} {tokens : List Token} (hgap : Gap gap (word ++ rest))
      (hword : Lexes word rest (.ok (some token)) true) (hkind : token.kind ≠ .eof) (hrest : Spells rest tokens) :
      Spells (gap ++ (word ++ rest)) (token :: tokens)

variable {text : List Char} {tokens : List Token}

theorem Scanner.dropWhile_run {p : Char → Bool} {run rest : List Char} (hrun : ∀ c ∈ run, p c) (hrest : Stops p rest) :
    (run ++ rest).dropWhile p = rest := by
  have hsplit : (run ++ rest).takeWhile p ++ _ = run ++ rest := List.takeWhile_append_dropWhile
  rwa [takeWhile_run hrun hrest, List.append_right_inj] at hsplit

theorem Scanner.Gap.blank {gap rest other : List Char} (h : Gap gap rest)
    (hother : other.dropWhile (· == ' ') = (gap ++ rest).dropWhile (· == ' ')) :
    ∃ gap', other = gap' ++ rest ∧ Gap gap' rest := by
  have hblanks : ∀ c ∈ other.takeWhile (· == ' '), c == ' ' := fun _ hc => List.mem_takeWhile_imp (p := (· == ' ')) hc
  have hsplit : other.takeWhile (· == ' ') ++ _ = other := List.takeWhile_append_dropWhile
  rw [hother] at hsplit
  cases h with
  | blanks hgap hend hremark =>
      rw [dropWhile_run hgap hend] at hsplit
      exact ⟨_, hsplit.symm, .blanks hblanks hend hremark⟩
  | @remark blanks text _ hgap htext hend =>
      rw [List.append_assoc, dropWhile_run hgap (show Stops _ ('/' :: '/' :: text ++ rest) from rfl),
        ← List.append_assoc] at hsplit
      exact ⟨_, hsplit.symm, .remark hblanks htext hend⟩

theorem Spells.regap {other : List Char} (h : Spells text tokens)
    (hother : ∀ {gap rest : List Char}, text = gap ++ rest → Gap gap rest → ∃ gap', other = gap' ++ rest ∧ Gap gap' rest) :
    Spells other tokens := by
  cases h with
  | last hgap hword hkind =>
      obtain ⟨gap, rfl, hgap⟩ := hother rfl hgap
      exact .last hgap hword hkind
  | more hgap hword hkind hrest =>
      obtain ⟨gap, rfl, hgap⟩ := hother rfl hgap
      exact .more hgap hword hkind hrest

theorem Spells.blank {other : List Char} (h : Spells text tokens)
    (hother : other.dropWhile (· == ' ') = text.dropWhile (· == ' ')) : Spells other tokens :=
  h.regap fun htext hgap => hgap.blank (htext ▸ hother)

/-- Every token but the end takes a character. -/
theorem Spells.length_le (h : Spells text tokens) : tokens.length ≤ text.length + 1 := by
  induction h with
  | last => simp
  | @more _ word _ _ _ _ hword hkind _ ih =>
      have hpos := List.length_pos_iff.2 (hword.ne_nil hkind)
      simp only [List.length_append, List.length_cons]
      omega

namespace Reading

variable {reading after : Reading} {token : Token}

/-- A token without a report is handed out and nothing else changes. -/
theorem next_of_offers {rest : List Char} (h : Offers reading.scanner.rest (some token) rest) :
    ∃ after, next reading = .ok (some token) after ∧ after.scanner.rest = rest ∧ after.journal = reading.journal := by
  obtain ⟨htoken, hreports, hrest⟩ := h reading.scanner rfl
  have hdeliver : reading.scanner.scan.deliver reading.journal = .ok (some token) reading.journal := by
    rw [Scanner.Outcome.deliver, hreports, htoken]
    rfl
  refine ⟨{ reading with scanner := reading.scanner.scan.scanner }, ?_, hrest, rfl⟩
  delta next
  simp only [hdeliver]

theorem tokensWithin_succ (count : Nat) (reading : Reading) :
    tokensWithin (count + 1) reading = (match next reading with
      | .error failure after => ([], some failure, after)
      | .ok token after =>
          if token.any fun t => t.kind == .eof then ([(token, after.scanner.line)], none, after)
          else ((token, after.scanner.line) :: (tokensWithin count after).1, (tokensWithin count after).2)) := by
  -- the next token is hidden from the unfolding, which would otherwise run the scanner
  show (match next reading with | .error failure after => _ | .ok token after => _) = _
  generalize next reading = r
  cases r <;> rfl

theorem tokensWithin_of_spells {count : Nat} (h : Spells text tokens) (hcount : tokens.length ≤ count)
    (hrest : reading.scanner.rest = text) :
    ∃ entries after, tokensWithin count reading = (entries, none, after) ∧ entries.map Prod.fst = tokens.map some ∧
      after.journal = reading.journal := by
  induction h generalizing count reading with
  | last hgap hword hkind =>
      obtain ⟨count, rfl⟩ := Nat.exists_eq_add_of_le' hcount
      obtain ⟨last, hnext, -, hjournal⟩ := next_of_offers (hrest ▸ offers_of_lexes hgap hword)
      rw [List.length_singleton, tokensWithin_succ, hnext]
      simp only [Option.any_some, beq_iff_eq, hkind, if_true]
      exact ⟨_, last, rfl, rfl, hjournal⟩
  | more hgap hword hkind _ ih =>
      obtain ⟨count, rfl⟩ := Nat.exists_eq_add_of_le' (Nat.lt_of_lt_of_le (Nat.succ_pos _) hcount)
      obtain ⟨middle, hnext, hmiddle, hjournal⟩ := next_of_offers (hrest ▸ offers_of_lexes hgap hword)
      obtain ⟨entries, last, htokens, hentries, hlast⟩ := ih (Nat.le_of_succ_le_succ hcount) hmiddle
      rw [tokensWithin_succ, hnext]
      simp only [Option.any_some, beq_iff_eq, hkind, if_false, htokens]
      exact ⟨_, last, rfl, by rw [List.map_cons, hentries]; rfl, hlast.trans hjournal⟩

theorem tokens_of_spells {source : String} (h : Spells (source.toList ++ ['\n']) tokens) :
    ∃ entries last, Reading.tokens source = (entries, none, last) ∧ entries.map Prod.fst = tokens.map some ∧
      last.journal = {} :=
  tokensWithin_of_spells h (by simpa [source.length_toList] using h.length_le) rfl

end Reading

end Scriptlet
