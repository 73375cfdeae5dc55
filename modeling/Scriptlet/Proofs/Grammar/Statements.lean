import Scriptlet.Proofs.Grammar.Expressions

/-!
The rules for statements and blocks make progress, and the budget of a cursor is enough for a program.
-/

set_option synthInstance.maxSize 1000000

namespace Scriptlet.Parse

variable {n count : Nat} {cursor after : Cursor} {block : Parse Value}
variable {name type value : Value} {names : List Value} {u : Unit}

/-! ### Declarations and assignments -/

instance : Obeys (steady n) (increment name) := by
  unfold increment
  infer_instance

instance : Obeys (steady n) (decrement name) := by
  unfold decrement
  infer_instance

instance [Obeys (steady n) (expression count)] [Fact (n ≤ count)] : Obeys (steady n) (declaration count name type) := by
  unfold declaration declareAll
  refine .bind inferInstance fun _ => .bind inferInstance fun _ => ?_
  split
  · refine .bind inferInstance fun list => ?_
    split <;> infer_instance
  · infer_instance

instance [Obeys (steady n) (expression count)] [Fact (n ≤ count)] : Obeys (steady n) (assignment count name) := by
  unfold assignment assignAll completeFocus
  infer_instance

/-! ### Conditionals, functions and loops -/

instance (inFunction : Bool) : Obeys (steady n) (modify fun cursor : Cursor => { cursor with inFunction }) :=
  obeys_modify fun _ => ⟨rfl, rfl⟩

instance (inLoop : Bool) : Obeys (steady n) (modify fun cursor : Cursor => { cursor with inLoop }) :=
  obeys_modify fun _ => ⟨rfl, rfl⟩

instance [Obeys (steady n) block] : Obeys (steady n) (loopBody block) := by
  unfold loopBody
  infer_instance

instance : Obeys (steady n) strayToken := by
  refine .bind inferInstance fun cursor => ?_
  split <;> infer_instance

/-! ### Statements -/

theorem runsAt_returnStatement [hexpression : Obeys (steady n) (expression count)]
    (hkind : cursor.currentKind? = some .returnKey) : RunsAt n cursor (returnStatement count) := by
  have : Obeys (steady 0) (expression count) := obeys_mono hexpression (Nat.zero_le n)
  refine .of_bind inferInstance fun hget => ?_
  obtain ⟨rfl, rfl⟩ := get_eq_ok.1 hget
  dsimp only
  split
  · exact (RunsAt.next_bind (not_eof_of_current hkind (by decide) rfl) fun _ => inferInstance).mono (Nat.le_succ n)
  · exact .of_advances

theorem runsAt_breakStatement (hkind : cursor.currentKind? = some .breakKey) : RunsAt n cursor breakStatement := by
  refine .of_bind inferInstance fun hget => ?_
  obtain ⟨rfl, rfl⟩ := get_eq_ok.1 hget
  split
  · exact (RunsAt.next_bind (not_eof_of_current hkind (by decide) rfl) fun _ => inferInstance).mono (Nat.le_succ n)
  · exact .of_advances

theorem isPast_skipNewlines (hat : cursor.isAt [.newline]) (h : skipNewlines cursor = .ok u after) :
    after.IsPast cursor := by
  change skipNewlinesWithin cursor.tokenBound cursor = .ok u after at h
  rw [skipNewlinesWithin_eq_rounds] at h
  exact isPast_skip stopsAtEnd_newline hat h

theorem runsAt_newline (hkind : cursor.currentKind? = some .newline) :
    RunsAt n cursor (do skipNewlines; return .null : Parse Value) := by
  refine ⟨Obeys.allows cursor, fun h => ?_⟩
  obtain ⟨_, _, hskip, h⟩ := bind_eq_ok.1 h
  obtain ⟨_, rfl⟩ := pure_eq_ok.1 h
  exact isPast_skipNewlines (by simp [Cursor.isAt, hkind]) hskip

theorem isPast_skipUntil (hat : cursor.isAt landmarks = false) (h : skipUntil landmarks cursor = .ok u after) :
    after.IsPast cursor := by
  change skipUntilWithin landmarks cursor.tokenBound cursor = .ok u after at h
  rw [skipUntilWithin_eq_rounds] at h
  exact isPast_skip stopsAtEnd_landmarks hat h

theorem isPast_adviseOnToken (h : adviseOnToken cursor = .ok true after) : after.IsPast cursor := by
  unfold adviseOnToken at h
  rw [get_bind] at h
  cases hcurrent : cursor.current with
  | none => simp [hcurrent] at h
  | some token =>
      simp only [hcurrent] at h
      cases hadvice : adviceOn? token.kind with
      | none => simp [hadvice] at h
      | some advice =>
          simp only [hadvice] at h
          exact Advances.isPast h

theorem runs_strayToken : Runs n strayToken := by
  refine runs_of_runsAt fun cursor => ⟨Obeys.allows cursor, fun {value after} h => ?_⟩
  unfold strayToken at h
  rw [get_bind] at h
  cases hcurrent : cursor.current with
  | none =>
      have hat : cursor.isAt landmarks = false := by simp [Cursor.isAt, Cursor.currentKind?, hcurrent]
      rw [hcurrent] at h
      obtain ⟨_, middle, hrecover, hrest⟩ := bind_eq_ok.1 h
      obtain ⟨_, rfl⟩ := pure_eq_ok.1 hrest
      obtain ⟨_, skipped, hskip, hrest⟩ := bind_eq_ok.1 hrecover
      exact (isPast_skipUntil hat hskip).trans_follows (follows_of_ok hrest)
  | some token =>
      rw [hcurrent] at h
      obtain ⟨advised, middle, hadvise, hrest⟩ := bind_eq_ok.1 h
      cases advised with
      | true => exact (isPast_adviseOnToken hadvise).trans_follows (follows_of_ok hrest)
      | false =>
          rw [if_neg Bool.false_ne_true] at hrest
          exact Cursor.Follows.trans_isPast (follows_of_ok hadvise) (Advances.isPast hrest)

theorem runs_statementBody {block : Value → Parse Value} (hexpression : Runs n (expression count))
    (hblock : ∀ appended, Runs n (block appended)) (hcount : n ≤ count) : Runs n (statementBody count block) := by
  obtain ⟨hobeys, _⟩ := hexpression
  have : Obeys (steady 0) (expression count) := obeys_mono hobeys (Nat.zero_le n)
  have hsteady appended := (hblock appended).obeys
  have hfollows appended : Obeys (steady 0) (block appended) := obeys_mono (hsteady appended) (Nat.zero_le n)
  have : Fact (n ≤ count) := ⟨hcount⟩
  unfold statementBody conditional functionDeclaration whileLoop forLoop counterUpdate setStatement namedStatement
  refine runs_of_runsAt fun cursor => ?_
  refine RunsAt.of_bind inferInstance fun hget => ?_
  obtain ⟨rfl, rfl⟩ := get_eq_ok.1 hget
  split
  case h_3 hkind => exact runsAt_returnStatement hkind
  case h_4 hkind => exact runsAt_breakStatement hkind
  case h_9 hkind => exact runsAt_newline hkind
  case h_10 => exact (hblock .null).at _
  case h_11 => exact runs_strayToken.at _
  all_goals exact .of_advances

theorem runs_guarded {body : Parse Value} (hbody : Runs n body) : Runs n (guarded body) := by
  have := hbody.obeys
  have hrest : ∀ m node, Obeys (steady m) (do skipNewlines; return node : Parse Value) := fun _ _ => inferInstance
  refine ⟨?_, ⟨fun {cursor node after} h => ?_⟩⟩
  · refine .bind inferInstance fun outcome => ?_
    rcases outcome with (_ | _ | _ | _) | node
    all_goals infer_instance
  · obtain ⟨outcome, middle, hattempt, h⟩ := bind_eq_ok.1 h
    rcases attempt_eq_ok.1 hattempt with ⟨node, hrun, rfl⟩ | ⟨failure, hrun, _, rfl⟩
    · exact (hbody.advances.isPast hrun).trans_follows ((hrest 0 node).step h)
    · have hfailed : middle.Follows cursor := (hbody.obeys.stop hrun).1
      rcases failure with _ | _ | _ | _
      case exit => simp at h
      all_goals exact hfailed.trans_isPast (Advances.isPast h)

theorem runs_braced {statements : Parse (List Value)} (hstatements : Obeys (steady n) statements) (appended : Value) :
    Runs (n + 1) (braced statements appended) := by
  have : Obeys (steady 0) statements := obeys_mono hstatements (Nat.zero_le n)
  unfold braced
  exact ⟨inferInstance, inferInstance⟩

mutual

theorem runs_statement : ∀ count n, 16 * n ≤ count → Runs n (statement count)
  | 0, n, h => runs_zero (by omega)
  | count + 1, n, h =>
      runs_guarded (runs_statementBody (runs_expression count n (by omega))
        (fun appended => runs_block count n appended (by omega)) (by omega))

theorem runs_block : ∀ count n appended, 16 * n ≤ count + 1 → Runs n (Parse.block count appended)
  | 0, n, appended, h => runs_zero (by omega)
  | count + 1, n, appended, h => by
      -- The statements of a block stand behind its brace.
      obtain ⟨_, _⟩ := runs_statement count (n - 1) (by omega)
      have : Fact (n - 1 ≤ count) := ⟨by omega⟩
      have hstatements : Obeys (steady (n - 1))
          (repeatUntil [.rightBrace, .eof] (statementList <$> statement count) count) := inferInstance
      exact (runs_braced hstatements appended).mono (by omega)

end

end Scriptlet.Parse
