import Scriptlet.Proofs.Grammar.Rounds

/-!
The rules for expressions make progress, and eight steps for each token and message that is left are
enough for them.
-/

set_option synthInstance.maxSize 100000

namespace Scriptlet.Parse

variable {α β : Type} {n : Nat} {cursor after : Cursor}
variable {x : Parse α} {left operator right : Value}

/-- An action that makes progress from a cursor, and has enough steps if fewer than `n` tokens and
messages are left there. -/
structure RunsAt (n : Nat) (cursor : Cursor) (x : Parse α) : Prop where
  allows : (steady n).Allows cursor (x cursor)
  isPast : ∀ {a after}, x cursor = .ok a after → after.IsPast cursor

/-- An action that makes progress from every cursor. -/
structure Runs (n : Nat) (x : Parse α) : Prop where
  obeys : Obeys (steady n) x
  advances : Advances x

theorem Runs.mono {m : Nat} (h : Runs n x) (hle : m ≤ n) : Runs m x :=
  ⟨obeys_mono h.obeys hle, h.advances⟩

theorem Runs.at (h : Runs n x) (cursor : Cursor) : RunsAt n cursor x :=
  ⟨h.obeys.allows cursor, h.advances.isPast⟩

theorem runs_of_runsAt (h : ∀ cursor, RunsAt n cursor x) : Runs n x :=
  ⟨⟨fun cursor => (h cursor).allows⟩, ⟨fun {cursor _ _} => (h cursor).isPast⟩⟩

theorem runs_zero (h : n = 0) : Runs n (fail .outOfSteps : Parse α) where
  obeys := .throw fun _ => ⟨.refl _, fun _ hless => absurd (h ▸ hless.2) (Nat.not_lt_zero _)⟩
  advances := inferInstance

namespace RunsAt

variable {x : Parse α}

theorem of_advances [hobeys : Obeys (steady n) x] [hadvances : Advances x] : RunsAt n cursor x :=
  Runs.at ⟨hobeys, hadvances⟩ cursor

theorem mono {m : Nat} (h : RunsAt n cursor x) (hle : m ≤ n) : RunsAt m cursor x := by
  refine ⟨?_, h.isPast⟩
  have hallows := h.allows
  cases hrun : x cursor with
  | ok a after => rwa [hrun] at hallows
  | error failure after =>
      rw [hrun] at hallows
      exact ⟨hallows.1, fun hfailure hless =>
        hallows.2 hfailure ⟨hless.1, Nat.lt_of_lt_of_le hless.2 hle⟩⟩

theorem next_bind {f : Unit → Parse β} (h : ¬ cursor.isAt [.eof]) (hf : ∀ u, Obeys (steady n) (f u)) :
    RunsAt (n + 1) cursor (next >>= f) :=
  ⟨next_bind_allows h hf, next_bind_isPast h fun u => obeys_mono (hf u) (Nat.zero_le n)⟩

theorem of_bind {f : α → Parse β} (hx : Obeys (steady n) x)
    (hf : ∀ {a after}, x cursor = .ok a after → RunsAt n after (f a)) : RunsAt n cursor (x >>= f) where
  allows := (hx.allows cursor).bind fun _ _ hrun => (hf hrun).allows
  isPast h := by
    obtain ⟨a, middle, hrun, h⟩ := bind_eq_ok.1 h
    exact Cursor.Follows.trans_isPast (hx.step hrun) ((hf hrun).isPast h)

theorem currentValue_bind {f : Scalar → Parse β} (hf : ∀ value, RunsAt n cursor (f value)) :
    RunsAt n cursor (currentValue >>= f) := by
  refine of_bind inferInstance fun {value after} hrun => ?_
  obtain ⟨_, rfl⟩ := currentValue_eq_ok.1 hrun
  exact hf value

theorem check_bind {kinds : List TokenKind} {yes no : Parse α} (hyes : cursor.isAt kinds → RunsAt n cursor yes)
    (hno : ¬ cursor.isAt kinds → RunsAt n cursor no) :
    RunsAt n cursor (do if ← check kinds then yes else no) := by
  by_cases hat : cursor.isAt kinds = true
  · have heq : (do if ← check kinds then yes else no : Parse α) cursor = yes cursor := by
      rw [Parse.check_bind, if_pos hat]
    exact ⟨heq ▸ (hyes hat).allows, fun h => (hyes hat).isPast (heq ▸ h)⟩
  · have heq : (do if ← check kinds then yes else no : Parse α) cursor = no cursor := by
      rw [Parse.check_bind, if_neg hat]
    exact ⟨heq ▸ (hno hat).allows, fun h => (hno hat).isPast (heq ▸ h)⟩

theorem line_bind {f : Value → Parse β} (hf : ∀ value, RunsAt n cursor (f value)) :
    RunsAt n cursor (line >>= f) := by
  refine of_bind inferInstance fun {value after} hrun => ?_
  obtain ⟨_, _, hget, hrun⟩ := bind_eq_ok.1 hrun
  obtain ⟨rfl, rfl⟩ := get_eq_ok.1 hget
  obtain ⟨_, rfl⟩ := pure_eq_ok.1 hrun
  exact hf value

theorem lift_bind {x : Draft.Action α} [Obeys Draft.quiet x] {f : α → Parse β}
    (hf : ∀ {a after}, after.current = cursor.current → RunsAt n after (f a)) :
    RunsAt n cursor (liftM x >>= f) := by
  refine of_bind inferInstance fun hrun => ?_
  obtain ⟨draft, _, rfl⟩ := lift_eq_ok.1 hrun
  exact hf rfl

end RunsAt

theorem not_eof_of_current {kind : TokenKind} (hkind : cursor.currentKind? = some kind) (hend : kind ≠ .eof)
    (hcurrent : after.current = cursor.current) : ¬ after.isAt [.eof] := by
  unfold Cursor.isAt
  rw [show after.currentKind? = some kind by rw [← hkind, Cursor.currentKind?, Cursor.currentKind?, hcurrent]]
  simp [hend]

/-! ### Operations -/

instance : Obeys (steady n) (joinLogical left operator right) := by
  unfold joinLogical
  infer_instance

instance : Obeys (steady n) (joinComparison left operator right) := by
  unfold joinComparison
  infer_instance

instance : Obeys (steady n) (joinSum left operator right) := by
  unfold joinSum
  infer_instance

instance : Obeys (steady n) (joinProduct left operator right) := by
  unfold joinProduct
  infer_instance

instance (name : Value) (operator : String) : Obeys (steady n) (stepNode name operator) := by
  unfold stepNode
  infer_instance

theorem runs_chain {operators : List TokenKind} {first operand : Parse Value}
    {join : Value → Value → Value → Parse Value} {count : Nat} (hfirst : Runs n first)
    (hoperand : Obeys (steady n) operand) [Holds (TokenKind.endless operators)]
    [∀ m left operator right, Obeys (steady m) (join left operator right)] (hcount : n ≤ count) :
    Runs n (do leftChain operators operand join count (← first)) := by
  obtain ⟨hobeys, _⟩ := hfirst
  have : Obeys (steady 0) first := obeys_mono hobeys (Nat.zero_le n)
  have : Obeys (steady 0) operand := obeys_mono hoperand (Nat.zero_le n)
  have : Fact (n ≤ count) := ⟨hcount⟩
  exact ⟨inferInstance, inferInstance⟩

/-! ### Calls -/

section Calls

variable {expression : Parse Value} {count : Nat}

instance [Obeys (steady n) expression] : Obeys (steady n) (callArgument expression) := by
  unfold callArgument
  infer_instance

instance [Obeys (steady 0) expression] [Advances expression] : Advances (callArgument expression) := by
  unfold callArgument
  infer_instance

instance [hexpression : Obeys (steady n) expression] [Advances expression] [Fact (n ≤ count)] (name : Value) :
    Obeys (steady n) (functionCall expression count name) := by
  have : Obeys (steady 0) expression := obeys_mono hexpression (Nat.zero_le n)
  unfold functionCall
  infer_instance

instance [hexpression : Obeys (steady n) expression] [Advances expression] [Fact (n ≤ count)] :
    Obeys (steady (n + 1)) (named expression count) := by
  unfold named
  infer_instance

instance [hexpression : Obeys (steady 0) expression] [Advances expression] : Advances (named expression count) := by
  unfold named
  infer_instance

end Calls

/-! ### Primaries -/

section Primaries

variable {expression : Parse Value} {count : Nat}

theorem runsAt_lift_next {x : Draft.Action Value} [Obeys Draft.quiet x] {kind : TokenKind}
    (hkind : cursor.currentKind? = some kind) (hend : kind ≠ .eof) :
    RunsAt n cursor (do let node ← (liftM x : Parse Value); next; return node) := by
  refine .lift_bind fun hcurrent => ?_
  exact (RunsAt.next_bind (not_eof_of_current hkind hend hcurrent) fun _ => inferInstance).mono (Nat.le_succ n)

theorem runsAt_literalNode {kind : TokenKind} (hkind : cursor.currentKind? = some kind) (hend : kind ≠ .eof)
    (sort : Kind) (value : Value) : RunsAt n cursor (literalNode sort value) :=
  .line_bind fun _ => runsAt_lift_next hkind hend

theorem runs_primaryWith (hexpression : Runs n expression) (hcount : n ≤ count) :
    Runs (n + 1) (primaryWith expression count) := by
  obtain ⟨hobeys, _⟩ := hexpression
  have : Obeys (steady 0) expression := obeys_mono hobeys (Nat.zero_le n)
  have : Fact (n ≤ count) := ⟨hcount⟩
  refine runs_of_runsAt fun cursor => ?_
  refine RunsAt.of_bind inferInstance fun hget => ?_
  obtain ⟨rfl, rfl⟩ := get_eq_ok.1 hget
  split
  case h_1 hkind | h_2 hkind | h_3 hkind =>
    exact .currentValue_bind fun _ => runsAt_literalNode hkind (by decide) _ _
  case h_4 hkind => exact .currentValue_bind fun _ => .line_bind fun _ => runsAt_lift_next hkind (by decide)
  case h_5 hkind => exact runsAt_literalNode hkind (by decide) _ _
  case h_7 hkind => exact .next_bind (not_eof_of_current hkind (by decide) rfl) fun _ => inferInstance
  all_goals exact .of_advances

end Primaries

theorem runs_unaryWith {primary : Parse Value} (hprimary : Runs n primary) : Runs n (unaryWith primary) := by
  have := hprimary.obeys
  refine runs_of_runsAt fun cursor => .check_bind (fun hat => ?_) fun _ => hprimary.at cursor
  refine .currentValue_bind fun operator => ?_
  exact (RunsAt.next_bind (Cursor.not_isAt_eof rfl hat) fun _ => inferInstance).mono (Nat.le_succ n)

instance {unary : Parse Value} [Obeys (steady n) unary] : Obeys (steady n) (exponent unary) := by
  unfold exponent
  infer_instance

/-! ### The levels -/

mutual

theorem runs_expression : ∀ count n, 8 * n ≤ count → Runs n (expression count)
  | 0, n, h => runs_zero (by omega)
  | count + 1, n, h =>
      have hoperand := runs_equality count n (by omega)
      runs_chain hoperand hoperand.obeys (by omega)

theorem runs_equality : ∀ count n, 8 * n ≤ count + 1 → Runs n (equality count)
  | 0, n, h => runs_zero (by omega)
  | count + 1, n, h =>
      have hoperand := runs_comparison count n (by omega)
      runs_chain hoperand hoperand.obeys (by omega)

theorem runs_comparison : ∀ count n, 8 * n ≤ count + 2 → Runs n (comparison count)
  | 0, n, h => runs_zero (by omega)
  | count + 1, n, h =>
      have hoperand := runs_additive count n (by omega)
      runs_chain hoperand hoperand.obeys (by omega)

theorem runs_additive : ∀ count n, 8 * n ≤ count + 3 → Runs n (additive count)
  | 0, n, h => runs_zero (by omega)
  | count + 1, 0, h => by
      obtain ⟨_, _⟩ := runs_term count 0 (by omega)
      obtain ⟨_, _⟩ := runs_additive count 0 (by omega)
      rw [additive]
      exact ⟨inferInstance, inferInstance⟩
  | count + 1, n + 1, h => by
      -- What stands behind the first term has at least one token less.
      obtain ⟨_, _⟩ := runs_term count (n + 1) (by omega)
      have : Obeys (steady 0) (term count) := (runs_term count 0 (by omega)).obeys
      obtain ⟨_, _⟩ := runs_additive count n (by omega)
      have : Obeys (steady 0) (additive count) := (runs_additive count 0 (by omega)).obeys
      rw [additive]
      exact ⟨inferInstance, inferInstance⟩

theorem runs_term : ∀ count n, 8 * n ≤ count + 4 → Runs n (term count)
  | 0, n, h => runs_zero (by omega)
  | count + 1, n, h =>
      have hoperand := runs_factor count n (by omega)
      runs_chain hoperand hoperand.obeys (by omega)

theorem runs_factor : ∀ count n, 8 * n ≤ count + 5 → Runs n (factor count)
  | 0, n, h => runs_zero (by omega)
  | count + 1, n, h =>
      have hoperand := runs_unary count n (by omega)
      have := hoperand.obeys
      runs_chain hoperand inferInstance (by omega)

theorem runs_unary : ∀ count n, 8 * n ≤ count + 6 → Runs n (unary count)
  | 0, n, h => runs_zero (by omega)
  | count + 1, n, h => runs_unaryWith (runs_primary count n (by omega))

theorem runs_primary : ∀ count n, 8 * n ≤ count + 7 → Runs n (primary count)
  | 0, n, h => runs_zero (by omega)
  | count + 1, n, h =>
      (runs_primaryWith (runs_expression count (n - 1) (by omega)) (by omega)).mono (by omega)

end

end Scriptlet.Parse
