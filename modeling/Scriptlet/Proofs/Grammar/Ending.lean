import Scriptlet.Proofs.Grammar.Budget
import Scriptlet.Proofs.Grammar.Statements

/-!
Reading a text comes to an end: every round of every loop of the grammar reads a token, issues a
message or is the last one, and the budget of a cursor is never used up.
-/

set_option synthInstance.maxSize 1000000

namespace Scriptlet

theorem Cursor.left_lt_budget {cursor : Cursor} (hlimit : cursor.journal.limit.isSome) :
    16 * (cursor.left + 1) ≤ cursor.budget := by
  obtain ⟨limit, hlimit⟩ := Option.isSome_iff_exists.1 hlimit
  have := Token.weight_le cursor.current
  have := Token.weight_le cursor.ahead
  unfold left tokensLeft budget
  rw [hlimit, Option.getD_some, Option.getD_some]
  omega

namespace Parse

/-! ### The loops -/

/-- A sum is read in one round, since its second operand is a sum again. -/
def sumRound (operand : Parse Value) (_ : Nat) (left : Value) : Parse (Round Value Value) := do
  if ← check [.plus, .minus] then
    let operator ← currentValue
    next
    let right ← operand
    return .done (← joinSum left (.scalar operator) right)
  else return .done left

theorem additive_eq_rounds (count steps : Nat) :
    additive (count + 1) = term count >>= rounds (sumRound (additive count)) (steps + 1) := by
  rw [additive]
  simp only [rounds, sumRound, bind_assoc, ite_bind, pure_bind, bind_pure]

theorem progressive_sumRound (operand : Parse Value) : Progressive (sumRound operand) := by
  intro steps left cursor later complete after h
  unfold sumRound at h
  rw [check_bind] at h
  by_cases hat : cursor.isAt [.plus, .minus] = true
  · rw [if_pos hat] at h
    simp [bind_eq_ok] at h
  · simp [hat] at h

/-- The step between an argument and the next one. -/
def argument (item : Parse (List Value)) : Parse (List Value) := do
  let items ← item
  if ← check [.comma] then expect [.comma]
  return items

/-- The loops of the grammar, each with its round. -/
inductive IsLoop : {σ α : Type} → (Nat → σ → Parse α) → (Nat → σ → Parse (Round σ α)) → Prop
  | program (count : Nat) : IsLoop (programFrom (statement count)) (programRound (statement count))
  | block (count : Nat) :
      IsLoop (fun steps _ => repeatUntil [.rightBrace, .eof] (statementList <$> statement count) steps)
        (repeatRound [.rightBrace, .eof] (statementList <$> statement count))
  | parameters : IsLoop (fun steps _ => parameters steps) parameterRound
  | callArguments (count : Nat) :
      IsLoop (fun steps _ => argumentList (callArgument (expression count)) steps)
        (repeatRound [.rightParen, .eof, .newline] (argument (callArgument (expression count))))
  | methodArguments (count : Nat) :
      IsLoop (fun steps _ => argumentList (return [← expression count]) steps)
        (repeatRound [.rightParen, .eof, .newline] (argument (return [← expression count])))
  | methods (count : Nat) : IsLoop (methodChain (expression count)) (methodRound (expression count))
  | declaredNames : IsLoop declaredNames declaredRound
  | assignedNames : IsLoop assignedNames assignedRound
  | branches (count : Nat) :
      IsLoop (fun steps _ => elifBranches (expression count) (Parse.block count .null) steps)
        (branchRound (expression count) (Parse.block count .null))
  | logical (count : Nat) :
      IsLoop (leftChain [.and, .or] (equality count) joinLogical)
        (chainRound [.and, .or] (equality count) joinLogical)
  | equalities (count : Nat) :
      IsLoop (leftChain [.equal, .notEqual] (comparison count) joinComparison)
        (chainRound [.equal, .notEqual] (comparison count) joinComparison)
  | comparisons (count : Nat) :
      IsLoop (leftChain [.greater, .greaterEqual, .less, .lessEqual] (additive count) joinComparison)
        (chainRound [.greater, .greaterEqual, .less, .lessEqual] (additive count) joinComparison)
  | products (count : Nat) :
      IsLoop (leftChain [.asterisk, .slash, .modulo] (factor count) joinProduct)
        (chainRound [.asterisk, .slash, .modulo] (factor count) joinProduct)
  | powers (count : Nat) :
      IsLoop (leftChain [.power] (exponent (unary count)) joinProduct)
        (chainRound [.power] (exponent (unary count)) joinProduct)
  | newlines : IsLoop (fun steps _ => skipNewlinesWithin steps) (skipRound true [.newline])
  | landmarks : IsLoop (fun steps _ => skipUntilWithin landmarks steps) (skipRound false landmarks)

theorem IsLoop.eq_rounds {σ α : Type} {loop : Nat → σ → Parse α} {round : Nat → σ → Parse (Round σ α)}
    (h : IsLoop loop round) (count : Nat) (state : σ) : loop count state = rounds round count state := by
  cases h with
  | program => exact programFrom_eq_rounds _ count state
  | block | callArguments | methodArguments => exact repeatUntil_eq_rounds _ _ count
  | parameters => exact parameters_eq_rounds count
  | methods => exact methodChain_eq_rounds _ count state
  | declaredNames => exact declaredNames_eq_rounds count state
  | assignedNames => exact assignedNames_eq_rounds count state
  | branches => exact elifBranches_eq_rounds _ _ count
  | logical | equalities | comparisons | products | powers => exact leftChain_eq_rounds _ _ _ count state
  | newlines => exact skipNewlinesWithin_eq_rounds count
  | landmarks => exact skipUntilWithin_eq_rounds _ count

theorem IsLoop.progressive {σ α : Type} {loop : Nat → σ → Parse α} {round : Nat → σ → Parse (Round σ α)}
    (h : IsLoop loop round) : Progressive round := by
  have hexpression count := runs_expression count 0 (Nat.zero_le _)
  have hstatement count := (runs_statement count 0 (Nat.zero_le _)).advances
  have hobeys count := (hexpression count).obeys
  have hadvances count := (hexpression count).advances
  cases h with
  | program count => exact progressive_programRound (hstatement count)
  | block count => exact progressive_repeatRound inferInstance
  | callArguments count | methodArguments count =>
      unfold argument
      exact progressive_repeatRound inferInstance
  | parameters => exact progressive_parameterRound
  | methods count => exact progressive_methodRound (hobeys count)
  | declaredNames => exact progressive_declaredRound
  | assignedNames => exact progressive_assignedRound
  | branches count =>
      exact progressive_branchRound (hobeys count) (runs_block count 0 .null (Nat.zero_le _)).obeys
  | logical count =>
      exact progressive_chainRound rfl (runs_equality count 0 (Nat.zero_le _)).obeys fun _ _ _ => inferInstance
  | equalities count =>
      exact progressive_chainRound rfl (runs_comparison count 0 (Nat.zero_le _)).obeys fun _ _ _ => inferInstance
  | comparisons count =>
      exact progressive_chainRound rfl (runs_additive count 0 (Nat.zero_le _)).obeys fun _ _ _ => inferInstance
  | products count =>
      exact progressive_chainRound rfl (runs_factor count 0 (Nat.zero_le _)).obeys fun _ _ _ => inferInstance
  | powers count =>
      have := (runs_unary count 0 (Nat.zero_le _)).obeys
      exact progressive_chainRound rfl inferInstance fun _ _ _ => inferInstance
  | newlines => exact progressive_skipRound stopsAtEnd_newline
  | landmarks => exact progressive_skipRound stopsAtEnd_landmarks

/-! ### Programs -/

theorem program_allows {cursor : Cursor} (hlimit : cursor.journal.limit.isSome) :
    (steady (cursor.left + 1)).Allows cursor (program cursor) := by
  have hbudget := Cursor.left_lt_budget hlimit
  obtain ⟨_, _⟩ := runs_statement cursor.budget (cursor.left + 1) hbudget
  exact (obeys_programFrom (by omega) []).allows cursor

/-- Within the budget of a cursor the steps do not run out. -/
theorem program_ne_outOfSteps {cursor after : Cursor} (hlimit : cursor.journal.limit.isSome) :
    program cursor ≠ .error (.fault .outOfSteps) after := by
  intro h
  have hallows := program_allows hlimit
  rw [h] at hallows
  exact hallows.2 rfl ⟨hlimit, Nat.lt_succ_self _⟩

/-- A larger budget would lead to the same end. -/
theorem programFrom_eq_program {cursor : Cursor} (hlimit : cursor.journal.limit.isSome) {count : Nat}
    (hcount : cursor.budget ≤ count) : programFrom (statement count) count [] cursor = program cursor := by
  have hextends := programFrom_extends (statement_block_extend hcount).1 ⟨hcount⟩ []
  rcases hextends.eq_or_outOfSteps cursor with h | ⟨after, h⟩
  · exact h.symm
  · exact absurd h (program_ne_outOfSteps hlimit)

/-! ### Texts -/

/-- The two tokens that a cursor needs are read, or reading them fails. -/
theorem start_cases (source : String) (draft : Draft) :
    (∃ cursor, Cursor.start source draft = (.ok (), cursor) ∧ cursor.journal.limit = draft.journal.limit) ∨
      ∃ failure cursor, Cursor.start source draft = (.error failure, cursor) ∧
        (draft.journal.limit.isSome → failure ≠ .fault .outOfSteps) := by
  have hobeys (n : Nat) : Obeys (steady n) (do next; next : Parse Unit) := inferInstance
  unfold Cursor.start
  dsimp only
  generalize hfirst : ({ toDraft := draft, scanner := .ofSource source } : Cursor) = first
  have hsame : first.journal = draft.journal := by rw [← hfirst]
  cases hrun : (do next; next : Parse Unit) first with
  | ok u cursor => exact .inl ⟨cursor, rfl, hsame ▸ ((hobeys 0).step hrun).journal.limit⟩
  | error failure cursor =>
      refine .inr ⟨failure, cursor, rfl, fun hlimit hfailure => ?_⟩
      exact ((hobeys (first.left + 1)).stop hrun).2 hfailure ⟨hsame ▸ hlimit, Nat.lt_succ_self _⟩

theorem parseSource_ne_outOfSteps (source : String) {draft after : Draft} (hlimit : draft.journal.limit.isSome) :
    parseSource source draft ≠ .error (.fault .outOfSteps) after := by
  intro h
  unfold parseSource at h
  rcases start_cases source draft with ⟨cursor, hstart, hsame⟩ | ⟨failure, cursor, hstart, hfailure⟩
  · rw [hstart] at h
    cases hrun : program cursor with
    | ok tree later => simp [hrun] at h
    | error failure later =>
        simp only [hrun, EStateM.Result.error.injEq] at h
        exact program_ne_outOfSteps (hsame ▸ hlimit) (h.1 ▸ hrun)
  · rw [hstart] at h
    exact hfailure hlimit (EStateM.Result.error.inj h).1

/-- Reading a text ends by a tree, by a failure or by giving up at the limit of messages: each round of a
loop but the last reads a token or issues a message, and so the steps that are allowed suffice for every
text, and more of them would make no difference. -/
theorem reading_ends (source : String) (draft : Draft) (hlimit : draft.journal.limit.isSome) :
    (∀ after, parseSource source draft ≠ .error (.fault .outOfSteps) after) ∧
      (∀ cursor count, Cursor.start source draft = (.ok (), cursor) → cursor.budget ≤ count →
        programFrom (statement count) count [] cursor = program cursor) ∧
      (∀ {σ α : Type} {loop : Nat → σ → Parse α} {round : Nat → σ → Parse (Round σ α)}, IsLoop loop round →
        (∀ count state, loop count state = rounds round count state) ∧ Progressive round) ∧
      ∀ count steps, additive (count + 1) = term count >>= rounds (sumRound (additive count)) (steps + 1) ∧
        Progressive (sumRound (additive count)) := by
  refine ⟨fun _ => parseSource_ne_outOfSteps source hlimit, fun cursor count hstart hcount => ?_,
    fun h => ⟨h.eq_rounds, h.progressive⟩, fun count steps => ⟨additive_eq_rounds count steps, ?_⟩⟩
  · rcases start_cases source draft with ⟨started, heq, hsame⟩ | ⟨_, _, heq, _⟩
    · obtain rfl : started = cursor := by simpa [heq] using hstart
      exact programFrom_eq_program (hsame ▸ hlimit) hcount
    · simp [heq] at hstart
  · exact progressive_sumRound (additive count)

theorem reading_ends_unclosed :
    ({} : Draft).journal.limit.isSome ∧ ∀ after, parseSource "break\n\x7b set = f(\"" {} ≠ .error (.fault .outOfSteps) after :=
  ⟨rfl, (reading_ends _ {} rfl).1⟩

end Parse

end Scriptlet
