import Scriptlet.Proofs.Grammar.Expressions

/-!
More steps than enough change nothing: where a rule of the grammar does not run out of steps, it does
the same with more of them.
-/

set_option synthInstance.maxSize 1000000

namespace Scriptlet.Parse

variable {α β : Type} {count larger : Nat}

/-- The second action does what the first one does, unless the first one runs out of steps. -/
class Extends (x y : Parse α) : Prop where
  eq_or_outOfSteps : ∀ cursor, x cursor = y cursor ∨ ∃ after, x cursor = .error (.fault .outOfSteps) after

namespace Extends

theorem refl (x : Parse α) : Extends x x :=
  ⟨fun _ => .inl rfl⟩

theorem outOfSteps (y : Parse α) : Extends (fail .outOfSteps) y :=
  ⟨fun cursor => .inr ⟨cursor, rfl⟩⟩

theorem bind {x y : Parse α} {f g : α → Parse β} (hx : Extends x y) (hf : ∀ a, Extends (f a) (g a)) :
    Extends (x >>= f) (y >>= g) := by
  refine ⟨fun cursor => ?_⟩
  show EStateM.bind x f cursor = EStateM.bind y g cursor ∨
    ∃ after, EStateM.bind x f cursor = .error (.fault .outOfSteps) after
  unfold EStateM.bind
  rcases hx.eq_or_outOfSteps cursor with h | ⟨after, h⟩
  · rw [h]
    cases y cursor with
    | error failure after => exact .inl rfl
    | ok a after => exact (hf a).eq_or_outOfSteps after
  · rw [h]
    exact .inr ⟨after, rfl⟩

/-- A lack of steps is not handled. -/
theorem handling {x y : Parse α} (hx : Extends x y) (handler : Failure → Parse α) :
    Extends (handling x handler) (handling y handler) := by
  refine ⟨fun cursor => ?_⟩
  unfold Scriptlet.handling
  rcases hx.eq_or_outOfSteps cursor with h | ⟨after, h⟩
  · rw [h]
    exact .inl rfl
  · rw [h]
    exact .inr ⟨after, rfl⟩

end Extends

instance (x : Parse α) : Extends x x :=
  .refl x

instance (priority := low) {x y : Parse α} {f g : α → Parse β} [hx : Extends x y] [hf : ∀ a, Extends (f a) (g a)] :
    Extends (x >>= f) (y >>= g) :=
  .bind hx hf

instance (priority := low) {f : α → β} {x y : Parse α} [hx : Extends x y] : Extends (f <$> x) (f <$> y) := by
  rw [map_eq_pure_bind, map_eq_pure_bind]
  infer_instance

instance (priority := low) {c : Prop} [Decidable c] {x y x' y' : Parse α} [Extends x x'] [Extends y y'] :
    Extends (if c then x else y) (if c then x' else y') := by
  split <;> infer_instance

instance (priority := low) {x y : Parse α} [Extends x y] : Extends (attempt x) (attempt y) := by
  unfold attempt
  exact .handling inferInstance _

/-! ### Loops -/

theorem Extends.rounds {σ : Type} {round round' : Nat → σ → Parse (Round σ α)}
    (hround : ∀ count larger state, Fact (count ≤ larger) → Extends (round count state) (round' larger state))
    (h : Fact (count ≤ larger)) (state : σ) : Extends (rounds round count state) (rounds round' larger state) := by
  induction count generalizing larger state with
  | zero => exact .outOfSteps _
  | succ count ih =>
      obtain ⟨larger, rfl⟩ := Nat.exists_eq_add_of_le' (Nat.lt_of_lt_of_le (Nat.succ_pos count) h.out)
      have h : Fact (count ≤ larger) := ⟨Nat.le_of_succ_le_succ h.out⟩
      refine .bind (hround count larger state h) fun outcome => ?_
      cases outcome with
      | again next complete =>
          have := ih h next
          infer_instance
      | done result => infer_instance

section Loops

variable [h : Fact (count ≤ larger)] {expression expression' block block' : Parse Value}

instance {kinds : List TokenKind} {body body' : Parse (List α)} [Extends body body'] :
    Extends (repeatUntil kinds body count) (repeatUntil kinds body' larger) := by
  rw [repeatUntil_eq_rounds, repeatUntil_eq_rounds]
  refine .rounds (fun _ _ _ _ => ?_) h ()
  unfold repeatRound
  infer_instance

instance {operators : List TokenKind} {operand operand' : Parse Value} {join : Value → Value → Value → Parse Value}
    [Extends operand operand'] (left : Value) :
    Extends (leftChain operators operand join count left) (leftChain operators operand' join larger left) := by
  rw [leftChain_eq_rounds, leftChain_eq_rounds]
  refine .rounds (fun _ _ _ _ => ?_) h left
  unfold chainRound
  infer_instance

instance {item item' : Parse (List Value)} [Extends item item'] :
    Extends (argumentList item count) (argumentList item' larger) := by
  unfold argumentList
  infer_instance

instance [Extends expression expression'] (receiver : Value) :
    Extends (methodChain expression count receiver) (methodChain expression' larger receiver) := by
  rw [methodChain_eq_rounds, methodChain_eq_rounds]
  refine .rounds (fun _ _ _ _ => ?_) h receiver
  unfold methodRound
  infer_instance

instance : Extends (parameters count) (parameters larger) := by
  rw [parameters_eq_rounds, parameters_eq_rounds]
  exact .rounds (fun _ _ state _ => .refl (parameterRound 0 state)) h ()

instance (names : List Value) : Extends (assignedNames count names) (assignedNames larger names) := by
  rw [assignedNames_eq_rounds, assignedNames_eq_rounds]
  exact .rounds (fun _ _ names _ => .refl (assignedRound 0 names)) h names

instance (list : NameList) : Extends (declaredNames count list) (declaredNames larger list) := by
  rw [declaredNames_eq_rounds, declaredNames_eq_rounds]
  exact .rounds (fun _ _ list _ => .refl (declaredRound 0 list)) h list

instance [Extends expression expression'] [Extends block block'] :
    Extends (elifBranches expression block count) (elifBranches expression' block' larger) := by
  rw [elifBranches_eq_rounds, elifBranches_eq_rounds]
  refine .rounds (fun _ _ _ _ => ?_) h ()
  unfold branchRound
  infer_instance

end Loops

/-! ### Expressions -/

section Expressions

variable [Fact (count ≤ larger)] {expression expression' : Parse Value} [Extends expression expression']

instance (name : Value) : Extends (functionCall expression count name) (functionCall expression' larger name) := by
  unfold functionCall callArgument
  infer_instance

instance : Extends (named expression count) (named expression' larger) := by
  unfold named
  infer_instance

instance : Extends (primaryWith expression count) (primaryWith expression' larger) := by
  refine .bind (.refl _) fun cursor => ?_
  split <;> infer_instance

end Expressions

theorem levelsExtend (h : count ≤ larger) : Levels Extends count larger := by
  induction count generalizing larger with
  | zero => constructor <;> exact .outOfSteps _
  | succ count ih =>
      obtain ⟨larger, rfl⟩ := Nat.exists_eq_add_of_le' (Nat.lt_of_lt_of_le (Nat.succ_pos count) h)
      have h : count ≤ larger := Nat.le_of_succ_le_succ h
      have : Fact (count ≤ larger) := ⟨h⟩
      obtain ⟨_, _, _, _, _, _, _, _⟩ := ih h
      constructor <;>
        simp only [expression, equality, comparison, additive, term, factor, exponent, unary, unaryWith, primary] <;>
        infer_instance

instance [h : Fact (count ≤ larger)] : Extends (expression count) (expression larger) :=
  (levelsExtend h.out).expression

/-! ### Statements -/

section Statements

variable [Fact (count ≤ larger)] {block block' : Parse Value} [Extends block block']

instance (name type : Value) : Extends (declaration count name type) (declaration larger name type) := by
  refine .bind (.refl _) fun _ => .bind (.refl _) fun _ => ?_
  split
  · refine .bind inferInstance fun list => ?_
    cases list <;> infer_instance
  · infer_instance

instance (name : Value) : Extends (assignment count name) (assignment larger name) := by
  unfold assignment
  infer_instance

instance : Extends (loopBody block) (loopBody block') := by
  unfold loopBody
  infer_instance

instance : Extends (guarded block) (guarded block') := by
  refine .bind inferInstance fun outcome => ?_
  infer_instance

end Statements

section Bodies

variable [Fact (count ≤ larger)] {block block' : Value → Parse Value}
  [∀ appended, Extends (block appended) (block' appended)]

instance : Extends (statementBody count block) (statementBody larger block') := by
  unfold statementBody conditional functionDeclaration returnStatement whileLoop forLoop counterUpdate setStatement
    namedStatement
  refine .bind (.refl _) fun cursor => ?_
  split <;> infer_instance

end Bodies

theorem statement_block_extend (h : count ≤ larger) :
    Extends (statement count) (statement larger) ∧ ∀ appended, Extends (block count appended) (block larger appended) := by
  induction count generalizing larger with
  | zero => exact ⟨.outOfSteps _, fun _ => .outOfSteps _⟩
  | succ count ih =>
      obtain ⟨larger, rfl⟩ := Nat.exists_eq_add_of_le' (Nat.lt_of_lt_of_le (Nat.succ_pos count) h)
      have h : count ≤ larger := Nat.le_of_succ_le_succ h
      have : Fact (count ≤ larger) := ⟨h⟩
      obtain ⟨_, _⟩ := ih h
      unfold statement block braced
      exact ⟨inferInstance, fun _ => inferInstance⟩

theorem programFrom_extends {statement statement' : Parse Value} (hstatement : Extends statement statement')
    (h : Fact (count ≤ larger)) (nodes : List Value) :
    Extends (programFrom statement count nodes) (programFrom statement' larger nodes) := by
  rw [programFrom_eq_rounds, programFrom_eq_rounds]
  refine .rounds (fun _ _ nodes _ => .bind (.refl _) fun _ => ?_) h nodes
  split
  · infer_instance
  · exact .bind inferInstance fun _ => .refl _

end Scriptlet.Parse
