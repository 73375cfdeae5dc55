import Mathlib.Logic.Basic
import Scriptlet.Proofs.Grammar.Progress

/-!
The loops of the grammar.

Each of them repeats a round, which either leads to another round or ends the loop.  A loop whose
rounds are progressive, so that a token is read or a message issued before the next round, goes round at
most once for each token and message that is left.
-/

-- A rule of the grammar is a long chain of actions, and each link is an instance.
set_option synthInstance.maxSize 100000

namespace Scriptlet.Parse

variable {σ α : Type} {n : Nat}
variable {count : Nat} {state : Unit} {kinds : List TokenKind} {body : Parse (List α)}
variable {names : List Value} {list : NameList}

/-- What a round leads to: another round, whose result is then completed, or the end of the loop. -/
inductive Round (σ α : Type) where
  | again (state : σ) (complete : α → α)
  | done (result : α)

/-- The repetition of a round, which gets the number of rounds that may follow it. -/
def rounds (round : Nat → σ → Parse (Round σ α)) : Nat → σ → Parse α
  | 0, _ => fail .outOfSteps
  | count + 1, state => do
      match ← round count state with
      | .again next complete => complete <$> rounds round count next
      | .done result => return result

/-- Before another round a token is read or a message issued. -/
def Progressive (round : Nat → σ → Parse (Round σ α)) : Prop :=
  ∀ ⦃count state cursor next complete after⦄,
    round count state cursor = .ok (.again next complete) after → after.IsPast cursor

/-- A relation between the rules of each level of expressions, for two numbers of steps. -/
structure Levels (R : Parse Value → Parse Value → Prop) (count other : Nat) : Prop where
  expression : R (expression count) (expression other)
  equality : R (equality count) (equality other)
  comparison : R (comparison count) (comparison other)
  additive : R (additive count) (additive other)
  term : R (term count) (term other)
  factor : R (factor count) (factor other)
  unary : R (unary count) (unary other)
  primary : R (primary count) (primary other)

theorem ite_bind {β : Type} {c : Prop} [Decidable c] (x y : Parse α) (f : α → Parse β) :
    (if c then x else y) >>= f = if c then x >>= f else y >>= f := by
  split <;> rfl

theorem obeys_mono {m : Nat} {x : Parse α} (hx : Obeys (steady n) x) (h : m ≤ n) : Obeys (steady m) x := by
  refine ⟨fun cursor => ?_⟩
  cases hrun : x cursor with
  | ok a after => exact hx.step hrun
  | error failure after =>
      obtain ⟨hfollows, hsteps⟩ := hx.stop hrun
      exact ⟨hfollows, fun hfailure hless => hsteps hfailure ⟨hless.1, Nat.lt_of_lt_of_le hless.2 h⟩⟩

variable {round : Nat → σ → Parse (Round σ α)}

instance [hround : ∀ count state, Obeys (steady 0) (round count state)] (state : σ) :
    Obeys (steady 0) (rounds round count state) := by
  induction count generalizing state with
  | zero => exact .throw fun cursor => ⟨.refl _, fun _ hless => absurd hless.2 (Nat.not_lt_zero _)⟩
  | succ count ih =>
      refine .bind (hround count state) fun outcome => ?_
      cases outcome <;> infer_instance

theorem allows_rounds (measure : Cursor → Nat) [∀ count state, Obeys (steady 0) (round count state)]
    (hround : ∀ count state cursor, cursor.HasLess n → measure cursor ≤ count →
      (steady n).Allows cursor (round count state cursor))
    (hmeasure : ∀ {count state cursor next complete after}, cursor.HasLess n →
      round count state cursor = .ok (.again next complete) after → measure after < measure cursor)
    (count : Nat) (state : σ) (cursor : Cursor) (hcount : cursor.HasLess n → measure cursor < count) :
    (steady n).Allows cursor (rounds round count state cursor) := by
  by_cases hless : cursor.HasLess n
  case neg =>
    cases hrun : rounds round count state cursor with
    | ok result after => exact follows_of_ok hrun
    | error failure after => exact ⟨follows_of_error hrun, fun _ => hless⟩
  have hcount := hcount hless
  induction count generalizing state cursor with
  | zero => exact absurd hcount (Nat.not_lt_zero _)
  | succ count ih =>
      have hallows := hround count state cursor hless (Nat.le_of_lt_succ hcount)
      refine hallows.bind fun outcome after hrun => ?_
      rw [hrun] at hallows
      cases outcome with
      | done result => exact (steady n).refl _
      | again next complete =>
          have hlt := hmeasure hless hrun
          have hrest := ih next after (fun _ => by omega) (hless.of_follows hallows) (by omega)
          show (steady n).Allows after (EStateM.map complete (rounds round count next) after)
          unfold EStateM.map
          cases h : rounds round count next after <;> rwa [h] at hrest

/-- The rounds of a progressive loop are at most as many as the tokens and messages that are left. -/
theorem obeys_rounds [h0 : ∀ count state, Obeys (steady 0) (round count state)] (hprogressive : Progressive round)
    (hround : ∀ count state, Obeys (steady (min n (count + 1))) (round count state)) (hcount : n ≤ count) (state : σ) :
    Obeys (steady n) (rounds round count state) := by
  refine ⟨fun cursor => allows_rounds Cursor.left ?_ ?_ count state cursor fun hless => ?_⟩
  · intro count state cursor hless hle
    have hmin : cursor.HasLess (min n (count + 1)) := ⟨hless.1, by have := hless.2; omega⟩
    cases hrun : round count state cursor with
    | ok outcome after => exact follows_of_ok hrun
    | error failure after =>
        obtain ⟨hfollows, hsteps⟩ := (hround count state).stop hrun
        exact ⟨hfollows, fun hfailure => absurd hmin (hsteps hfailure)⟩
  · intro count state cursor next complete after hless hrun
    exact (hprogressive hrun).left_lt hless.1
  · exact Nat.lt_of_lt_of_le hless.2 hcount

instance : Fact (0 ≤ count) := ⟨Nat.zero_le count⟩

/-! ### Skipping tokens -/

/-- A round that skips a token as long as the kinds given are those wanted, or those not wanted. -/
def skipRound (wanted : Bool) (kinds : List TokenKind) (_ : Nat) (_ : Unit) : Parse (Round Unit Unit) := do
  if (← check kinds) = wanted then
    next
    return .again () id
  else return .done ()

theorem skipUntilWithin_eq_rounds (kinds : List TokenKind) (count : Nat) :
    skipUntilWithin kinds count = rounds (skipRound false kinds) count () := by
  induction count with
  | zero => rfl
  | succ count ih =>
      rw [skipUntilWithin, rounds, skipRound, bind_assoc]
      refine congrArg (check kinds >>= ·) (funext fun holds => ?_)
      cases holds <;> simp [ih]

theorem skipNewlinesWithin_eq_rounds (count : Nat) :
    skipNewlinesWithin count = rounds (skipRound true [.newline]) count () := by
  induction count with
  | zero => rfl
  | succ count ih =>
      rw [skipNewlinesWithin, rounds, skipRound]
      simp only [bind_assoc, ite_bind, pure_bind, id_map, ih]

instance (wanted : Bool) : Obeys (steady n) (skipRound wanted kinds count state) := by
  unfold skipRound
  infer_instance

/-- The end of the text is not skipped. -/
def StopsAtEnd (wanted : Bool) (kinds : List TokenKind) : Prop :=
  ∀ {cursor : Cursor}, cursor.isAt kinds = wanted → ¬ cursor.isAt [.eof]

theorem stopsAtEnd_landmarks : StopsAtEnd false landmarks := by
  intro cursor h heof
  have hat : cursor.isAt landmarks = true := Cursor.isAt_of_mem heof (by decide)
  simp [hat] at h

theorem stopsAtEnd_newline : StopsAtEnd true [.newline] :=
  Cursor.not_isAt_eof rfl

section Skipping

variable {wanted : Bool} {kinds : List TokenKind} {cursor after : Cursor}

theorem skipRound_eq_ok {later : Unit} {complete : Unit → Unit}
    (h : skipRound wanted kinds count state cursor = .ok (.again later complete) after) :
    cursor.isAt kinds = wanted ∧ next cursor = .ok () after := by
  unfold skipRound at h
  rw [check_bind] at h
  by_cases hat : cursor.isAt kinds = wanted
  · rw [if_pos hat] at h
    obtain ⟨_, _, hnext, h⟩ := bind_eq_ok.1 h
    obtain ⟨_, rfl⟩ := pure_eq_ok.1 h
    exact ⟨hat, hnext⟩
  · rw [if_neg hat] at h
    simp at h

theorem progressive_skipRound (hend : StopsAtEnd wanted kinds) : Progressive (skipRound wanted kinds) := by
  intro count state cursor later complete after h
  obtain ⟨hat, hnext⟩ := skipRound_eq_ok h
  exact next_isPast (hend hat) hnext

/-- Skipping is over when the tokens are. -/
theorem allows_skip (hend : StopsAtEnd wanted kinds) (cursor : Cursor) :
    (steady n).Allows cursor (rounds (skipRound wanted kinds) cursor.tokenBound () cursor) := by
  refine allows_rounds Cursor.tokensLeft (fun _ _ cursor _ _ => Obeys.allows cursor) ?_ _ _ cursor
    fun _ => cursor.tokensLeft_lt
  intro count state cursor later complete after _ h
  obtain ⟨hat, hnext⟩ := skipRound_eq_ok h
  exact next_tokens (hend hat) hnext

theorem isPast_skip (hend : StopsAtEnd wanted kinds) (hat : cursor.isAt kinds = wanted) {u : Unit}
    (h : rounds (skipRound wanted kinds) (count + 1) () cursor = .ok u after) : after.IsPast cursor := by
  rw [rounds, skipRound, bind_assoc, check_bind, if_pos hat, bind_assoc] at h
  refine next_bind_isPast (hend hat) (fun _ => ?_) h
  rw [pure_bind]
  infer_instance

end Skipping

instance : Obeys (steady n) skipNewlines := by
  refine ⟨fun cursor => ?_⟩
  show (steady n).Allows cursor (skipNewlinesWithin cursor.tokenBound cursor)
  rw [skipNewlinesWithin_eq_rounds]
  exact allows_skip stopsAtEnd_newline cursor

instance : Obeys (steady n) (skipUntil landmarks) := by
  refine ⟨fun cursor => ?_⟩
  show (steady n).Allows cursor (skipUntilWithin landmarks cursor.tokenBound cursor)
  rw [skipUntilWithin_eq_rounds]
  exact allows_skip stopsAtEnd_landmarks cursor

instance : Obeys (steady n) (throw .exit : Parse α) :=
  .throw fun _ => ⟨.refl _, by simp⟩

instance : Obeys (steady n) recover := by
  unfold recover
  infer_instance

/-! ### Lists -/

def repeatRound (kinds : List TokenKind) (body : Parse (List α)) (_ : Nat) (_ : Unit) :
    Parse (Round Unit (List α)) := do
  if ← check kinds then return .done []
  let items ← body
  return .again () (items ++ ·)

theorem repeatUntil_eq_rounds (kinds : List TokenKind) (body : Parse (List α)) (count : Nat) :
    repeatUntil kinds body count = rounds (repeatRound kinds body) count () := by
  induction count with
  | zero => rfl
  | succ count ih =>
      rw [repeatUntil, rounds, repeatRound]
      simp only [bind_assoc, ite_bind, pure_bind, map_eq_pure_bind, ih]

theorem progressive_repeatRound (hbody : Advances body) : Progressive (repeatRound kinds body) := by
  intro count state cursor later complete after h
  unfold repeatRound at h
  rw [check_bind] at h
  by_cases hat : cursor.isAt kinds = true
  · simp [hat] at h
  · rw [if_neg hat] at h
    obtain ⟨items, _, hrun, h⟩ := bind_eq_ok.1 h
    obtain ⟨_, rfl⟩ := pure_eq_ok.1 h
    exact hbody.isPast hrun

instance [Obeys (steady n) body] : Obeys (steady n) (repeatRound kinds body count state) := by
  unfold repeatRound
  infer_instance

instance [hbody : Obeys (steady n) body] [hadvances : Advances body] [hcount : Fact (n ≤ count)] :
    Obeys (steady n) (repeatUntil kinds body count) := by
  have hsteady : ∀ m ≤ n, Obeys (steady m) body := fun _ => obeys_mono hbody
  have := hsteady 0 (Nat.zero_le n)
  rw [repeatUntil_eq_rounds]
  refine obeys_rounds (progressive_repeatRound hadvances) (fun count state => ?_) hcount.out _
  have := hsteady (min n (count + 1)) (Nat.min_le_left _ _)
  infer_instance

/-! ### Operators -/

def chainRound (operators : List TokenKind) (operand : Parse Value) (join : Value → Value → Value → Parse Value)
    (_ : Nat) (left : Value) : Parse (Round Value Value) := do
  if ← check operators then
    let operator ← currentValue
    next
    let right ← operand
    let joined ← join left (.scalar operator) right
    return .again joined id
  else return .done left

section Chains

variable {operators : List TokenKind} {operand : Parse Value} {join : Value → Value → Value → Parse Value}
variable {left : Value}

theorem leftChain_eq_rounds (operators : List TokenKind) (operand : Parse Value)
    (join : Value → Value → Value → Parse Value) (count : Nat) (left : Value) :
    leftChain operators operand join count left = rounds (chainRound operators operand join) count left := by
  induction count generalizing left with
  | zero => rfl
  | succ count ih =>
      rw [leftChain, rounds, chainRound]
      simp only [bind_assoc, ite_bind, pure_bind, id_map, ih]

instance [Obeys (steady n) operand] [∀ left operator right, Obeys (steady n) (join left operator right)] :
    Obeys (steady n) (chainRound operators operand join count left) := by
  unfold chainRound
  infer_instance

theorem progressive_chainRound (hoperators : TokenKind.endless operators) (hoperand : Obeys (steady 0) operand)
    (hjoin : ∀ left operator right, Obeys (steady 0) (join left operator right)) :
    Progressive (chainRound operators operand join) := by
  intro count left cursor later complete after h
  unfold chainRound at h
  rw [check_bind] at h
  by_cases hat : cursor.isAt operators = true
  · rw [if_pos hat] at h
    exact currentValue_next_isPast (Cursor.not_isAt_eof hoperators hat) (fun _ _ => inferInstance) h
  · simp [hat] at h

instance [hoperators : Holds (TokenKind.endless operators)] [hoperand : Obeys (steady n) operand]
    [hjoin : ∀ m left operator right, Obeys (steady m) (join left operator right)] [hcount : Fact (n ≤ count)] :
    Obeys (steady n) (leftChain operators operand join count left) := by
  have hsteady : ∀ m ≤ n, Obeys (steady m) operand := fun _ => obeys_mono hoperand
  have := hsteady 0 (Nat.zero_le n)
  rw [leftChain_eq_rounds]
  refine obeys_rounds (progressive_chainRound hoperators.eq_true inferInstance (hjoin 0)) (fun count state => ?_)
    hcount.out _
  have := hsteady (min n (count + 1)) (Nat.min_le_left _ _)
  infer_instance

end Chains

/-! ### Arguments and methods -/

instance {item : Parse (List Value)} [Obeys (steady n) item] [Obeys (steady 0) item] [Advances item] [Fact (n ≤ count)] :
    Obeys (steady n) (argumentList item count) := by
  unfold argumentList
  infer_instance

def methodRound (expression : Parse Value) (count : Nat) (receiver : Value) : Parse (Round Value Value) := do
  if ← check [.dot] then
    next
    let name ← currentValue
    expect [.identifier]
    expect [.leftParen] (some ("Missing opening '(' parenthesis after method call: " ++ name.display))
    let arguments ← argumentList (return [← expression]) count
    expect [.rightParen]
      (some ("Could not find enclosing bracket ')'for the method call: " ++ name.display ++ "(..."))
    let call ← Draft.newMethod receiver (.scalar name) (.list arguments) (← line)
    return .again call id
  else
    setFocus .null
    return .done receiver

section Methods

variable {expression : Parse Value}

theorem methodChain_eq_rounds (expression : Parse Value) (count : Nat) (receiver : Value) :
    methodChain expression count receiver = rounds (methodRound expression) count receiver := by
  induction count generalizing receiver with
  | zero => rfl
  | succ count ih =>
      rw [methodChain, rounds, methodRound]
      simp only [bind_assoc, ite_bind, pure_bind, id_map, ih]

/-- The rest of a round behind the dot. -/
theorem obeys_methodRound [Advances expression] [hexpression : Obeys (steady n) expression]
    (count : Nat) (receiver : Value) : Obeys (steady (min n (count + 1))) (methodRound expression count receiver) := by
  have hsteady : ∀ m ≤ n, Obeys (steady m) expression := fun _ => obeys_mono hexpression
  have := hsteady 0 (Nat.zero_le n)
  refine ⟨fun cursor => ?_⟩
  unfold methodRound
  rw [check_bind]
  by_cases hat : cursor.isAt [.dot] = true
  · rw [if_pos hat]
    cases hmin : min n (count + 1) with
    | zero => exact Obeys.allows cursor
    | succ m =>
        have := hsteady m (by omega)
        have : Fact (m ≤ count) := ⟨by omega⟩
        exact next_bind_allows (Cursor.not_isAt_eof rfl hat) fun _ => inferInstance
  · rw [if_neg hat]
    exact Obeys.allows cursor

theorem progressive_methodRound [Advances expression] (hexpression : Obeys (steady 0) expression) :
    Progressive (methodRound expression) := by
  intro count left cursor later complete after h
  unfold methodRound at h
  rw [check_bind] at h
  by_cases hat : cursor.isAt [.dot] = true
  · rw [if_pos hat] at h
    exact next_bind_isPast (Cursor.not_isAt_eof rfl hat) (fun _ => inferInstance) h
  · rw [if_neg hat] at h
    obtain ⟨_, _, _, h⟩ := bind_eq_ok.1 h
    simp at h

instance [Advances expression] [hexpression : Obeys (steady n) expression] [hcount : Fact (n ≤ count)]
    (receiver : Value) : Obeys (steady n) (methodChain expression count receiver) := by
  have : Obeys (steady 0) expression := obeys_mono hexpression (Nat.zero_le n)
  have : ∀ count state, Obeys (steady 0) (methodRound expression count state) :=
    fun count state => obeys_mono (obeys_methodRound (n := n) count state) (Nat.zero_le _)
  rw [methodChain_eq_rounds]
  exact obeys_rounds (progressive_methodRound inferInstance) obeys_methodRound hcount.out receiver

end Methods

/-! ### Names, branches and parameters -/

def parameterRound (_ : Nat) (_ : Unit) : Parse (Round Unit (List Value × Bool)) := do
  if ← check [.rightParen] then return .done ([], true)
  let name ← currentValue
  next
  unless ← check [.colon] do
    complain "Missing token ':' Parameters must be in format 'name' ':' 'type'"
    return .done ([], false)
  next
  let type ← typeNamed (← currentValue)
  next
  let parameter ← Draft.newParameter (.scalar name) (.text type)
  if ← check [.comma] then expect [.comma]
  return .again () fun (rest, complete) => (parameter :: rest, complete)

theorem parameters_eq_rounds (count : Nat) : parameters count = rounds parameterRound count () := by
  induction count with
  | zero => rfl
  | succ count ih =>
      rw [parameters, rounds, parameterRound]
      simp only [bind_assoc, ite_bind, pure_bind, map_eq_pure_bind, ih]

instance : Obeys (steady n) (parameterRound count state) := by
  unfold parameterRound
  infer_instance

theorem progressive_parameterRound : Progressive parameterRound := by
  intro count state cursor later complete after h
  unfold parameterRound at h
  rw [check_bind] at h
  by_cases hat : cursor.isAt [.rightParen] = true
  · simp [hat] at h
  rw [if_neg hat] at h
  obtain ⟨name, first, hname, h⟩ := bind_eq_ok.1 h
  obtain ⟨_, second, hnext, h⟩ := bind_eq_ok.1 h
  have hfirst : first.Follows cursor := follows_of_ok hname
  have hsecond : second.Follows first := follows_of_ok hnext
  rw [check_bind] at h
  by_cases hcolon : second.isAt [.colon] = true
  · rw [if_pos hcolon] at h
    exact (hfirst.trans hsecond).trans_isPast
      (next_bind_isPast (Cursor.not_isAt_eof rfl hcolon) (fun _ => inferInstance) h)
  · rw [if_neg hcolon] at h
    obtain ⟨_, _, _, h⟩ := bind_eq_ok.1 h
    simp at h

instance [hcount : Fact (n ≤ count)] : Obeys (steady n) (parameters count) := by
  rw [parameters_eq_rounds]
  exact obeys_rounds progressive_parameterRound (fun _ _ => inferInstance) hcount.out ()

def assignedRound (_ : Nat) (names : List Value) : Parse (Round (List Value) (List Value)) := do
  if ← check [.identifier] then
    let name ← currentValue
    next
    let extended := names ++ [.scalar name]
    if ← check [.assign] then
      next
      return .done extended
    next
    return .again extended id
  else return .done names

theorem assignedNames_eq_rounds (count : Nat) (names : List Value) :
    assignedNames count names = rounds assignedRound count names := by
  induction count generalizing names with
  | zero => rfl
  | succ count ih =>
      rw [assignedNames, rounds, assignedRound]
      simp only [bind_assoc, ite_bind, pure_bind, id_map, ih]

instance : Obeys (steady n) (assignedRound count names) := by
  unfold assignedRound
  infer_instance

theorem progressive_assignedRound : Progressive assignedRound := by
  intro count names cursor later complete after h
  unfold assignedRound at h
  rw [check_bind] at h
  by_cases hat : cursor.isAt [.identifier] = true
  · rw [if_pos hat] at h
    exact currentValue_next_isPast (Cursor.not_isAt_eof rfl hat) (fun _ _ => inferInstance) h
  · simp [hat] at h

instance [hcount : Fact (n ≤ count)] : Obeys (steady n) (assignedNames count names) := by
  rw [assignedNames_eq_rounds]
  exact obeys_rounds progressive_assignedRound (fun _ _ => inferInstance) hcount.out names

def branchRound (expression block : Parse Value) (_ : Nat) (_ : Unit) : Parse (Round Unit (List Value)) := do
  if ← check [.elifKey] then
    expect [.elifKey]
    expect [.leftParen] (some "elif conditions must be enclosed within parenthesis: '(' 'condition' ')'")
    let condition ← expression
    expect [.rightParen] (some "No closing parenthesis ')' for elif condition found.")
    let body ← block
    skipNewlines
    return .again () (.tuple [condition, body] :: ·)
  else return .done []

theorem elifBranches_eq_rounds (expression block : Parse Value) (count : Nat) :
    elifBranches expression block count = rounds (branchRound expression block) count () := by
  induction count with
  | zero => rfl
  | succ count ih =>
      rw [elifBranches, rounds, branchRound]
      simp only [bind_assoc, ite_bind, pure_bind, map_eq_pure_bind, ih]

instance {expression block : Parse Value} [Obeys (steady n) expression] [Obeys (steady n) block] :
    Obeys (steady n) (branchRound expression block count state) := by
  unfold branchRound
  infer_instance

theorem progressive_branchRound {expression block : Parse Value} (hexpression : Obeys (steady 0) expression)
    (hblock : Obeys (steady 0) block) : Progressive (branchRound expression block) := by
  intro count state cursor later complete after h
  unfold branchRound at h
  rw [check_bind] at h
  by_cases hat : cursor.isAt [.elifKey] = true
  · rw [if_pos hat] at h
    exact Advances.isPast h
  · simp [hat] at h

instance {expression block : Parse Value} [hexpression : Obeys (steady n) expression] [hblock : Obeys (steady n) block]
    [hcount : Fact (n ≤ count)] : Obeys (steady n) (elifBranches expression block count) := by
  have hsteady : ∀ m ≤ n, Obeys (steady m) expression ∧ Obeys (steady m) block :=
    fun _ h => ⟨obeys_mono hexpression h, obeys_mono hblock h⟩
  obtain ⟨_, _⟩ := hsteady 0 (Nat.zero_le n)
  rw [elifBranches_eq_rounds]
  refine obeys_rounds (progressive_branchRound inferInstance inferInstance) (fun count state => ?_) hcount.out ()
  obtain ⟨_, _⟩ := hsteady (min n (count + 1)) (Nat.min_le_left _ _)
  infer_instance

def declaredRound (_ : Nat) (list : NameList) : Parse (Round NameList (Option NameList)) := do
  if ← check [.identifier] then
    let name ← currentValue
    expect [.identifier]
    let mut type := list.type
    if ← check [.colon] then
      let given ← declaredType
      if !given.isNull && type.isNull then type := given
      unless declaredNames.sameType given type do
        complain ("Expected type '" ++ (← Draft.display type) ++ "', recieved: '" ++
          (← Draft.display given) ++ "' for variable '" ++ name.display ++
          "'. All type tags must be the same in multiple variable declaration (tip: just set the first one)")
    let extended : NameList := ⟨list.names ++ [.scalar name], type⟩
    if ← check [.assign] then
      next
      return .done (some extended)
    if ← check [.newline] then
      let line := (← get).line
      (Journal.report
        { message := "Expected an expression for the multiple variable declaration on line " ++
            toString line ++ ". Please ensure it is in format:\n\t 'set x,y,z = 10' " } :
        Draft.Action Unit)
      next
      return .done none
    next
    return .again extended id
  else return .done (some list)

theorem declaredNames_eq_rounds (count : Nat) (list : NameList) :
    declaredNames count list = rounds declaredRound count list := by
  induction count generalizing list with
  | zero => rfl
  | succ count ih =>
      rw [declaredNames, rounds, declaredRound]
      simp only [bind_assoc, ite_bind, pure_bind, id_map, ih]

instance : Obeys (steady n) (declaredRound count list) := by
  unfold declaredRound
  infer_instance

theorem progressive_declaredRound : Progressive declaredRound := by
  intro count list cursor later complete after h
  unfold declaredRound at h
  rw [check_bind] at h
  by_cases hat : cursor.isAt [.identifier] = true
  · rw [if_pos hat] at h
    exact Advances.isPast h
  · simp [hat] at h

instance [hcount : Fact (n ≤ count)] : Obeys (steady n) (declaredNames count list) := by
  rw [declaredNames_eq_rounds]
  exact obeys_rounds progressive_declaredRound (fun _ _ => inferInstance) hcount.out list

/-! ### Programs -/

def programRound (statement : Parse Value) (_ : Nat) (nodes : List Value) : Parse (Round (List Value) Value) := do
  if ← check [.eof] then return .done (← Draft.newProgram (.list nodes))
  else match ← attempt statement with
    | .ok node => return .again (nodes ++ statementList node) id
    | .error .exit => return .done .null
    | .error failure =>
        (Journal.announce
          (.ofMessage .parsing ("An unknown error occurred during parsing: " ++ failure.wording)) false :
          Draft.Action Unit)
        return .done (← Draft.newProgram (.list nodes))

theorem programFrom_eq_rounds (statement : Parse Value) (count : Nat) (nodes : List Value) :
    programFrom statement count nodes = rounds (programRound statement) count nodes := by
  induction count generalizing nodes with
  | zero => rfl
  | succ count ih =>
      rw [programFrom, rounds, programRound]
      simp only [bind_assoc, ite_bind, pure_bind, bind_pure, ih]
      refine congrArg (check [.eof] >>= ·) (funext fun holds => ?_)
      cases holds
      case true => rfl
      case false =>
        refine congrArg (attempt statement >>= ·) (funext fun outcome => ?_)
        rcases outcome with (_ | _ | _ | _) | node
        all_goals simp

instance {statement : Parse Value} [Obeys (steady n) statement] (nodes : List Value) :
    Obeys (steady n) (programRound statement count nodes) := by
  refine .bind inferInstance fun holds => ?_
  split
  · infer_instance
  · refine .bind inferInstance fun outcome => ?_
    rcases outcome with (_ | _ | _ | _) | node
    all_goals infer_instance

theorem progressive_programRound {statement : Parse Value} (hstatement : Advances statement) :
    Progressive (programRound statement) := by
  intro count nodes cursor later complete after h
  unfold programRound at h
  rw [check_bind] at h
  by_cases hat : cursor.isAt [.eof] = true
  · simp [hat] at h
  rw [if_neg hat] at h
  obtain ⟨outcome, middle, hattempt, h⟩ := bind_eq_ok.1 h
  rcases attempt_eq_ok.1 hattempt with ⟨node, hrun, rfl⟩ | ⟨failure, _, _, rfl⟩
  · obtain ⟨_, rfl⟩ := pure_eq_ok.1 h
    exact hstatement.isPast hrun
  · rcases failure with _ | _ | _ | _ <;> simp at h

theorem obeys_programFrom {statement : Parse Value} [hstatement : Obeys (steady n) statement]
    [hadvances : Advances statement] (hcount : n ≤ count) (nodes : List Value) :
    Obeys (steady n) (programFrom statement count nodes) := by
  have hsteady : ∀ m ≤ n, Obeys (steady m) statement := fun _ => obeys_mono hstatement
  have := hsteady 0 (Nat.zero_le n)
  rw [programFrom_eq_rounds]
  refine obeys_rounds (progressive_programRound hadvances) (fun count state => ?_) hcount _
  have := hsteady (min n (count + 1)) (Nat.min_le_left _ _)
  infer_instance

end Scriptlet.Parse
