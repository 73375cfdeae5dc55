import Scriptlet.Proofs.Grammar.Onward

/-!
Where a rule of the grammar stops.

In a text that is made of lines a line break stands before the end.  An expression, a block and every
statement that ends with one of them therefore stop before the end of the text, unless there is a message.
-/

set_option synthInstance.maxSize 10000000

namespace Scriptlet

/-- Kinds of tokens among which neither the line break nor the end is. -/
@[reducible] def TokenKind.inline : List TokenKind → Bool
  | [] => true
  | .eof :: _ => false
  | .newline :: _ => false
  | _ :: rest => inline rest

theorem TokenKind.notMem_of_inline {kinds : List TokenKind} (h : inline kinds) : eof ∉ kinds ∧ newline ∉ kinds := by
  induction kinds with
  | nil => simp
  | cons kind rest ih =>
      cases kind
      case eof | newline => simp at h
      all_goals simpa using ih h

namespace Parse

variable {α β : Type} {cursor after : Cursor} {count : Nat}
variable {x y : Parse α} {kinds : List TokenKind} {name left operator right : Value} {f : α → Parse β} {u : Unit}
  {c : Prop} {message : Option String}

/-- An action that stops before the end. -/
class Settles (x : Parse α) : Prop where
  not_eof : ∀ {cursor a after}, x cursor = .ok a after → after.IsQuiet → cursor.IsSound → ¬ after.isAt [.eof]

/-- An action that stops before the end if it starts there. -/
class Halts (x : Parse α) : Prop where
  not_eof : ∀ {cursor a after}, x cursor = .ok a after → after.IsQuiet → cursor.IsSound →
    ¬ cursor.isAt [.eof] → ¬ after.isAt [.eof]

/-- An action that stops before the end, if it starts with a given cursor. -/
structure SettlesAt (cursor : Cursor) (x : Parse α) : Prop where
  not_eof : ∀ {a after}, x cursor = .ok a after → after.IsQuiet → cursor.IsSound → ¬ after.isAt [.eof]

theorem SettlesAt.of_settles [hx : Settles x] : SettlesAt cursor x :=
  ⟨hx.not_eof⟩

theorem Settles.get_bind {f : Cursor → Parse β} (hf : ∀ cursor, SettlesAt cursor (f cursor)) : Settles (get >>= f) :=
  ⟨fun {cursor _ _} h => (hf cursor).not_eof h⟩

theorem SettlesAt.get_bind {f : Cursor → Parse β} (hf : SettlesAt cursor (f cursor)) : SettlesAt cursor (get >>= f) :=
  ⟨hf.not_eof⟩

theorem SettlesAt.currentValue_bind {f : Scalar → Parse β} (hf : ∀ value, SettlesAt cursor (f value)) :
    SettlesAt cursor (currentValue >>= f) := by
  refine ⟨fun h => ?_⟩
  obtain ⟨value, middle, hvalue, h⟩ := bind_eq_ok.1 h
  obtain ⟨-, rfl⟩ := currentValue_eq_ok.1 hvalue
  exact (hf value).not_eof h

theorem SettlesAt.line_bind {f : Value → Parse β} (hf : ∀ value, SettlesAt cursor (f value)) :
    SettlesAt cursor (line >>= f) :=
  ⟨(hf _).not_eof⟩

instance (priority := low) [hx : Settles x] : Halts x :=
  ⟨fun h hquiet hsound _ => hx.not_eof h hquiet hsound⟩

instance (priority := low) [hx : Loud x] : Settles x :=
  ⟨fun h hquiet => absurd hquiet (hx.not_quiet h)⟩

theorem Halts.bind (hx : Halts x) (hflows : Flows x) (hf : ∀ a, Halts (f a)) (hflows' : ∀ a, Flows (f a)) :
    Halts (x >>= f) := by
  refine ⟨fun h hquiet hsound hnot => ?_⟩
  obtain ⟨a, middle, hfirst, hrest⟩ := bind_eq_ok.1 h
  have hmiddle := ((hflows' a).onward hrest hquiet).quiet hquiet
  exact (hf a).not_eof hrest hquiet ((hflows.onward hfirst hmiddle).sound hsound)
    (hx.not_eof hfirst hmiddle hsound hnot)

instance [hx : Halts x] [hflows : Flows x] [hf : ∀ a, Halts (f a)] [hflows' : ∀ a, Flows (f a)] : Halts (x >>= f) :=
  .bind hx hflows hf hflows'

/-- What comes last decides. -/
instance (priority := low) [hflows : Flows x] [hf : ∀ a, Settles (f a)] [hflows' : ∀ a, Flows (f a)] :
    Settles (x >>= f) := by
  refine ⟨fun h hquiet hsound => ?_⟩
  obtain ⟨a, middle, hfirst, hrest⟩ := bind_eq_ok.1 h
  have hmiddle := ((hflows' a).onward hrest hquiet).quiet hquiet
  exact (hf a).not_eof hrest hquiet ((hflows.onward hfirst hmiddle).sound hsound)

instance [hx : Settles x] [hflows : Flows x] [hf : ∀ a, Halts (f a)] [hflows' : ∀ a, Flows (f a)] :
    Settles (x >>= f) := by
  refine ⟨fun h hquiet hsound => ?_⟩
  obtain ⟨a, middle, hfirst, hrest⟩ := bind_eq_ok.1 h
  have hmiddle := ((hflows' a).onward hrest hquiet).quiet hquiet
  exact (hf a).not_eof hrest hquiet ((hflows.onward hfirst hmiddle).sound hsound)
    (hx.not_eof hfirst hmiddle hsound)

instance [Decidable c] [Settles x] [Settles y] : Settles (if c then x else y) := by
  split <;> infer_instance

instance [Decidable c] [Halts x] [Halts y] : Halts (if c then x else y) := by
  split <;> infer_instance

instance (fault : Fault) : Settles (fail fault : Parse α) :=
  ⟨fun h => absurd h fail_ne_ok⟩

theorem checkAhead_bind (kinds : List TokenKind) (f : Bool → Parse β) (cursor : Cursor) :
    (checkAhead kinds >>= f) cursor = f (cursor.isBefore kinds) cursor := rfl

/-! ### Actions that stay at a token -/

theorem Halts.of_stays (h : ∀ {cursor a after}, x cursor = .ok a after → after.current = cursor.current) : Halts x := by
  refine ⟨fun hrun _ _ hnot => ?_⟩
  rwa [isAt_iff, h hrun, ← isAt_iff]

instance (priority := low) [hx : Obeys looking x] : Halts x :=
  .of_stays fun h => congrArg Cursor.current (hx.step h)

instance (x : Draft.Action α) : Halts (liftM x : Parse α) :=
  .of_stays fun h => by
    obtain ⟨draft, -, rfl⟩ := lift_eq_ok.1 h
    rfl

instance (focus : Value) : Halts (setFocus focus) :=
  .of_stays fun h => modify_eq_ok.1 h ▸ rfl

instance {γ : Type} {action : γ → Parse β} [haction : ∀ item, Halts (action item)] [hflows : ∀ item, Flows (action item)]
    {items : List γ} : Halts (items.mapM action) := by
  induction items with
  | nil =>
      rw [List.mapM_nil]
      infer_instance
  | cons item rest ih =>
      rw [List.mapM_cons]
      infer_instance

/-! ### Passing a token -/

/-- Behind a token that is no line break there is a token. -/
theorem not_eof_next (hkinds : TokenKind.inline kinds) (hat : cursor.isAt kinds) (h : next cursor = .ok u after)
    (hquiet : after.IsQuiet) (hsound : cursor.IsSound) : ¬ after.isAt [.eof] := by
  obtain ⟨token, hcurrent, hmem⟩ := isAt_iff.1 hat
  obtain ⟨heof, hnewline⟩ := TokenKind.notMem_of_inline hkinds
  have hnot : ¬ cursor.isAt [.newline, .eof] := by
    rw [isAt_iff]
    rintro ⟨found, hfound, hkind⟩
    obtain rfl := Option.some.inj (hcurrent.symm.trans hfound)
    rcases List.mem_cons.1 hkind with hkind | hkind
    · exact hnewline (hkind ▸ hmem)
    · exact heof (List.mem_singleton.1 hkind ▸ hmem)
  have hnot' : ¬ cursor.isAt [.eof] := fun hend => hnot (Cursor.isAt_of_mem hend (by simp))
  obtain ⟨found, line, -, -, rfl⟩ := next_quiet hnot' h hquiet
  exact fun hend => hnot (hsound.ending hend).1

theorem complain_size {message heading : String} (h : complain message heading cursor = .ok u after) :
    cursor.journal.messages.size < after.journal.messages.size := by
  obtain ⟨_, _, hget, h⟩ := bind_eq_ok.1 h
  obtain ⟨rfl, rfl⟩ := get_eq_ok.1 hget
  obtain ⟨journal, hreport, rfl⟩ := lift_writer_eq_ok.1 h
  exact Journal.report_size hreport

theorem expect_silent (h : expect kinds message cursor = .ok u after) (hsilent : cursor.Silent after) :
    cursor.isAt kinds ∧ next cursor = .ok u after := by
  unfold expect at h
  rw [check_bind] at h
  by_cases hat : cursor.isAt kinds = true
  · rw [if_pos hat] at h
    exact ⟨hat, h⟩
  · rw [if_neg hat, get_bind] at h
    have hloud : ∀ text, (complain text >>= fun _ => next) cursor ≠ .ok u after := by
      intro text h
      obtain ⟨_, middle, hcomplain, hnext⟩ := bind_eq_ok.1 h
      have hsize := complain_size hcomplain
      have hfollows : after.Follows middle := follows_of_ok hnext
      exact absurd hsilent (Nat.not_le.2 (Nat.lt_of_lt_of_le hsize hfollows.journal.messages))
    cases message with
    | some text => exact absurd h (hloud text)
    | none =>
        cases hcurrent : cursor.current with
        | none => simp [hcurrent] at h
        | some token =>
            rw [hcurrent] at h
            exact absurd h (hloud _)

theorem expect_quiet (h : expect kinds message cursor = .ok u after) (hquiet : after.IsQuiet) :
    cursor.isAt kinds ∧ next cursor = .ok u after :=
  expect_silent h (hquiet.silent cursor)

instance [hkinds : Holds (TokenKind.inline kinds)] : Settles (expect kinds message) := by
  refine ⟨fun h hquiet hsound => ?_⟩
  obtain ⟨hat, hnext⟩ := expect_quiet h hquiet
  exact not_eof_next hkinds.eq_true hat hnext hquiet hsound

instance (priority := high) [hkinds : Holds (TokenKind.inline kinds)] {f : Unit → Parse α} [hf : ∀ u, Halts (f u)]
    [hflows : ∀ u, Flows (f u)] [hy : Halts y] :
    Halts (check kinds >>= fun holds => if holds = true then next >>= f else y) := by
  refine ⟨fun {cursor a after} h hquiet hsound hnot => ?_⟩
  rw [check_bind] at h
  by_cases hat : cursor.isAt kinds = true
  · rw [if_pos hat] at h
    obtain ⟨u, middle, hnext, h⟩ := bind_eq_ok.1 h
    have hmiddle := ((hflows u).onward h hquiet).quiet hquiet
    exact (hf u).not_eof h hquiet ((Flows.onward hnext hmiddle).sound hsound)
      (not_eof_next hkinds.eq_true hat hnext hmiddle hsound)
  · rw [if_neg hat] at h
    exact hy.not_eof h hquiet hsound hnot

/-- Reading is given up at the end. -/
instance : Settles recover := by
  refine ⟨fun h hquiet hsound => ?_⟩
  unfold recover at h
  obtain ⟨u, middle, hskip, h⟩ := bind_eq_ok.1 h
  rw [check_bind] at h
  by_cases hend : middle.isAt [.eof] = true
  · rw [if_pos hend] at h
    simp at h
  · rw [if_neg hend] at h
    have hhalts : Halts (do if ← check [.rightBrace] then expect [.rightBrace] : Parse Unit) := inferInstance
    have hflows : Flows (do if ← check [.rightBrace] then expect [.rightBrace] : Parse Unit) := inferInstance
    have hmiddle := (hflows.onward h hquiet).quiet hquiet
    exact hhalts.not_eof h hquiet ((Flows.onward hskip hmiddle).sound hsound) hend

/-! ### Expressions -/

instance : Halts (joinLogical left operator right) := by
  unfold joinLogical
  infer_instance

instance : Halts (joinComparison left operator right) := by
  unfold joinComparison
  infer_instance

instance : Halts (joinProduct left operator right) := by
  unfold joinProduct
  infer_instance

instance (operator : String) : Halts (stepNode name operator) := by
  unfold stepNode
  infer_instance

instance {operators : List TokenKind} {operand : Parse Value} {join : Value → Value → Value → Parse Value}
    [Settles operand] [Candid operand] [∀ left operator right, Halts (join left operator right)]
    [∀ left operator right, Candid (join left operator right)] :
    Halts (leftChain operators operand join count left) := by
  induction count generalizing left with
  | zero => exact inferInstanceAs (Halts (fail _))
  | succ count ih =>
      unfold leftChain
      infer_instance

section Expressions

variable {expression : Parse Value} [Candid expression]

instance (receiver : Value) : Halts (methodChain expression count receiver) := by
  induction count generalizing receiver with
  | zero => exact inferInstanceAs (Halts (fail _))
  | succ count ih =>
      unfold methodChain
      infer_instance

instance (name : Value) : Settles (functionCall expression count name) := by
  unfold functionCall
  infer_instance

instance : Settles (named expression count) := by
  unfold named
  infer_instance

theorem SettlesAt.next_bind {kind : TokenKind} {f : Unit → Parse α} [hf : ∀ u, Halts (f u)] [hflows : ∀ u, Flows (f u)]
    (hkind : cursor.currentKind? = some kind) (hinline : TokenKind.inline [kind]) : SettlesAt cursor (next >>= f) := by
  refine ⟨fun {a after} h hquiet hsound => ?_⟩
  obtain ⟨u, middle, hnext, h⟩ := bind_eq_ok.1 h
  have hmiddle := ((hflows u).onward h hquiet).quiet hquiet
  exact (hf u).not_eof h hquiet ((Flows.onward hnext hmiddle).sound hsound)
    (not_eof_next hinline (by simp [Cursor.isAt, hkind]) hnext hmiddle hsound)

theorem SettlesAt.lift_next {x : Draft.Action Value} [Draft.Widens x] {kind : TokenKind}
    (hkind : cursor.currentKind? = some kind) (hinline : TokenKind.inline [kind]) :
    SettlesAt cursor (do let node ← (liftM x : Parse Value); next; return node) := by
  refine ⟨fun {a after} h hquiet hsound => ?_⟩
  obtain ⟨node, middle, hmake, h⟩ := bind_eq_ok.1 h
  have hflows : Flows (do next; return node : Parse Value) := inferInstance
  have hmiddle := (hflows.onward h hquiet).quiet hquiet
  have hsame : middle.currentKind? = some kind := by
    obtain ⟨draft, -, rfl⟩ := lift_eq_ok.1 hmake
    exact hkind
  exact (SettlesAt.next_bind hsame hinline).not_eof h hquiet ((Flows.onward hmake hmiddle).sound hsound)

instance : Settles (primaryWith expression count) := by
  refine .get_bind fun cursor => ?_
  split
  case h_1 hkind | h_2 hkind | h_3 hkind =>
    exact .currentValue_bind fun _ => .line_bind fun _ => .lift_next hkind rfl
  case h_4 hkind => exact .currentValue_bind fun _ => .line_bind fun _ => .lift_next hkind rfl
  case h_5 hkind => exact .line_bind fun _ => .lift_next hkind rfl
  all_goals exact .of_settles

/-- The exponent that is left out stands at a line break. -/
instance [hsettles : Settles expression] : Settles (exponent expression) := by
  refine ⟨fun {cursor node after} h hquiet hsound => ?_⟩
  unfold exponent at h
  rw [check_bind] at h
  by_cases hat : cursor.isAt [.newline] = true
  · rw [if_pos hat] at h
    exact Halts.not_eof h hquiet hsound (Cursor.not_isAt_eof rfl hat)
  · rw [if_neg hat] at h
    exact hsettles.not_eof h hquiet hsound

end Expressions

theorem levelsSettle (count : Nat) : Levels (fun x _ => Settles x) count count := by
  induction count with
  | zero => constructor <;> exact inferInstanceAs (Settles (fail _))
  | succ count ih =>
      obtain ⟨_, _, _, _, _, _, _, _⟩ := ih
      obtain ⟨_, _, _, _, _, _, _, _⟩ := levelsFlow count
      constructor <;>
        simp only [expression, equality, comparison, additive, joinSum, term, factor, unary, unaryWith, primary] <;>
        infer_instance

instance : Settles (expression count) :=
  (levelsSettle count).expression

/-! ### Statements -/

instance : Settles (increment name) := by
  unfold increment
  infer_instance

instance : Settles (decrement name) := by
  unfold decrement
  infer_instance

/-- An action that finds something, unless it says that it does not. -/
class Finds (x : Parse (Option β)) : Prop where
  isSome : ∀ {cursor found after}, x cursor = .ok found after → after.IsQuiet → found.isSome

instance (priority := low) {x : Parse (Option β)} [hx : Loud x] : Finds x :=
  ⟨fun h hquiet => absurd hquiet (hx.not_quiet h)⟩

instance (priority := low) {f : α → Parse (Option β)} [hf : ∀ a, Finds (f a)] : Finds (x >>= f) := by
  refine ⟨fun h => ?_⟩
  obtain ⟨a, middle, -, h⟩ := bind_eq_ok.1 h
  exact (hf a).isSome h

instance [Decidable c] {x y : Parse (Option β)} [Finds x] [Finds y] : Finds (if c then x else y) := by
  split <;> infer_instance

instance (b : β) : Finds (pure (some b)) :=
  ⟨fun h _ => (pure_eq_ok.1 h).1 ▸ rfl⟩

/-- A declaration that ends before its expression is reported. -/
instance (list : NameList) : Finds (declaredNames count list) := by
  induction count generalizing list with
  | zero => exact ⟨fun h => absurd h fail_ne_ok⟩
  | succ count ih =>
      unfold declaredNames
      infer_instance

instance (type : Value) : Settles (declaration count name type) := by
  refine ⟨fun {cursor node after} h hquiet hsound => ?_⟩
  unfold declaration declareAll at h
  rw [check_bind, checkAhead_bind] at h
  split at h
  case isFalse => exact Settles.not_eof h hquiet hsound
  case isTrue =>
    obtain ⟨found, middle, hnames, h⟩ := bind_eq_ok.1 h
    cases found with
    | none =>
        obtain ⟨-, rfl⟩ := pure_eq_ok.1 h
        exact absurd (Finds.isSome hnames hquiet) (by simp)
    | some list =>
        have hmiddle := (Flows.onward h hquiet).quiet hquiet
        exact Settles.not_eof h hquiet ((Flows.onward hnames hmiddle).sound hsound)

instance : Settles (assignment count name) := by
  unfold assignment assignAll completeFocus
  infer_instance

instance : Settles strayToken := by
  refine .get_bind fun cursor => ?_
  split <;> exact .of_settles

theorem settlesAt_returnStatement (hkind : cursor.currentKind? = some .returnKey) :
    SettlesAt cursor (returnStatement count) := by
  refine .get_bind ?_
  split
  · exact .next_bind hkind rfl
  · exact .of_settles

theorem settlesAt_breakStatement (hkind : cursor.currentKind? = some .breakKey) : SettlesAt cursor breakStatement := by
  refine .get_bind ?_
  split
  · exact .next_bind hkind rfl
  · exact .of_settles

section Blocks

variable {block : Parse Value} [hblock : Settles block] [hflows : Candid block]

instance : Settles (loopBody block) := by
  refine ⟨fun h hquiet hsound => ?_⟩
  obtain ⟨_, raised, hraise, h⟩ := bind_eq_ok.1 h
  obtain rfl := modify_eq_ok.1 hraise
  obtain ⟨body, middle, hbody, h⟩ := bind_eq_ok.1 h
  obtain ⟨_, lowered, hlower, h⟩ := bind_eq_ok.1 h
  obtain rfl := modify_eq_ok.1 hlower
  obtain ⟨-, rfl⟩ := pure_eq_ok.1 h
  have hnot : ¬ middle.isAt [.eof] := hblock.not_eof hbody hquiet ⟨hsound.lines, hsound.last, hsound.ending⟩
  exact hnot

/-- The rest of a function declaration from its body on. -/
instance (priority := high) {f : Value → Parse Value} [hhalts : ∀ body, Halts (f body)] [hf : ∀ body, Flows (f body)] :
    Settles (do
      modify fun cursor => { cursor with inFunction := true }
      let body ← block
      modify fun cursor => { cursor with inFunction := false }
      f body) := by
  refine ⟨fun {cursor _ after} h hquiet hsound => ?_⟩
  obtain ⟨_, raised, hraise, h⟩ := bind_eq_ok.1 h
  obtain rfl := modify_eq_ok.1 hraise
  obtain ⟨body, middle, hbody, h⟩ := bind_eq_ok.1 h
  obtain ⟨_, lowered, hlower, h⟩ := bind_eq_ok.1 h
  obtain rfl := modify_eq_ok.1 hlower
  have hmiddle := ((hf body).onward h hquiet).quiet hquiet
  have hraised : Cursor.IsSound { cursor with inFunction := true } := ⟨hsound.lines, hsound.last, hsound.ending⟩
  obtain ⟨hlines, hlast, hending⟩ := (hflows.flows.onward hbody hmiddle).sound hraised
  have hnot : ¬ middle.isAt [.eof] := hblock.not_eof hbody hmiddle hraised
  exact (hhalts body).not_eof h hquiet ⟨hlines, hlast, hending⟩ hnot

end Blocks

instance (appended : Value) : Settles (block count appended) := by
  cases count with
  | zero => exact inferInstanceAs (Settles (fail _))
  | succ count =>
      unfold block braced
      infer_instance

end Parse

end Scriptlet
