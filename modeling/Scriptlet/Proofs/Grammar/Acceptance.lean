import Scriptlet.Proofs.Grammar.Recognition

/-!
Every phrase of the grammar is read as an expression.

Phrases are taken apart from the left, and the rules loop.  So what is shown for a phrase of a level is that
the loop of the level, entered behind the phrase, ends as the whole rule does from the start of the phrase.
-/

namespace Scriptlet

namespace Grammar

namespace Level

/-- The tokens that cannot stand behind a phrase, because they would belong to its last part. -/
def barred : Level → List TokenKind
  | expression => [.equal, .notEqual] ++ [.greater, .greaterEqual, .less, .lessEqual] ++ sums
  | equality => [.greater, .greaterEqual, .less, .lessEqual] ++ sums
  | comparison | additive => sums
  | term => .power :: calls
  | factor | unary | primary => calls
where
  calls : List TokenKind := [.leftParen, .dot, .increment, .decrement]
  sums : List TokenKind := [.plus, .minus, .asterisk, .slash, .modulo, .power] ++ calls

/-- The tokens with which a phrase starts. -/
def starters : Level → List TokenKind
  | primary => primaries
  | _ => [.plus, .minus, .not] ++ primaries
where
  primaries : List TokenKind := [.integer, .double, .boolean, .string, .null, .identifier, .leftParen]

variable {level inner : Level} {kind : TokenKind}

theorem notMem_tighter (h : level.tighter? = some inner) (hkind : kind ∉ level.barred) :
    kind ∉ inner.barred ∧ kind ∉ inner.operators := by
  have hsub : ∀ kind ∈ inner.barred ++ inner.operators, kind ∈ level.barred := by
    cases level <;> cases h <;> decide
  exact ⟨fun hmem => hkind (hsub kind (List.mem_append_left _ hmem)),
    fun hmem => hkind (hsub kind (List.mem_append_right _ hmem))⟩

theorem operator_notMem (h : kind ∈ level.operators) : kind ∉ level.barred := by
  have hsub : ∀ kind ∈ level.operators, kind ∉ level.barred := by
    cases level <;> decide
  exact hsub kind h

theorem starters_tighter (h : level.tighter? = some inner) (hkind : kind ∈ inner.starters) : kind ∈ level.starters := by
  have hsub : ∀ kind ∈ inner.starters, kind ∈ level.starters := by
    cases level <;> cases h <;> decide
  exact hsub kind hkind

theorem mem_starters_of_literal? {token : Token} {tree : Expr} (h : literal? token = some tree) :
    token.kind ∈ primary.starters := by
  rw [literal?] at h
  split at h <;> simp_all [starters, starters.primaries]

theorem identifier_mem_starters (h : kind = .identifier) : kind ∈ primary.starters := by
  rw [h]
  decide

theorem leftParen_mem_starters (h : kind = .leftParen) : kind ∈ primary.starters := by
  rw [h]
  decide

end Level

theorem Access.starts {commas : Bool} {tokens : List Token} {tree : Expr} :
    Access commas tokens tree → ∃ name rest, tokens = name :: rest ∧ name.kind = .identifier
  | .name hname => ⟨_, _, rfl, hname⟩
  | .call hname _ _ _ => ⟨_, _, rfl, hname⟩
  | .method hreceiver _ _ _ _ _ => by
      obtain ⟨name, rest, rfl, hname⟩ := hreceiver.starts
      exact ⟨name, _, rfl, hname⟩

theorem Derives.starts {commas : Bool} {level : Level} {tokens : List Token} {next : Option TokenKind} {tree : Expr} :
    Derives commas level tokens next tree → ∃ token rest, tokens = token :: rest ∧ token.kind ∈ level.starters
  | .tighter hinner h => by
      obtain ⟨token, rest, rfl, hkind⟩ := h.starts
      exact ⟨token, rest, rfl, Level.starters_tighter hinner hkind⟩
  | .chain _ _ hleft _ => by
      obtain ⟨token, rest, rfl, hkind⟩ := hleft.starts
      exact ⟨token, _, rfl, hkind⟩
  | .square _ hbase => by
      obtain ⟨token, rest, rfl, hkind⟩ := hbase.starts
      exact ⟨token, _, rfl, hkind⟩
  | .sum _ hleft _ => by
      obtain ⟨token, rest, rfl, hkind⟩ := hleft.starts
      exact ⟨token, _, rfl, Level.starters_tighter rfl hkind⟩
  | .sign hoperator _ => ⟨_, _, rfl, List.mem_append_left _ hoperator⟩
  | .literal h => ⟨_, [], rfl, Level.mem_starters_of_literal? h⟩
  | .parentheses hopening _ _ => ⟨_, _, rfl, Level.leftParen_mem_starters hopening⟩
  | .increment hname _ | .decrement hname _ => ⟨_, _, rfl, Level.identifier_mem_starters hname⟩
  | .access h => by
      obtain ⟨name, rest, rfl, hname⟩ := h.starts
      exact ⟨name, rest, rfl, Level.identifier_mem_starters hname⟩

end Grammar

namespace Parse

open Grammar

variable {α : Type} {cursor middle after : Cursor} {window : Window} {level inner : Level} {token : Token}
  {tokens others : List Token} {value : Value} {tree : Expr} {kind : TokenKind} {next : Option TokenKind}
variable {name opening closing : Token} {trees : List Expr}

/-! ### Tokens that are there -/

theorem next_of_spells (h : cursor.window.Spells (token :: tokens) window) :
    ∃ after, Parse.next cursor = .ok () after ∧ Passes cursor token after ∧ after.window.Spells tokens window := by
  cases h with
  | step htoken hend hnext hrest =>
      obtain ⟨read, hread, hreports, rfl⟩ := Window.next?_eq_some.1 hnext
      have hnot : ¬ cursor.isAt [.eof] := by
        rw [isAt_iff]
        rintro ⟨found, hfound, hkind⟩
        obtain rfl := Option.some.inj (htoken.symm.trans hfound)
        exact hend (List.mem_singleton.1 hkind)
      obtain ⟨line, hrun⟩ := next_eq hnot hread hreports
      exact ⟨_, hrun, ⟨.single htoken hend hnext, rfl⟩, hrest⟩

theorem isAt_eq (h : cursor.window.kind? = some kind) (kinds : List TokenKind) : cursor.isAt kinds = kinds.contains kind := by
  show cursor.window.kind?.any _ = _
  rw [h, Option.any_some]

theorem not_isAt {kinds : List TokenKind} (h : cursor.window.kind? = some kind) (hkind : kind ∉ kinds) :
    ¬ cursor.isAt kinds := by
  rw [isAt_eq h, List.contains_iff_mem]
  exact hkind

theorem expect_of_spells (h : cursor.window.Spells (token :: tokens) window) (hkind : token.kind = kind)
    (message : Option String) : ∃ after, expect [kind] message cursor = .ok () after ∧ Passes cursor token after ∧
      after.window.Spells tokens window := by
  obtain ⟨after, hnext, hpasses, hrest⟩ := next_of_spells h
  refine ⟨after, ?_, hpasses, hrest⟩
  unfold expect
  rw [check_bind, if_pos (isAt_iff.2 ⟨token, hpasses.current, List.mem_singleton.2 hkind⟩)]
  exact hnext

/-! ### Runs with enough steps -/

/-- The action ends in that way if it may take enough steps; loops have a number of rounds of their own. -/
def Succeeds (x : Nat → Nat → Parse α) (cursor : Cursor) (a : α) (after : Cursor) : Prop :=
  ∃ enough, ∀ fuel rounds, enough ≤ fuel → enough ≤ rounds → x fuel rounds cursor = .ok a after

namespace Succeeds

variable {β : Type} {x y : Nat → Nat → Parse α} {a : α} {b : β} {kinds : List TokenKind}

theorem of_eq {x : Parse α} (h : x cursor = .ok a after) : Succeeds (fun _ _ => x) cursor a after :=
  ⟨0, fun _ _ _ _ => h⟩

theorem bind {f : Nat → Nat → α → Parse β} (hx : Succeeds x cursor a middle)
    (hf : Succeeds (fun fuel rounds => f fuel rounds a) middle b after) :
    Succeeds (fun fuel rounds => x fuel rounds >>= f fuel rounds) cursor b after := by
  obtain ⟨enough, hx⟩ := hx
  obtain ⟨enough', hf⟩ := hf
  exact ⟨max enough enough', fun fuel rounds hfuel hrounds => bind_eq_ok.2 ⟨a, middle,
    hx fuel rounds (by omega) (by omega), hf fuel rounds (by omega) (by omega)⟩⟩

theorem congr (h : Succeeds y cursor a after) (heq : ∀ fuel rounds, x fuel rounds cursor = y fuel rounds cursor) :
    Succeeds x cursor a after := by
  obtain ⟨enough, h⟩ := h
  exact ⟨enough, fun fuel rounds hfuel hrounds => (heq fuel rounds).trans (h fuel rounds hfuel hrounds)⟩

theorem check_pos (hat : cursor.isAt kinds) (h : Succeeds x cursor a after) :
    Succeeds (fun fuel rounds => do if ← check kinds then x fuel rounds else y fuel rounds) cursor a after :=
  h.congr fun _ _ => by rw [check_bind, if_pos hat]

theorem check_neg (hat : ¬ cursor.isAt kinds) (h : Succeeds y cursor a after) :
    Succeeds (fun fuel rounds => do if ← check kinds then x fuel rounds else y fuel rounds) cursor a after :=
  h.congr fun _ _ => by rw [check_bind, if_neg hat]

theorem currentValue {f : Nat → Nat → Scalar → Parse α} (hcurrent : cursor.current = some token)
    (h : Succeeds (fun fuel rounds => f fuel rounds token.value) cursor a after) :
    Succeeds (fun fuel rounds => Parse.currentValue >>= f fuel rounds) cursor a after :=
  h.congr fun _ _ => currentValue_bind hcurrent _

/-- Of the rounds of a loop one is taken. -/
theorem round (h : Succeeds (fun fuel rounds => x fuel (rounds + 1)) cursor a after) : Succeeds x cursor a after := by
  obtain ⟨enough, h⟩ := h
  refine ⟨enough + 1, fun fuel rounds hfuel hrounds => ?_⟩
  obtain ⟨rounds, rfl⟩ : ∃ less, rounds = less + 1 := Nat.exists_eq_add_of_le' (by omega)
  exact h fuel rounds (by omega) (by omega)

/-- Of the steps of a rule one is taken. -/
theorem step {x : Nat → Parse α} (h : Succeeds (fun fuel _ => x (fuel + 1)) cursor a after) :
    Succeeds (fun fuel _ => x fuel) cursor a after := by
  obtain ⟨enough, h⟩ := h
  refine ⟨enough + 1, fun fuel rounds hfuel hrounds => ?_⟩
  obtain ⟨fuel, rfl⟩ : ∃ less, fuel = less + 1 := Nat.exists_eq_add_of_le' (by omega)
  exact h fuel rounds (by omega) (by omega)

/-- The steps that are left are the number of rounds, too. -/
theorem diagonal (h : Succeeds x cursor a after) : Succeeds (fun fuel _ => x fuel fuel) cursor a after := by
  obtain ⟨enough, h⟩ := h
  exact ⟨enough, fun fuel _ hfuel _ => h fuel fuel hfuel hfuel⟩

end Succeeds

/-- What is read behind the operators of a level. -/
def operandAt : Level → Nat → Parse Value
  | .expression => equality
  | .equality => comparison
  | .comparison => additive
  | .term => factor
  | .factor => (fun count => exponent (unary count))
  | _ => primary

theorem rule_chain (hinner : level.tighter? = some inner) (hoperators : level.operators ≠ []) (count : Nat) :
    rule level (count + 1) =
      (rule inner count >>= leftChain level.operators (operandAt level count) (joinAt level) count) := by
  cases level with
  | additive | unary | primary => exact absurd rfl hoperators
  | _ => cases hinner; rfl

/-- The loop of a level, entered with a value, ends as the rule does from the start. -/
def Reaches (level : Level) (cursor : Cursor) (value : Value) (middle : Cursor) : Prop :=
  ∀ {result after}, Succeeds (fun fuel rounds => leftChain level.operators (operandAt level fuel) (joinAt level) rounds value)
    middle result after → Succeeds (fun fuel _ => rule level fuel) cursor result after

namespace Reaches

theorem stop (h : Reaches level cursor value middle) (hkind : middle.window.kind? = some kind)
    (hnot : kind ∉ level.operators) : Succeeds (fun fuel _ => rule level fuel) cursor value middle := by
  exact h (.round (.check_neg (not_isAt hkind hnot) (.of_eq rfl)))

theorem of_succeeds (hoperators : level.operators = []) (h : Succeeds (fun fuel _ => rule level fuel) cursor value middle) :
    Reaches level cursor value middle := by
  rintro result after ⟨enough, hloop⟩
  have hrun := hloop enough (enough + 1) (Nat.le_refl enough) (Nat.le_succ enough)
  have hnot : ¬ middle.isAt [] := by simp [isAt_iff]
  beta_reduce at hrun
  rw [leftChain, hoperators, check_bind, if_neg hnot] at hrun
  obtain ⟨rfl, rfl⟩ := pure_eq_ok.1 hrun
  exact h

theorem round {left right joined : Value} {operator : Token} {first second third : Cursor}
    (h : Reaches level cursor left middle) (hcurrent : middle.current = some operator)
    (hmem : operator.kind ∈ level.operators) (hnext : Parse.next middle = .ok () first)
    (hright : Succeeds (fun fuel _ => operandAt level fuel) first right second)
    (hjoin : joinAt level left (.scalar operator.value) right second = .ok joined third) :
    Reaches level cursor joined third := by
  intro result after hrest
  exact h (.round (.check_pos (isAt_iff.2 ⟨operator, hcurrent, hmem⟩) (.currentValue hcurrent
    (.bind (.of_eq hnext) (hright.bind (.bind (.of_eq hjoin) hrest))))))

end Reaches

/-- The tokens, where they stand in a text, are read as the tree. -/
def ReadsPhrase (level : Level) (tokens : List Token) (next : Option TokenKind) (tree : Expr) : Prop :=
  ∀ ⦃cursor window kind⦄, cursor.window.Spells tokens window → window.kind? = some kind → next = some kind →
    kind ∉ level.barred → ∃ value after, Lands cursor window value tree after ∧ Reaches level cursor value after

namespace ReadsPhrase

variable {operator : Token} {left right : Expr}

theorem succeeds (h : ReadsPhrase level tokens next tree) (hspells : cursor.window.Spells tokens window)
    (hkind : window.kind? = some kind) (hnext : next = some kind) (hbarred : kind ∉ level.barred)
    (hoperators : kind ∉ level.operators) :
    ∃ value after, Lands cursor window value tree after ∧ Succeeds (fun fuel _ => rule level fuel) cursor value after := by
  obtain ⟨value, after, hlands, hreaches⟩ := h hspells hkind hnext hbarred
  exact ⟨value, after, hlands, hreaches.stop (hlands.window ▸ hkind) hoperators⟩

theorem of_succeeds (hoperators : level.operators = [])
    (h : ∀ {cursor window kind}, cursor.window.Spells tokens window → window.kind? = some kind → next = some kind →
      kind ∉ level.barred → ∃ value after, Lands cursor window value tree after ∧
        Succeeds (fun fuel _ => rule level fuel) cursor value after) : ReadsPhrase level tokens next tree := by
  intro cursor window kind hspells hkind hnext hbarred
  obtain ⟨value, after, hlands, hsucceeds⟩ := h hspells hkind hnext hbarred
  exact ⟨value, after, hlands, Reaches.of_succeeds hoperators hsucceeds⟩

/-! ### Chains of operators -/

theorem chain_tighter (hinner : level.tighter? = some inner) (hoperators : level.operators ≠ [])
    (h : ReadsPhrase inner tokens next tree) : ReadsPhrase level tokens next tree := by
  intro cursor window kind hspells hkind hnext hbarred
  obtain ⟨hfree, hnot⟩ := Level.notMem_tighter hinner hbarred
  obtain ⟨value, middle, hlands, hfirst⟩ := h.succeeds hspells hkind hnext hfree hnot
  exact ⟨value, middle, hlands, fun hloop => .step ((hfirst.bind hloop).diagonal.congr fun fuel _ =>
    congrFun (rule_chain hinner hoperators fuel) _)⟩

theorem chain (hmem : operator.kind ∈ level.operators) (hleft : ReadsPhrase level tokens (some operator.kind) left)
    (hright : ∀ {cursor window kind}, cursor.window.Spells others window → window.kind? = some kind → next = some kind →
      kind ∉ level.barred → ∃ value after, Lands cursor window value right after ∧
        Succeeds (fun fuel _ => operandAt level fuel) cursor value after) :
    ReadsPhrase level (tokens ++ operator :: others) next (level.join left operator.value right) := by
  intro cursor window kind hspells hkind hnext hbarred
  obtain ⟨place, hfirst, hrest⟩ := hspells.split
  obtain ⟨value, middle, hlands, hreaches⟩ := hleft hfirst hrest.kind?_cons rfl (Level.operator_notMem hmem)
  rw [← hlands.window] at hrest
  obtain ⟨first, hmove, hpasses, hrest⟩ := next_of_spells hrest
  obtain ⟨operand, second, hoperand, hsucceeds⟩ := hright hrest hkind hnext hbarred
  have hlater := hpasses.arrives.lands hoperand
  obtain ⟨joined, third, hjoin, hjoined⟩ :=
    joinAt_makes level (hlands.shows.retained hlater.retains) hlater.shows operator.value
  rw [hlater.window] at hjoined
  exact ⟨joined, third, (hlands.trans hlater.toArrives).lands hjoined,
    hreaches.round hpasses.current hmem hmove hsucceeds hjoin⟩

theorem chain_operand (hinner : level.tighter? = some inner) (hfactor : level ≠ .factor)
    (hmem : operator.kind ∈ level.operators) (hleft : ReadsPhrase level tokens (some operator.kind) left)
    (hright : ReadsPhrase inner others next right) :
    ReadsPhrase level (tokens ++ operator :: others) next (level.join left operator.value right) := by
  refine chain hmem hleft fun hspells hkind hnext hbarred => ?_
  obtain ⟨hfree, hnot⟩ := Level.notMem_tighter hinner hbarred
  have hoperand : operandAt level = rule inner := by
    cases level with
    | factor => exact absurd rfl hfactor
    | additive | unary | primary => cases hmem
    | _ => cases hinner; rfl
  rw [hoperand]
  exact hright.succeeds hspells hkind hnext hfree hnot

theorem power (hmem : operator.kind ∈ Level.operators .factor)
    (hleft : ReadsPhrase .factor tokens (some operator.kind) left) (hderives : Derives true .unary others next right)
    (hright : ReadsPhrase .unary others next right) :
    ReadsPhrase .factor (tokens ++ operator :: others) next (.binary left operator.value right) := by
  refine chain hmem hleft fun hspells hkind hnext hbarred => ?_
  obtain ⟨operand, after, hlands, hrun⟩ := hright.succeeds hspells hkind hnext hbarred nofun
  obtain ⟨token, rest, rfl, hstarts⟩ := hderives.starts
  have hnot : ¬ Cursor.isAt _ [.newline] := not_isAt hspells.kind?_cons fun hnewline => by
    rw [List.mem_singleton.1 hnewline] at hstarts
    revert hstarts
    decide
  exact ⟨operand, after, hlands, .check_neg hnot hrun⟩

theorem square {base : Expr} (hoperator : operator.kind = .power)
    (hbase : ReadsPhrase .factor tokens (some .power) base) :
    ReadsPhrase .factor (tokens ++ [operator]) (some .newline) (.binary base operator.value (.literal .double (.int 2))) := by
  rw [← hoperator] at hbase
  refine chain (List.mem_singleton.2 hoperator) hbase fun {cursor window kind} hspells hkind hnext _ => ?_
  obtain rfl := Option.some.inj hnext
  cases hspells
  obtain ⟨value, after, hmade, hlands⟩ : Makes (liftM (Draft.newDouble (.int 2))) cursor _ :=
    newLiteral_makes .double nofun (.int 2) .null
  exact ⟨value, after, hlands, .check_pos (by rw [isAt_eq hkind]; rfl) (.of_eq hmade)⟩

/-! ### Sums and signs -/

theorem sum_tighter (h : ReadsPhrase .term tokens next tree) : ReadsPhrase .additive tokens next tree := by
  refine of_succeeds rfl fun hspells hkind hnext hbarred => ?_
  obtain ⟨hfree, hnot⟩ := Level.notMem_tighter rfl hbarred
  obtain ⟨value, after, hlands, hrun⟩ := h.succeeds hspells hkind hnext hfree hnot
  have hnot : ¬ after.isAt [.plus, .minus] :=
    not_isAt (hlands.window ▸ hkind) fun hmem => hbarred (List.mem_append_left _ (List.mem_append_left _ hmem))
  exact ⟨value, after, hlands, .step (.bind hrun (.check_neg hnot (.of_eq rfl)))⟩

theorem sum (hmem : operator.kind ∈ [.plus, .minus]) (hleft : ReadsPhrase .term tokens (some operator.kind) left)
    (hright : ReadsPhrase .additive others next right) :
    ReadsPhrase .additive (tokens ++ operator :: others) next (.binary left operator.value right) := by
  have hfree : ∀ kind ∈ [TokenKind.plus, .minus], kind ∉ Level.barred .term ∧ kind ∉ Level.operators .term := by decide
  refine of_succeeds rfl fun {cursor window kind} hspells hkind hnext hbarred => ?_
  obtain ⟨place, hfirst, hrest⟩ := hspells.split
  obtain ⟨value, middle, hlands, hrun⟩ := hleft.succeeds hfirst hrest.kind?_cons rfl (hfree _ hmem).1 (hfree _ hmem).2
  rw [← hlands.window] at hrest
  obtain ⟨first, hmove, hpasses, hrest⟩ := next_of_spells hrest
  obtain ⟨operand, second, hoperand, hrun'⟩ := hright.succeeds hrest hkind hnext hbarred nofun
  have hlater := hpasses.arrives.lands hoperand
  obtain ⟨joined, third, hjoin, hjoined⟩ :=
    joinSum_makes (hlands.shows.retained hlater.retains) hlater.shows operator.value
  rw [hlater.window] at hjoined
  exact ⟨joined, third, (hlands.trans hlater.toArrives).lands hjoined, .step (.bind hrun
    (.check_pos (isAt_iff.2 ⟨operator, hpasses.current, hmem⟩) (.currentValue hpasses.current
      (.bind (.of_eq hmove) (.bind hrun' (.of_eq hjoin))))))⟩

theorem sign_tighter (hderives : Derives true .primary tokens next tree) (h : ReadsPhrase .primary tokens next tree) :
    ReadsPhrase .unary tokens next tree := by
  refine of_succeeds rfl fun {cursor window kind} hspells hkind hnext hbarred => ?_
  obtain ⟨value, after, hlands, hrun⟩ := h.succeeds hspells hkind hnext hbarred nofun
  obtain ⟨token, rest, rfl, hstarts⟩ := hderives.starts
  have hfree : ∀ kind ∈ Level.starters .primary, kind ∉ [TokenKind.plus, .minus, .not] := by decide
  exact ⟨value, after, hlands, .step (.check_neg (not_isAt hspells.kind?_cons (hfree _ hstarts)) hrun)⟩

theorem sign {operand : Expr} (hmem : operator.kind ∈ [.plus, .minus, .not])
    (h : ReadsPhrase .primary tokens next operand) :
    ReadsPhrase .unary (operator :: tokens) next (.unary operator.value operand) := by
  refine of_succeeds rfl fun {cursor window kind} hspells hkind hnext hbarred => ?_
  obtain ⟨first, hmove, hpasses, hrest⟩ := next_of_spells hspells
  obtain ⟨value, middle, hlands, hrun⟩ := h.succeeds hrest hkind hnext hbarred nofun
  obtain ⟨signed, after, hmade, hsigned⟩ := newUnary_makes hlands.shows operator.value (.int middle.line)
  rw [hlands.window] at hsigned
  exact ⟨signed, after, (hpasses.arrives.trans hlands.toArrives).lands hsigned,
    .step (.check_pos (isAt_iff.2 ⟨operator, hpasses.current, hmem⟩) (.currentValue hpasses.current
      (.bind (.of_eq hmove) (.bind hrun (.of_eq hmade)))))⟩

end ReadsPhrase

/-! ### Primaries -/

theorem reads_primary (h : ∀ {cursor window kind}, cursor.window.Spells tokens window → window.kind? = some kind →
    kind ∉ Level.barred .primary → ∃ value after, Lands cursor window value tree after ∧
      Succeeds (fun fuel rounds => primaryWith (expression fuel) rounds) cursor value after) :
    ReadsPhrase .primary tokens next tree := by
  refine .of_succeeds rfl fun hspells hkind _ hbarred => ?_
  obtain ⟨value, after, hlands, hrun⟩ := h hspells hkind hbarred
  exact ⟨value, after, hlands, .step hrun.diagonal⟩

theorem literal_lands {x : Parse Value} (hmakes : Makes x cursor tree) (hspells : cursor.window.Spells [token] window) :
    ∃ value after, Lands cursor window value tree after ∧
      (do let node ← x; Parse.next; return node) cursor = .ok value after := by
  obtain ⟨value, middle, hrun, hlands⟩ := hmakes
  rw [← hlands.window] at hspells
  obtain ⟨after, hnext, hpasses, hrest⟩ := next_of_spells hspells
  have harrives := hpasses.arrives
  cases hrest with
  | done => exact ⟨value, after, hlands.onward harrives, bind_eq_ok.2 ⟨_, _, hrun, bind_eq_ok.2 ⟨_, _, hnext, rfl⟩⟩⟩

/-- The kind of the current token decides what is read. -/
theorem currentKind?_eq (h : cursor.current = some token) : cursor.currentKind? = some token.kind := by
  rw [Cursor.currentKind?, h, Option.map_some]

theorem reads_token {x : Value → Parse Value} (hmakes : ∀ {cursor} line, Makes (x line) cursor tree)
    (hrun : ∀ {cursor} expression count, cursor.current = some token → primaryWith expression count cursor =
      (do let node ← x (← line); Parse.next; return node : Parse Value) cursor) : ReadsPhrase .primary [token] next tree := by
  refine reads_primary fun {cursor window kind} hspells _ _ => ?_
  obtain ⟨value, after, hlands, hnode⟩ := literal_lands (hmakes (.int cursor.line)) hspells
  exact ⟨value, after, hlands, (Succeeds.of_eq hnode).congr fun _ _ => hrun _ _ hspells.current⟩

theorem reads_literal (h : literal? token = some tree) : ReadsPhrase .primary [token] next tree := by
  rw [literal?] at h
  split at h
  case h_6 => cases h
  all_goals rename_i hkind; obtain rfl := Option.some.inj h
  case h_1 | h_2 | h_3 =>
    refine reads_token (newLiteral_makes _ (by decide) _) fun expression count hcurrent => ?_
    rw [primaryWith, get_bind, currentKind?_eq hcurrent, hkind]
    exact currentValue_bind hcurrent _
  case h_4 =>
    refine reads_token (newString_makes token.value) fun expression count hcurrent => ?_
    rw [primaryWith, get_bind, currentKind?_eq hcurrent, hkind]
    exact currentValue_bind hcurrent _
  case h_5 =>
    refine reads_token (newLiteral_makes .null (by decide) .null) fun expression count hcurrent => ?_
    rw [primaryWith, get_bind, currentKind?_eq hcurrent, hkind]
    rfl

theorem reads_parentheses (hopening : opening.kind = .leftParen)
    (h : ReadsPhrase .expression tokens (some .rightParen) tree) (hclosing : closing.kind = .rightParen) :
    ReadsPhrase .primary (opening :: tokens ++ [closing]) next tree := by
  refine reads_primary fun {cursor window kind} hspells _ _ => ?_
  obtain ⟨first, hmove, hbefore, hrest⟩ := next_of_spells hspells
  obtain ⟨place, hinside, hrest⟩ := hrest.split
  obtain ⟨value, second, hlands, enough, hrun⟩ :=
    h.succeeds hinside (hclosing ▸ hrest.kind?_cons) rfl (by decide) (by decide)
  rw [← hlands.window] at hrest
  obtain ⟨after, hclose, hbehind, hrest⟩ := expect_of_spells hrest hclosing
    (some ("Missing closing parenthesis for expression on line " ++ toString second.line))
  have harrives := hbehind.arrives
  cases hrest with
  | done =>
      refine ⟨value, after, (hbefore.arrives.lands hlands).onward harrives, enough, fun fuel rounds hfuel hrounds => ?_⟩
      beta_reduce
      rw [primaryWith, get_bind, currentKind?_eq hbefore.current, hopening]
      have hrun := hrun fuel rounds hfuel hrounds
      exact bind_eq_ok.2 ⟨_, _, hmove, bind_eq_ok.2 ⟨_, _, hrun,
        bind_eq_ok.2 ⟨_, _, get_eq_ok.2 ⟨rfl, rfl⟩, bind_eq_ok.2 ⟨_, _, hclose, rfl⟩⟩⟩⟩

/-! ### Arguments -/

section Arguments

variable {shows : Graph → List Value → List Expr → Prop} {item : Nat → Parse (List Value)} {items : List Value}
  {trees : List Expr}

/-- The action reads an expression as an argument. -/
def Itemises (shows : Graph → List Value → List Expr → Prop) (item : Nat → Parse (List Value)) : Prop :=
  ∀ ⦃tokens tree kind⦄, ReadsPhrase .expression tokens (some kind) tree → kind ∈ [.comma, .rightParen] →
    ∀ ⦃cursor window⦄, cursor.window.Spells tokens window → window.kind? = some kind →
      ∃ value after, Arrives cursor window after ∧ shows after.graph [value] [tree] ∧
        Succeeds (fun fuel _ => item fuel) cursor [value] after

theorem ReadsPhrase.succeeds_argument (h : ReadsPhrase .expression tokens (some kind) tree) (hend : kind ∈ [.comma, .rightParen])
    (hspells : cursor.window.Spells tokens window) (hkind : window.kind? = some kind) :
    ∃ value after, Lands cursor window value tree after ∧ Succeeds (fun fuel _ => expression fuel) cursor value after := by
  have hfree : ∀ kind ∈ [TokenKind.comma, .rightParen],
      kind ∉ Level.barred .expression ∧ kind ∉ Level.operators .expression := by decide
  exact h.succeeds hspells hkind rfl (hfree kind hend).1 (hfree kind hend).2

theorem plainArgument_itemises : Itemises Graph.ShowsAll fun fuel => return [← expression fuel] := by
  intro tokens tree kind h hend cursor window hspells hkind
  obtain ⟨value, after, hlands, hrun⟩ := h.succeeds_argument hend hspells hkind
  exact ⟨value, after, hlands.toArrives, .cons hlands.shows .nil, .bind hrun (.of_eq rfl)⟩

theorem callArgument_itemises : Itemises Graph.ShowsArguments fun fuel => callArgument (expression fuel) := by
  intro tokens tree kind h hend cursor window hspells hkind
  have hspells : (argumentStart cursor).window.Spells tokens window := hspells
  obtain ⟨value, middle, hlands, enough, hrun⟩ := h.succeeds_argument hend hspells hkind
  obtain ⟨argument, after, harrives, hshows, heq⟩ := callArgument_fills hlands
  exact ⟨argument, after, harrives, hshows, enough, fun fuel rounds hfuel hrounds => heq _ (hrun fuel rounds hfuel hrounds)⟩

theorem argumentList_round {argument : Value} {first second : Cursor}
    (hnot : ¬ cursor.isAt [.rightParen, .eof, .newline]) (hitem : Succeeds (fun fuel _ => item fuel) cursor [argument] first)
    (hcomma : first.isAt [.comma] ∧ expect [.comma] none first = .ok () second ∨ ¬ first.isAt [.comma] ∧ first = second)
    (hrest : Succeeds (fun fuel rounds => argumentList (item fuel) rounds) second items after) :
    Succeeds (fun fuel rounds => argumentList (item fuel) rounds) cursor (argument :: items) after := by
  refine .round (.check_neg hnot (.bind (a := [argument]) (.bind hitem ?_) (.bind hrest (.of_eq rfl))))
  obtain ⟨hat, hexpect⟩ | ⟨hat, rfl⟩ := hcomma
  · exact .check_pos hat (.bind (.of_eq hexpect) (.of_eq rfl))
  · exact .check_neg hat (.of_eq rfl)

/-- The tokens, where they stand in front of a closing parenthesis, are read as the arguments. -/
def ReadsArguments (tokens : List Token) (trees : List Expr) : Prop :=
  ∀ ⦃shows item⦄, Listing shows → Itemises shows item → ∀ ⦃cursor window⦄, cursor.window.Spells tokens window →
    window.kind? = some .rightParen → ∃ items after, Arrives cursor window after ∧ shows after.graph items trees ∧
      Succeeds (fun fuel rounds => argumentList (item fuel) rounds) cursor items after

theorem readsArguments_none : ReadsArguments [] [] := by
  intro shows item hlisting _ cursor window hspells hkind
  cases hspells
  exact ⟨[], cursor, .refl _, hlisting.nil _, .round (.check_pos (by rw [isAt_eq hkind]; rfl) (.of_eq rfl))⟩

theorem not_isAt_end (h : Derives true .expression tokens next tree) (hspells : cursor.window.Spells tokens window) :
    ¬ cursor.isAt [.rightParen, .eof, .newline] := by
  have hfree : ∀ kind ∈ Level.starters .expression, kind ∉ [TokenKind.rightParen, .eof, .newline] := by decide
  obtain ⟨token, rest, rfl, hstarts⟩ := h.starts
  exact not_isAt hspells.kind?_cons (hfree _ hstarts)

theorem readsArguments_last (hderives : Derives true .expression tokens (some .rightParen) tree)
    (h : ReadsPhrase .expression tokens (some .rightParen) tree) : ReadsArguments tokens [tree] := by
  intro shows item hlisting hitem cursor window hspells hkind
  obtain ⟨argument, first, harrives, hshows, hfirst⟩ := hitem h (by decide) hspells hkind
  have hkind : first.window.kind? = some .rightParen := harrives.window ▸ hkind
  obtain ⟨items, after, hlater, hothers, hrest⟩ := readsArguments_none hlisting hitem (.done first.window) hkind
  rw [harrives.window] at hlater
  exact ⟨argument :: items, after, harrives.trans hlater, hlisting.cons (hlisting.kept hlater.retains.preserves hshows) hothers,
    argumentList_round (not_isAt_end hderives hspells) hfirst (.inr ⟨not_isAt hkind (by decide), rfl⟩) hrest⟩

theorem readsArguments_comma {comma : Token} (hderives : Derives true .expression tokens (some .comma) tree)
    (h : ReadsPhrase .expression tokens (some .comma) tree) (hcomma : comma.kind = .comma)
    (hothers : ReadsArguments others trees) : ReadsArguments (tokens ++ comma :: others) (tree :: trees) := by
  intro shows item hlisting hitem cursor window hspells hkind
  obtain ⟨place, hspells, hrest⟩ := hspells.split
  obtain ⟨argument, first, harrives, hshows, hfirst⟩ := hitem h (by decide) hspells (hcomma ▸ hrest.kind?_cons)
  rw [← harrives.window] at hrest
  obtain ⟨second, hexpect, hpasses, hrest⟩ := expect_of_spells hrest hcomma none
  have hat : first.isAt [.comma] := isAt_iff.2 ⟨comma, hpasses.current, List.mem_singleton.2 hcomma⟩
  obtain ⟨items, after, hlater, hothers, hrest⟩ := hothers hlisting hitem hrest hkind
  have hlater := hpasses.arrives.trans hlater
  exact ⟨argument :: items, after, harrives.trans hlater, hlisting.cons (hlisting.kept hlater.retains.preserves hshows) hothers,
    argumentList_round (not_isAt_end hderives hspells) hfirst (.inl ⟨hat, hexpect⟩) hrest⟩

theorem enclosed_reads {opening closing : Token} (hlisting : Listing shows) (hitem : Itemises shows item)
    (h : ReadsArguments tokens trees) (hopening : opening.kind = .leftParen) (hclosing : closing.kind = .rightParen)
    (hspells : cursor.window.Spells (opening :: tokens ++ [closing]) window) (message message' : Option String) :
    ∃ first items second after, expect [.leftParen] message cursor = .ok () first ∧
      Succeeds (fun fuel rounds => argumentList (item fuel) rounds) first items second ∧
      expect [.rightParen] message' second = .ok () after ∧ Arrives cursor window after ∧ shows after.graph items trees := by
  obtain ⟨first, hopen, hbefore, hrest⟩ := expect_of_spells hspells hopening message
  obtain ⟨place, hinside, hrest⟩ := hrest.split
  obtain ⟨items, second, harrives, hshows, hitems⟩ := h hlisting hitem hinside (hclosing ▸ hrest.kind?_cons)
  rw [← harrives.window] at hrest
  obtain ⟨after, hclose, hbehind, hrest⟩ := expect_of_spells hrest hclosing message'
  have hlater := hbehind.arrives
  cases hrest with
  | done =>
      exact ⟨first, items, second, after, hopen, hitems, hclose, (hbefore.arrives.trans harrives).trans hlater,
        hlisting.kept hlater.retains.preserves hshows⟩

end Arguments

/-! ### Names and calls -/

/-- How reading goes on behind a receiver: a dot leads to its methods, otherwise it is the result. -/
structure Resumes (kind : TokenKind) (cursor : Cursor) (receiver : Value) (middle : Cursor) : Prop where
  dot : kind = .dot → ∀ {result after}, Succeeds (fun fuel rounds => methodChain (expression fuel) rounds receiver)
    middle result after → Succeeds (fun fuel rounds => named (expression fuel) rounds) cursor result after
  stop : kind ≠ .dot → ∃ after, Arrives middle middle.window after ∧
    Succeeds (fun fuel rounds => named (expression fuel) rounds) cursor receiver after

/-- The tokens, where they stand in a text, are read as a variable or as calls. -/
def ReadsAccess (tokens : List Token) (tree : Expr) : Prop :=
  ∀ ⦃cursor window kind⦄, cursor.window.Spells tokens window → window.kind? = some kind →
    kind ∉ [.leftParen, .increment, .decrement] →
    ∃ receiver middle, Lands cursor window receiver tree middle ∧ Resumes kind cursor receiver middle

theorem readsAccess_name (hname : name.kind = .identifier) : ReadsAccess [name] (.reference name.value) := by
  intro cursor window kind hspells hkind hfree
  obtain ⟨first, hexpect, hpasses, hrest⟩ := expect_of_spells hspells hname none
  have harrives := hpasses.arrives
  generalize hplace : first.window = place at hrest harrives
  cases hrest with
  | done =>
      rw [← hplace] at hkind
      obtain ⟨receiver, middle, hmade, hlands⟩ := newReference_makes name.value (.int first.line)
      rw [hplace] at hlands
      have hnot {other : TokenKind} (hne : kind ≠ other) : ¬ first.isAt [other] :=
        not_isAt hkind fun hmem => hne (List.mem_singleton.1 hmem)
      have hparen : kind ≠ .leftParen := fun heq => hfree (by simp [heq])
      refine ⟨receiver, middle, harrives.lands hlands, fun hdot result after hrun => ?_, fun hdot => ⟨middle, .refl _, ?_⟩⟩
      · have hat : first.isAt [.dot] := by rw [isAt_eq hkind, hdot]; rfl
        exact .currentValue hpasses.current (.bind (.of_eq hexpect) (.check_neg (hnot hparen) (.check_pos hat
          (.bind (.of_eq rfl) (.bind (.of_eq hmade) hrun)))))
      · have hincrement : kind ≠ .increment := fun heq => hfree (by simp [heq])
        have hdecrement : kind ≠ .decrement := fun heq => hfree (by simp [heq])
        exact .currentValue hpasses.current (.bind (.of_eq hexpect) (.check_neg (hnot hparen) (.check_neg (hnot hdot)
          (.check_neg (hnot hincrement) (.check_neg (hnot hdecrement) (.of_eq hmade))))))

theorem readsAccess_call (hname : name.kind = .identifier) (hopening : opening.kind = .leftParen)
    (h : ReadsArguments tokens trees) (hclosing : closing.kind = .rightParen) :
    ReadsAccess (name :: opening :: tokens ++ [closing]) (.call name.value trees) := by
  intro cursor window kind hspells hkind _
  obtain ⟨first, hexpect, hpasses, hrest⟩ := expect_of_spells hspells hname none
  have hat : first.isAt [.leftParen] := isAt_iff.2 ⟨opening, hrest.current, List.mem_singleton.2 hopening⟩
  obtain ⟨second, items, third, fourth, hopen, hitems, hclose, harrives, hshows⟩ :=
    enclosed_reads listing_showsArguments callArgument_itemises h hopening hclosing hrest none
      (some ("Could not find enclosing bracket ')' for the function call: " ++ name.value.display ++ "(..."))
  have hunfocused : Arrives fourth fourth.window { fourth with focus := .null } := ⟨rfl, rfl, .refl _⟩
  have hshows : ({ fourth with focus := .null } : Cursor).graph.ShowsArguments items trees := hshows
  obtain ⟨call, middle, hmade, hlands⟩ := newCall_makes hshows name.value .null (.int fourth.line)
  have hwindow : ({ fourth with focus := .null } : Cursor).window = window := harrives.window
  rw [hwindow] at hlands
  have hkind : middle.window.kind? = some kind := hlands.window ▸ hkind
  refine ⟨call, middle, ((hpasses.arrives.trans harrives).trans hunfocused).lands hlands, ?_⟩
  -- Both ways on are those of the call itself.
  have hcall {result : Value} {after : Cursor} (hrest : Succeeds (fun fuel rounds => do
      if ← check [.dot] then methodChain (expression fuel) rounds call else return call) middle result after) :
      Succeeds (fun fuel rounds => named (expression fuel) rounds) cursor result after :=
    .currentValue hpasses.current (.bind (.of_eq hexpect) (.check_pos hat (.bind (.of_eq hopen) (.bind hitems
      (.bind (.of_eq (display_scalar _ _)) (.bind (.of_eq hclose) (.bind (.of_eq rfl) (.bind (.of_eq rfl)
        (.bind (.of_eq hmade) hrest)))))))))
  refine ⟨fun hdot result after hrun => hcall (.check_pos (by rw [isAt_eq hkind, hdot]; rfl) hrun),
    fun hdot => ⟨middle, .refl _, hcall (.check_neg ?_ (.of_eq rfl))⟩⟩
  exact not_isAt hkind fun hmem => hdot (List.mem_singleton.1 hmem)

theorem readsAccess_method {dot : Token} {receiver : Expr} (hreceiver : ReadsAccess others receiver)
    (hdot : dot.kind = .dot) (hname : name.kind = .identifier) (hopening : opening.kind = .leftParen)
    (h : ReadsArguments tokens trees) (hclosing : closing.kind = .rightParen) :
    ReadsAccess (others ++ dot :: name :: opening :: tokens ++ [closing]) (.method receiver name.value trees) := by
  intro cursor window kind hspells hkind _
  rw [List.append_assoc] at hspells
  obtain ⟨place, hbefore, hrest⟩ := hspells.split
  obtain ⟨value, start, hstart, hresumes⟩ := hreceiver hbefore hrest.kind?_cons (by rw [hdot]; decide)
  rw [← hstart.window] at hrest
  obtain ⟨first, hmove, hpasses, hrest⟩ := next_of_spells hrest
  obtain ⟨second, hexpect, hpasses', hrest⟩ := expect_of_spells hrest hname none
  obtain ⟨third, items, fourth, fifth, hopen, hitems, hclose, harrives, hshows⟩ :=
    enclosed_reads listing_showsAll plainArgument_itemises h hopening hclosing hrest
      (some ("Missing opening '(' parenthesis after method call: " ++ name.value.display))
      (some ("Could not find enclosing bracket ')'for the method call: " ++ name.value.display ++ "(..."))
  have hlater := (hpasses.arrives.trans hpasses'.arrives).trans harrives
  obtain ⟨call, middle, hmade, hlands⟩ :=
    newMethod_makes (hstart.shows.retained hlater.retains) hshows name.value (.int fifth.line)
  rw [harrives.window] at hlands
  have hkind : middle.window.kind? = some kind := hlands.window ▸ hkind
  refine ⟨call, middle, (hstart.trans hlater).lands hlands, ?_⟩
  -- One round of the chain leads from the receiver to the call.
  have hround {result : Value} {after : Cursor}
      (hrest : Succeeds (fun fuel rounds => methodChain (expression fuel) rounds call) middle result after) :
      Succeeds (fun fuel rounds => named (expression fuel) rounds) cursor result after := by
    have hat := isAt_iff.2 ⟨dot, hpasses.current, List.mem_singleton.2 hdot⟩
    exact hresumes.dot hdot (.round (.check_pos hat (.bind (.of_eq hmove) (.currentValue hpasses'.current
      (.bind (.of_eq hexpect) (.bind (.of_eq hopen) (.bind hitems (.bind (.of_eq hclose) (.bind (.of_eq rfl)
        (.bind (.of_eq hmade) hrest))))))))))
  refine ⟨fun _ _ _ hrest => hround hrest, fun hnot => ⟨{ middle with focus := .null }, ⟨rfl, rfl, .refl _⟩, ?_⟩⟩
  exact hround (.round (.check_neg (not_isAt hkind fun hmem => hnot (List.mem_singleton.1 hmem)) (.of_eq rfl)))

/-! ### Primaries that start with a name -/

theorem Succeeds.primaryWith (hcurrent : cursor.current = some name) (hname : name.kind = .identifier) {result : Value}
    (h : Succeeds (fun fuel rounds => named (expression fuel) rounds) cursor result after) :
    Succeeds (fun fuel rounds => Parse.primaryWith (expression fuel) rounds) cursor result after :=
  h.congr fun _ _ => by rw [Parse.primaryWith, get_bind, currentKind?_eq hcurrent, hname]

theorem reads_access (hderives : Access true tokens tree) (h : ReadsAccess tokens tree) : ReadsPhrase .primary tokens next tree := by
  refine reads_primary fun {cursor window kind} hspells hkind hbarred => ?_
  obtain ⟨name, rest, rfl, hname⟩ := hderives.starts
  have hfree : ∀ kind ∉ Level.barred .primary, kind ∉ [TokenKind.leftParen, .increment, .decrement] ∧ kind ≠ .dot := by
    simp +contextual [Level.barred, Level.barred.calls]
  obtain ⟨receiver, middle, hlands, hresumes⟩ := h hspells hkind (hfree kind hbarred).1
  obtain ⟨after, harrives, hrun⟩ := hresumes.stop (hfree kind hbarred).2
  rw [hlands.window] at harrives
  exact ⟨receiver, after, hlands.onward harrives, hrun.primaryWith hspells.current hname⟩

theorem reads_step {operator : Token} {sign : String} (hname : name.kind = .identifier)
    (hsign : operator.kind = .increment ∧ sign = "+" ∨ operator.kind = .decrement ∧ sign = "-") :
    ReadsPhrase .primary [name, operator] next (.step name.value sign) := by
  refine reads_primary fun {cursor window kind} hspells _ _ => ?_
  obtain ⟨first, hexpect, hpasses, hrest⟩ := expect_of_spells hspells hname none
  have hkind := hrest.kind?_cons
  obtain ⟨second, hmove, hpasses', hrest⟩ := next_of_spells hrest
  have harrives := hpasses.arrives.trans hpasses'.arrives
  generalize hplace : second.window = place at hrest harrives
  cases hrest with
  | done =>
      obtain ⟨value, after, hmade, hlands⟩ := stepNode_makes name.value sign
      rw [hplace] at hlands
      refine ⟨value, after, harrives.lands hlands, .primaryWith hpasses.current hname
        (.currentValue hpasses.current (.bind (.of_eq hexpect) ?_))⟩
      have hnot {other : TokenKind} (hne : operator.kind ≠ other) : ¬ first.isAt [other] :=
        not_isAt hkind fun hmem => hne (List.mem_singleton.1 hmem)
      obtain ⟨hoperator, rfl⟩ | ⟨hoperator, rfl⟩ := hsign
      all_goals
        rw [hoperator] at hkind hnot
        refine .check_neg (hnot nofun) (.check_neg (hnot nofun) ?_)
      · exact .check_pos (by rw [isAt_eq hkind]; rfl) (.bind (.of_eq hmove) (.of_eq hmade))
      · exact .check_neg (hnot nofun) (.check_pos (by rw [isAt_eq hkind]; rfl) (.bind (.of_eq hmove) (.of_eq hmade)))

/-! ### All phrases -/

theorem ReadsPhrase.tighter (hinner : level.tighter? = some inner) (hderives : Derives true inner tokens next tree)
    (h : ReadsPhrase inner tokens next tree) : ReadsPhrase level tokens next tree := by
  cases level with
  | additive => cases hinner; exact h.sum_tighter
  | unary => cases hinner; exact h.sign_tighter hderives
  | primary => cases hinner
  | _ => exact h.chain_tighter hinner nofun

theorem ReadsPhrase.operation {operator : Token} {left right : Expr} (hinner : level.tighter? = some inner)
    (hmem : operator.kind ∈ level.operators) (hleft : ReadsPhrase level tokens (some operator.kind) left)
    (hderives : Derives true inner others next right) (hright : ReadsPhrase inner others next right) :
    ReadsPhrase level (tokens ++ operator :: others) next (level.join left operator.value right) := by
  by_cases hfactor : level = .factor
  · subst hfactor
    cases hinner
    exact hleft.power hmem hderives hright
  · exact hleft.chain_operand hinner hfactor hmem hright

theorem eq_nil_of_arguments (h : Arguments true [] trees) : trees = [] := by
  generalize htokens : [] = tokens at h
  cases h with
  | none => rfl
  | next h _ _ =>
      obtain ⟨token, rest, rfl, -⟩ := h.starts
      cases htokens
  | comma => simp at htokens

theorem readsArguments_next (hderives : Derives true .expression tokens (some (leading others .rightParen)) tree)
    (h : ReadsPhrase .expression tokens (some (leading others .rightParen)) tree) (hcommas : others = [])
    (hothers : Arguments true others trees) : ReadsArguments (tokens ++ others) (tree :: trees) := by
  subst hcommas
  obtain rfl := eq_nil_of_arguments hothers
  rw [List.append_nil]
  exact readsArguments_last hderives h

end Parse

namespace Grammar

mutual

theorem Derives.reads {level : Level} {tokens : List Token} {next : Option TokenKind} {tree : Expr} :
    Derives true level tokens next tree → Parse.ReadsPhrase level tokens next tree
  | .tighter hinner h => .tighter hinner h h.reads
  | .chain hinner hoperator hleft hright => .operation hinner hoperator hleft.reads hright hright.reads
  | .square hoperator hbase => .square hoperator hbase.reads
  | .sum hoperator hleft hright => .sum hoperator hleft.reads hright.reads
  | .sign hoperator hoperand => .sign hoperator hoperand.reads
  | .literal h => Parse.reads_literal h
  | .parentheses hopening h hclosing => Parse.reads_parentheses hopening h.reads hclosing
  | .increment hname hoperator => Parse.reads_step hname (.inl ⟨hoperator, rfl⟩)
  | .decrement hname hoperator => Parse.reads_step hname (.inr ⟨hoperator, rfl⟩)
  | .access h => Parse.reads_access h h.reads

theorem Access.reads {tokens : List Token} {tree : Expr} : Access true tokens tree → Parse.ReadsAccess tokens tree
  | .name hname => Parse.readsAccess_name hname
  | .call hname hopening harguments hclosing => Parse.readsAccess_call hname hopening harguments.reads hclosing
  | .method hreceiver hdot hname hopening harguments hclosing =>
      Parse.readsAccess_method hreceiver.reads hdot hname hopening harguments.reads hclosing

theorem Arguments.reads {tokens : List Token} {trees : List Expr} :
    Arguments true tokens trees → Parse.ReadsArguments tokens trees
  | .none => Parse.readsArguments_none
  | .next h hcommas hothers => Parse.readsArguments_next h h.reads (hcommas rfl) hothers
  | .comma h hcomma hothers => Parse.readsArguments_comma h h.reads hcomma hothers.reads

end

end Grammar

namespace Parse

open Grammar

/-- With as many steps as tokens and messages call for, the rule ends as with any larger number. -/
theorem expression_eq_of_succeeds {cursor after : Cursor} {value : Value}
    (h : Succeeds (fun fuel _ => expression fuel) cursor value after) (hlimit : cursor.journal.limit.isSome) {count : Nat}
    (hcount : 8 * (cursor.left + 1) ≤ count) : expression count cursor = .ok value after := by
  obtain ⟨enough, hrun⟩ := h
  have hrun := hrun (max count enough) (max count enough) (Nat.le_max_right _ _) (Nat.le_max_right _ _)
  obtain heq | ⟨last, hfail⟩ := (levelsExtend (Nat.le_max_left count enough)).expression.eq_or_outOfSteps cursor
  · exact heq.trans hrun
  · have hruns := (runs_expression count (cursor.left + 1) hcount).obeys
    exact absurd ⟨hlimit, Nat.lt_succ_self _⟩ ((hruns.stop hfail).2 rfl)

/-- The rule for expressions recognises exactly its grammar: what it reads without a message is a phrase,
and every phrase with commas between its arguments is read to its end, without a message, as its tree. -/
theorem expression_recognises_grammar :
    (∀ count cursor value after, expression count cursor = .ok value after → cursor.Silent after →
      ∃ tokens tree, cursor.window.Spells tokens after.window ∧
        Derives false .expression tokens after.window.kind? tree ∧ after.graph.Shows value tree) ∧
    ∀ cursor window tokens kind tree, Derives true .expression tokens (some kind) tree →
      cursor.window.Spells tokens window → window.kind? = some kind →
      kind ∈ [.newline, .rightParen, .comma, .semicolon, .leftBrace, .rightBrace, .eof] →
      ∃ value after, after.window = window ∧ after.journal = cursor.journal ∧ after.graph.Shows value tree ∧
        (∃ enough, ∀ count ≥ enough, expression count cursor = .ok value after) ∧
        ∀ count, cursor.journal.limit.isSome → 8 * (cursor.left + 1) ≤ count → expression count cursor = .ok value after := by
  refine ⟨fun count cursor value after hrun hsilent => ?_, fun cursor window tokens kind tree h hspells hkind hend => ?_⟩
  · obtain ⟨tokens, tree, hspells, hderives, hlands⟩ := (rule_recognises count .expression).obtains hrun hsilent
    exact ⟨tokens, tree, hspells, hderives, hlands.shows⟩
  · have hfree : ∀ kind ∈ [TokenKind.newline, .rightParen, .comma, .semicolon, .leftBrace, .rightBrace, .eof],
        kind ∉ Level.barred .expression ∧ kind ∉ Level.operators .expression := by decide
    obtain ⟨value, after, hlands, hsucceeds⟩ := h.reads.succeeds hspells hkind rfl (hfree kind hend).1 (hfree kind hend).2
    refine ⟨value, after, hlands.window, hlands.journal, hlands.shows, ?_, fun count hlimit hcount =>
      expression_eq_of_succeeds hsucceeds hlimit hcount⟩
    obtain ⟨enough, hrun⟩ := hsucceeds
    exact ⟨enough, fun count hcount => hrun count count hcount hcount⟩

/-- A difference with a square at the end of the line. -/
theorem expression_recognises_square :
    let start : Cursor :=
      { scanner := .ofSource "b ^", current := some ⟨.identifier, .text "a"⟩, ahead := some ⟨.minus, .text "-"⟩ }
    ∃ value after minus b power, expression 1000 start = .ok value after ∧ after.window.kind? = some .newline ∧
      after.graph.Shows value (.binary (.reference (.text "a")) minus
        (.binary (.reference b) power (.literal .double (.int 2)))) ∧
      ∃ tokens tree, start.window.Spells tokens after.window ∧ Derives false .expression tokens (some .newline) tree ∧
        after.graph.Shows value tree := by
  intro start
  have hread : (start.window.read? 4).map (fun found => (found.1.tail.map Token.kind, found.2.kind?)) =
      some ([.minus, .identifier, .power], some .newline) := by decide +kernel
  obtain ⟨⟨tokens, window⟩, hread, heq⟩ := Option.map_eq_some_iff.1 hread
  obtain ⟨hkinds, hkind⟩ := Prod.mk.inj heq
  have hspells := Window.spells_of_read? hread
  obtain ⟨minus, others, hothers, hminus, hkinds⟩ := List.map_eq_cons_iff.1 hkinds
  obtain ⟨b, others, rfl, hb, hkinds⟩ := List.map_eq_cons_iff.1 hkinds
  obtain ⟨power, others, rfl, hpower, hkinds⟩ := List.map_eq_cons_iff.1 hkinds
  obtain rfl := List.map_eq_nil_iff.1 hkinds
  cases tokens with
  | nil => cases hothers
  | cons a rest =>
      obtain rfl : rest = [minus, b, power] := hothers
      obtain rfl := Option.some.inj (hspells.current : some _ = some a)
      have hleft {next : Option TokenKind} : Derives true .term [⟨.identifier, .text "a"⟩] next _ :=
        .tighter rfl (.tighter rfl (.tighter rfl (.access (.name rfl))))
      have hbase {next : Option TokenKind} : Derives true .factor [b] next _ :=
        .tighter rfl (.tighter rfl (.access (.name hb)))
      have hright : Derives true .additive [b, power] (some .newline) _ :=
        .tighter rfl (.tighter rfl (.square hpower hbase))
      have hderives : Derives true .expression [⟨.identifier, .text "a"⟩, minus, b, power] (some .newline) _ :=
        .tighter rfl (.tighter rfl (.tighter rfl (.sum (by simp [hminus]) hleft hright)))
      obtain ⟨value, after, hwindow, hjournal, hshows, -, hrun⟩ :=
        expression_recognises_grammar.2 start window _ _ _ hderives hspells hkind (by decide)
      have hrun := hrun 1000 rfl (by decide +kernel)
      obtain ⟨tokens, tree, hfound, hphrase, hshown⟩ :=
        expression_recognises_grammar.1 1000 start value after hrun (by rw [Cursor.Silent, hjournal])
      have hkind : after.window.kind? = some .newline := hwindow ▸ hkind
      exact ⟨value, after, minus.value, b.value, power.value, hrun, hkind, hshows, tokens, tree, hfound, hkind ▸ hphrase, hshown⟩

end Parse

end Scriptlet
