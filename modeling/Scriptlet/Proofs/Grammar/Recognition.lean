import Scriptlet.Proofs.Grammar.Budget
import Scriptlet.Proofs.Grammar.Depiction

/-!
What is read as an expression is a phrase of the grammar.

Where a rule for expressions ends without a message, the tokens that it has passed are derived from its
level, and its result shows the tree of the derivation.
-/

set_option synthInstance.maxSize 1000000

namespace Scriptlet.Parse

open Grammar

variable {α β : Type} {cursor middle after : Cursor} {level inner : Level}

/-! ### Runs without a message -/

theorem bind_silent {x : Parse α} {f : α → Parse β} {b : β} [hx : Obeys (steady 0) x]
    [hf : ∀ a, Obeys (steady 0) (f a)] (h : (x >>= f) cursor = .ok b after) (hsilent : cursor.Silent after) :
    ∃ a middle, x cursor = .ok a middle ∧ cursor.Silent middle ∧ f a middle = .ok b after ∧ middle.Silent after := by
  obtain ⟨a, middle, hfirst, hrest⟩ := bind_eq_ok.1 h
  have hgrows := (hx.step hfirst).journal.messages
  have hgrows' := ((hf a).step hrest).journal.messages
  exact ⟨a, middle, hfirst, hgrows'.trans hsilent, hrest, hsilent.trans hgrows⟩

theorem line_bind (f : Value → Parse β) (cursor : Cursor) : (line >>= f) cursor = f (.int cursor.line) cursor := rfl

theorem currentValue_bind {token : Token} (h : cursor.current = some token) (f : Scalar → Parse β) :
    (currentValue >>= f) cursor = f token.value cursor := by
  have hvalue : currentValue cursor = .ok token.value cursor := currentValue_eq_ok.2 ⟨⟨token, h, rfl⟩, rfl⟩
  show EStateM.bind currentValue f cursor = _
  rw [EStateM.bind, hvalue]

/-- A token is passed. -/
structure Passes (cursor : Cursor) (token : Token) (after : Cursor) : Prop where
  spells : cursor.window.Spells [token] after.window
  draft : after.toDraft = cursor.toDraft

namespace Passes

variable {token : Token}

theorem current (h : Passes cursor token after) : cursor.current = some token :=
  h.spells.current

theorem arrives (h : Passes cursor token after) : Arrives cursor after.window after :=
  ⟨rfl, congrArg Draft.journal h.draft, h.draft ▸ .refl _⟩

theorem kind?_eq (h : Passes cursor token after) : cursor.window.kind? = some token.kind :=
  h.spells.kind?_cons

end Passes

theorem next_passes {token : Token} {u : Unit} (htoken : cursor.current = some token) (hend : token.kind ≠ .eof)
    (h : next cursor = .ok u after) (hsilent : cursor.Silent after) : Passes cursor token after := by
  have hnot : ¬ cursor.isAt [.eof] := by
    rw [isAt_iff]
    rintro ⟨found, hfound, hkind⟩
    obtain rfl := Option.some.inj (htoken.symm.trans hfound)
    exact hend (List.mem_singleton.1 hkind)
  obtain ⟨read, line, hread, hreports, rfl⟩ := next_silent hnot h hsilent
  exact ⟨.single htoken hend (Window.next?_eq_some.2 ⟨read, hread, hreports, rfl⟩), rfl⟩

theorem expect_passes {kind : TokenKind} {message : Option String} {u : Unit} (hend : kind ≠ .eof)
    (h : expect [kind] message cursor = .ok u after) (hsilent : cursor.Silent after) :
    ∃ token, token.kind = kind ∧ Passes cursor token after := by
  obtain ⟨hat, hnext⟩ := expect_silent h hsilent
  obtain ⟨token, htoken, hkind⟩ := isAt_iff.1 hat
  have hkind : token.kind = kind := List.mem_singleton.1 hkind
  exact ⟨token, hkind, next_passes htoken (hkind ▸ hend) hnext hsilent⟩

/-! ### Chains of operators -/

/-- A phrase of the level stands between the cursors, and the value shows its tree. -/
def Obtains (level : Level) (cursor : Cursor) (value : Value) (after : Cursor) : Prop :=
  ∃ tokens tree, cursor.window.Spells tokens after.window ∧ Derives false level tokens after.window.kind? tree ∧
    Lands cursor after.window value tree after

/-- Where the rule ends without a message it has read a phrase of the level. -/
structure Recognises (level : Level) (x : Parse Value) : Prop where
  runs : Runs 0 x
  obtains : ∀ {cursor value after}, x cursor = .ok value after → cursor.Silent after → Obtains level cursor value after

theorem Obtains.tighter {value : Value} (hinner : level.tighter? = some inner) (h : Obtains inner cursor value after) :
    Obtains level cursor value after := by
  obtain ⟨tokens, tree, hspells, hderives, hlands⟩ := h
  exact ⟨tokens, tree, hspells, .tighter hinner hderives, hlands⟩

/-- What is read behind an operator of a level continues a phrase of that level. -/
structure Continues (level : Level) (operand : Parse Value) : Prop where
  steady : Obeys (steady 0) operand
  obtains : ∀ {cursor value after}, operand cursor = .ok value after → cursor.Silent after →
    ∃ others right, cursor.window.Spells others after.window ∧ Lands cursor after.window value right after ∧
      ∀ {tokens operator left}, operator.kind ∈ level.operators → Derives false level tokens (some operator.kind) left →
        Derives false level (tokens ++ operator :: others) after.window.kind? (level.join left operator.value right)

theorem Recognises.continues {operand : Parse Value} (hinner : level.tighter? = some inner) (h : Recognises inner operand) :
    Continues level operand := by
  refine ⟨h.runs.obeys, fun hrun hsilent => ?_⟩
  obtain ⟨others, right, hspells, hderives, hlands⟩ := h.obtains hrun hsilent
  exact ⟨others, right, hspells, hlands, fun hoperator hleft => .chain hinner hoperator hleft hderives⟩

/-- What makes the node of an operation of a level. -/
def joinAt : Level → Value → Value → Value → Parse Value
  | .expression => joinLogical
  | .equality | .comparison => joinComparison
  | .additive => joinSum
  | _ => joinProduct

theorem joinAt_makes (level : Level) {left right : Value} {leftTree rightTree : Expr} (hleft : cursor.graph.Shows left leftTree)
    (hright : cursor.graph.Shows right rightTree) (operator : Scalar) :
    Makes (joinAt level left (.scalar operator) right) cursor (level.join leftTree operator rightTree) := by
  cases level
  case expression => exact joinLogical_makes hleft hright operator
  case equality | comparison => exact joinComparison_makes hleft hright operator
  case additive => exact joinSum_makes hleft hright operator
  all_goals exact joinProduct_makes hleft hright operator

instance (n : Nat) (left operator right : Value) : Obeys (steady n) (joinAt level left operator right) := by
  cases level <;> unfold joinAt <;> infer_instance

instance : Holds (TokenKind.endless level.operators) :=
  ⟨by cases level <;> rfl⟩

section Chains

variable {operand : Parse Value}

/-- The rounds of a chain: what has been read so far is a phrase of the level, and each round makes it longer. -/
theorem leftChain_obtains (hoperand : Continues level operand) {count : Nat} {left value : Value} {tokens : List Token}
    {tree : Expr} (h : leftChain level.operators operand (joinAt level) count left cursor = .ok value after)
    (hsilent : cursor.Silent after) (hderives : Derives false level tokens cursor.window.kind? tree)
    (hshows : cursor.graph.Shows left tree) :
    ∃ others whole, cursor.window.Spells others after.window ∧
      Derives false level (tokens ++ others) after.window.kind? whole ∧ Lands cursor after.window value whole after := by
  have := hoperand.steady
  induction count generalizing cursor left tokens tree with
  | zero => exact absurd h fail_ne_ok
  | succ count ih =>
      rw [leftChain, check_bind] at h
      split at h
      case isFalse =>
        obtain ⟨rfl, rfl⟩ := pure_eq_ok.1 h
        exact ⟨[], tree, .done _, (List.append_nil tokens).symm ▸ hderives, .refl _, hshows⟩
      case isTrue hat =>
        obtain ⟨operator, hcurrent, hmem⟩ := isAt_iff.1 hat
        rw [currentValue_bind hcurrent] at h
        obtain ⟨_, first, hnext, hquiet, h, hsilent⟩ := bind_silent h hsilent
        have hpasses := next_passes hcurrent (fun heof => TokenKind.eof_notMem Holds.eq_true (heof ▸ hmem)) hnext hquiet
        rw [hpasses.kind?_eq] at hderives
        obtain ⟨right, second, hright, hquiet, h, hsilent⟩ := bind_silent h hsilent
        obtain ⟨others, rightTree, hspells, hlands, hcontinues⟩ := hoperand.obtains hright hquiet
        have hlands := hpasses.arrives.lands hlands
        obtain ⟨joined, third, hjoined, -, h, hsilent⟩ := bind_silent h hsilent
        have hjoin := (joinAt_makes level (hshows.retained hlands.retains) hlands.shows operator.value).lands hjoined
        have hwhole := hcontinues hmem hderives
        rw [← hjoin.window] at hwhole hspells
        obtain ⟨rest, whole, hrest, hall, hlast⟩ := ih h hsilent hwhole hjoin.shows
        refine ⟨operator :: others ++ rest, whole, (hpasses.spells.append hspells).append hrest, ?_,
          (hlands.trans hjoin.toArrives).lands hlast⟩
        rwa [← List.append_assoc]

theorem chain_recognises {first : Parse Value} {count : Nat} (hinner : level.tighter? = some inner)
    (hfirst : Recognises inner first) (hoperand : Continues level operand) :
    Recognises level (do leftChain level.operators operand (joinAt level) count (← first)) := by
  have := hoperand.steady
  refine ⟨runs_chain hfirst.runs inferInstance (Nat.zero_le _), fun h hsilent => ?_⟩
  have := hfirst.runs.obeys
  obtain ⟨left, middle, hleft, hquiet, h, hsilent⟩ := bind_silent h hsilent
  obtain ⟨tokens, tree, hspells, hderives, hlands⟩ := hfirst.obtains hleft hquiet
  obtain ⟨others, whole, hothers, hwhole, hlast⟩ :=
    leftChain_obtains hoperand h hsilent (.tighter hinner hderives) hlands.shows
  exact ⟨tokens ++ others, whole, hspells.append hothers, hwhole, hlands.lands hlast⟩

end Chains

/-! ### Arguments -/

/-- How the values of arguments show their trees. -/
structure Listing (shows : Graph → List Value → List Expr → Prop) : Prop where
  nil : ∀ graph, shows graph [] []
  cons : ∀ {graph item tree items trees}, shows graph [item] [tree] → shows graph items trees →
    shows graph (item :: items) (tree :: trees)
  kept : ∀ {before after : Graph} {items trees}, before.Preserves after → shows before items trees → shows after items trees

theorem listing_showsAll : Listing Graph.ShowsAll where
  nil _ := .nil
  cons | .cons h _, hrest => .cons h hrest
  kept hpreserves h := h.kept hpreserves

theorem listing_showsArguments : Listing Graph.ShowsArguments where
  nil _ := .nil
  cons | .cons hnode h _, hrest => .cons hnode h hrest
  kept hpreserves h := h.kept hpreserves

section Arguments

variable {shows : Graph → List Value → List Expr → Prop} {item : Parse (List Value)} {items : List Value}

/-- One argument stands between the cursors. -/
def ObtainsItem (shows : Graph → List Value → List Expr → Prop) (cursor : Cursor) (items : List Value)
    (after : Cursor) : Prop :=
  ∃ tokens value tree, items = [value] ∧ cursor.window.Spells tokens after.window ∧
    Derives false .expression tokens after.window.kind? tree ∧ Arrives cursor after.window after ∧
    shows after.graph [value] [tree]

variable [Obeys (steady 0) item] [Advances item] (hlisting : Listing shows)
  (hitem : ∀ {cursor items after}, item cursor = .ok items after → cursor.Silent after → ObtainsItem shows cursor items after)

include hlisting hitem

theorem argumentList_obtains {count : Nat} (h : argumentList item count cursor = .ok items after)
    (hsilent : cursor.Silent after) (hclosing : after.window.kind? = some .rightParen) :
    ∃ tokens trees, cursor.window.Spells tokens after.window ∧ Arguments false tokens trees ∧
      Arrives cursor after.window after ∧ shows after.graph items trees := by
  unfold argumentList at h
  induction count generalizing cursor items with
  | zero => exact absurd h fail_ne_ok
  | succ count ih =>
      rw [repeatUntil, check_bind] at h
      split at h
      case isTrue =>
        obtain ⟨rfl, rfl⟩ := pure_eq_ok.1 h
        exact ⟨[], [], .done _, .none, .refl _, hlisting.nil _⟩
      case isFalse =>
        obtain ⟨_, second, hbody, hquiet, h, hsilent⟩ := bind_silent h hsilent
        obtain ⟨rest, _, hrest, hrestQuiet, h, -⟩ := bind_silent h hsilent
        obtain ⟨rfl, rfl⟩ := pure_eq_ok.1 h
        obtain ⟨others, trees, hothers, harguments, hlater, hshows'⟩ := ih hrest hrestQuiet
        obtain ⟨_, first, hfirst, hquiet', hbody, hquiet⟩ := bind_silent hbody hquiet
        obtain ⟨tokens, value, tree, rfl, hspells, hderives, harrives, hshows⟩ := hitem hfirst hquiet'
        rw [check_bind] at hbody
        split at hbody
        case isTrue =>
          obtain ⟨_, _, hcomma, hquiet, hbody, -⟩ := bind_silent hbody hquiet
          obtain ⟨rfl, rfl⟩ := pure_eq_ok.1 hbody
          obtain ⟨comma, hkind, hpasses⟩ := expect_passes (by decide) hcomma hquiet
          rw [hpasses.kind?_eq, hkind] at hderives
          have hlater := hpasses.arrives.trans hlater
          exact ⟨tokens ++ comma :: others, tree :: trees, hspells.append (hpasses.spells.append hothers),
            .comma hderives hkind harguments, harrives.trans hlater,
            hlisting.cons (hlisting.kept hlater.retains.preserves hshows) hshows'⟩
        case isFalse =>
          obtain ⟨rfl, rfl⟩ := pure_eq_ok.1 hbody
          rw [hothers.kind?_eq_leading hclosing] at hderives
          exact ⟨tokens ++ others, tree :: trees, hspells.append hothers, .next hderives (fun h => absurd h Bool.false_ne_true) harguments,
            harrives.trans hlater, hlisting.cons (hlisting.kept hlater.retains.preserves hshows) hshows'⟩

theorem enclosed_obtains {count : Nat} {first second : Cursor} {message message' : Option String} {u u' : Unit}
    (hopen : expect [.leftParen] message cursor = .ok u first) (hfirst : cursor.Silent first)
    (h : argumentList item count first = .ok items second) (hsecond : first.Silent second)
    (hclose : expect [.rightParen] message' second = .ok u' after) (hafter : second.Silent after) :
    ∃ opening tokens closing trees, opening.kind = .leftParen ∧ Arguments false tokens trees ∧ closing.kind = .rightParen ∧
      cursor.window.Spells (opening :: tokens ++ [closing]) after.window ∧ Arrives cursor after.window after ∧
      shows after.graph items trees := by
  obtain ⟨opening, hopening, hbefore⟩ := expect_passes (by decide) hopen hfirst
  obtain ⟨closing, hclosing, hbehind⟩ := expect_passes (by decide) hclose hafter
  obtain ⟨tokens, trees, hspells, harguments, harrives, hshows⟩ :=
    argumentList_obtains hlisting hitem h hsecond (hclosing ▸ hbehind.kind?_eq)
  exact ⟨opening, tokens, closing, trees, hopening, harguments, hclosing,
    (hbefore.spells.append hspells).append hbehind.spells, (hbefore.arrives.trans harrives).trans hbehind.arrives,
    hlisting.kept hbehind.arrives.retains.preserves hshows⟩

end Arguments

/-! ### Calls -/

section Calls

variable {expression : Parse Value} {count : Nat} {value : Value} {tokens : List Token} {tree : Expr}

theorem plainArgument_obtains (hexpression : Recognises .expression expression) {items : List Value}
    (h : (do return [← expression] : Parse (List Value)) cursor = .ok items after) (hsilent : cursor.Silent after) :
    ObtainsItem Graph.ShowsAll cursor items after := by
  have := hexpression.runs.obeys
  obtain ⟨value, _, hrun, hquiet, h, -⟩ := bind_silent h hsilent
  obtain ⟨rfl, rfl⟩ := pure_eq_ok.1 h
  obtain ⟨tokens, tree, hspells, hderives, hlands⟩ := hexpression.obtains hrun hquiet
  exact ⟨tokens, value, tree, rfl, hspells, hderives, hlands.toArrives, .cons hlands.shows .nil⟩

theorem callArgument_obtains (hexpression : Recognises .expression expression) {items : List Value}
    (h : callArgument expression cursor = .ok items after) (hsilent : cursor.Silent after) :
    ObtainsItem Graph.ShowsArguments cursor items after := by
  have := hexpression.runs.obeys
  have hopen : (expression >>= _) (argumentStart cursor) = EStateM.Result.ok items after := h
  obtain ⟨value, middle, hrun, hquiet, -, -⟩ := bind_silent hopen hsilent
  obtain ⟨tokens, tree, hspells, hderives, hlands⟩ := hexpression.obtains hrun hquiet
  obtain ⟨item, _, harrives, hitem, heq⟩ := callArgument_fills hlands
  obtain ⟨rfl, rfl⟩ := EStateM.Result.ok.inj ((heq _ hrun).symm.trans h)
  rw [← harrives.window] at hspells hderives harrives
  exact ⟨tokens, item, tree, rfl, hspells, hderives, harrives, hitem⟩

/-- The tokens between the cursors complete what has been read to a chain of calls. -/
def Completes (tokens : List Token) (cursor : Cursor) (value : Value) (after : Cursor) : Prop :=
  ∃ others tree, cursor.window.Spells others after.window ∧ Access false (tokens ++ others) tree ∧
    Lands cursor after.window value tree after

theorem Completes.done (haccess : Access false tokens tree) (h : Lands cursor cursor.window value tree after) :
    Completes tokens cursor value after := by
  rw [Completes, h.window]
  exact ⟨[], tree, .done _, (List.append_nil tokens).symm ▸ haccess, h⟩

theorem methodChain_completes (hexpression : Recognises .expression expression) {receiver : Value}
    (h : methodChain expression count receiver cursor = .ok value after) (hsilent : cursor.Silent after)
    (haccess : Access false tokens tree) (hshows : cursor.graph.Shows receiver tree) :
    Completes tokens cursor value after := by
  obtain ⟨_, _⟩ := hexpression.runs
  induction count generalizing cursor receiver tokens tree with
  | zero => exact absurd h fail_ne_ok
  | succ count ih =>
      rw [methodChain, check_bind] at h
      split at h
      case isFalse =>
        obtain ⟨_, _, hfocus, h⟩ := bind_eq_ok.1 h
        obtain rfl := modify_eq_ok.1 hfocus
        obtain ⟨rfl, rfl⟩ := pure_eq_ok.1 h
        exact .done haccess ⟨⟨rfl, rfl, .refl _⟩, hshows⟩
      case isTrue hat =>
        obtain ⟨dot, hcurrent, hdot⟩ := isAt_iff.1 hat
        have hdot : dot.kind = .dot := List.mem_singleton.1 hdot
        obtain ⟨_, first, hnext, hquiet, h, hsilent⟩ := bind_silent h hsilent
        have hpasses := next_passes hcurrent (by rw [hdot]; decide) hnext hquiet
        obtain ⟨_, _, hvalue, -, h, hsilent⟩ := bind_silent h hsilent
        obtain ⟨⟨name, hname, rfl⟩, rfl⟩ := currentValue_eq_ok.1 hvalue
        obtain ⟨_, second, hexpect, hquiet, h, hsilent⟩ := bind_silent h hsilent
        obtain ⟨name', hkind, hpasses'⟩ := expect_passes (by decide) hexpect hquiet
        obtain rfl := Option.some.inj (hname.symm.trans hpasses'.current)
        obtain ⟨_, _, hopen, hfirst, h, hsilent⟩ := bind_silent h hsilent
        obtain ⟨items, _, hitems, hsecond, h, hsilent⟩ := bind_silent h hsilent
        obtain ⟨_, third, hclose, hthird, h, hsilent⟩ := bind_silent h hsilent
        obtain ⟨opening, inside, closing, trees, hopening, harguments, hclosing, hspells, harrives, hshows'⟩ :=
          enclosed_obtains listing_showsAll (plainArgument_obtains hexpression) hopen hfirst hitems hsecond hclose hthird
        have harrives := (hpasses.arrives.trans hpasses'.arrives).trans harrives
        rw [line_bind] at h
        obtain ⟨call, fourth, hcall, -, h, hsilent⟩ := bind_silent h hsilent
        have hlands := (newMethod_makes (hshows.retained harrives.retains) hshows' name.value _).lands hcall
        obtain ⟨others, whole, hothers, hwhole, hlast⟩ :=
          ih h hsilent (.method haccess hdot hkind hopening harguments hclosing) hlands.shows
        rw [hlands.window] at hothers
        refine ⟨dot :: name :: (opening :: inside ++ [closing]) ++ others, whole, ?_, ?_,
          (harrives.trans hlands.toArrives).lands hlast⟩
        · exact (hpasses.spells.append (hpasses'.spells.append hspells)).append hothers
        · simpa using hwhole

theorem functionCall_completes (hexpression : Recognises .expression expression) {name : Token} (hname : name.kind = .identifier)
    (h : functionCall expression count (.scalar name.value) cursor = .ok value after) (hsilent : cursor.Silent after) :
    Completes [name] cursor value after := by
  obtain ⟨_, _⟩ := hexpression.runs
  unfold functionCall at h
  obtain ⟨_, _, hopen, hfirst, h, hsilent⟩ := bind_silent h hsilent
  obtain ⟨items, _, hitems, hsecond, h, hsilent⟩ := bind_silent h hsilent
  obtain ⟨_, _, hdisplay, -, h, hsilent⟩ := bind_silent h hsilent
  obtain ⟨rfl, rfl⟩ := EStateM.Result.ok.inj ((display_scalar _ _).symm.trans hdisplay)
  obtain ⟨_, third, hclose, hthird, h, hsilent⟩ := bind_silent h hsilent
  obtain ⟨opening, inside, closing, trees, hopening, harguments, hclosing, hspells, harrives, hshows⟩ :=
    enclosed_obtains listing_showsArguments (callArgument_obtains hexpression) hopen hfirst hitems hsecond hclose hthird
  obtain ⟨_, fourth, hfocus, -, h, hsilent⟩ := bind_silent h hsilent
  obtain rfl := modify_eq_ok.1 hfocus
  rw [line_bind] at h
  obtain ⟨call, fifth, hcall, -, h, hsilent⟩ := bind_silent h hsilent
  have hshows : ({ third with focus := .null } : Cursor).graph.ShowsArguments items trees := hshows
  have hlands := (newCall_makes hshows name.value _ _).lands hcall
  have haccess : Access false ([name] ++ (opening :: inside ++ [closing])) _ := .call hname hopening harguments hclosing
  have hcompletes : Completes ([name] ++ (opening :: inside ++ [closing])) fifth value after := by
    rw [check_bind] at h
    split at h
    case isTrue => exact methodChain_completes hexpression h hsilent haccess hlands.shows
    case isFalse =>
      obtain ⟨rfl, rfl⟩ := pure_eq_ok.1 h
      exact .done haccess ⟨.refl _, hlands.shows⟩
  obtain ⟨others, whole, hothers, hwhole, hlast⟩ := hcompletes
  rw [hlands.window] at hothers
  have hcall : Arrives third _ fifth := ⟨rfl, hlands.journal, hlands.retains⟩
  refine ⟨opening :: inside ++ [closing] ++ others, whole, hspells.append hothers, ?_, (harrives.trans hcall).lands hlast⟩
  rwa [← List.append_assoc]

theorem Completes.obtains {name : Token} (hpasses : Passes cursor name middle) (h : Completes [name] middle value after) :
    Obtains .primary cursor value after := by
  obtain ⟨others, tree, hspells, haccess, hlands⟩ := h
  exact ⟨name :: others, tree, hpasses.spells.append hspells, .access haccess, hpasses.arrives.lands hlands⟩

theorem stepNode_obtains {name operator : Token} {sign : String} (hpasses : Passes cursor name middle)
    (hoperator : middle.current = some operator) (hend : operator.kind ≠ .eof)
    (hderives : ∀ next, Derives false .primary [name, operator] next (.step name.value sign))
    (h : (do next; stepNode (.scalar name.value) sign : Parse Value) middle = .ok value after) (hsilent : middle.Silent after) :
    Obtains .primary cursor value after := by
  obtain ⟨_, first, hnext, hquiet, h, -⟩ := bind_silent h hsilent
  have hpasses' := next_passes hoperator hend hnext hquiet
  have hlands := (stepNode_makes name.value sign).lands h
  rw [Obtains, hlands.window]
  exact ⟨[name, operator], _, hpasses.spells.append hpasses'.spells, hderives _,
    (hpasses.arrives.trans hpasses'.arrives).lands hlands⟩

theorem named_obtains (hexpression : Recognises .expression expression)
    (h : named expression count cursor = .ok value after) (hsilent : cursor.Silent after) :
    Obtains .primary cursor value after := by
  obtain ⟨_, _⟩ := hexpression.runs
  unfold named at h
  obtain ⟨_, _, hvalue, -, h, hsilent⟩ := bind_silent h hsilent
  obtain ⟨⟨name, hcurrent, rfl⟩, rfl⟩ := currentValue_eq_ok.1 hvalue
  obtain ⟨_, middle, hexpect, hquiet, h, hsilent⟩ := bind_silent h hsilent
  obtain ⟨_, hname, hpasses⟩ := expect_passes (by decide) hexpect hquiet
  obtain rfl := Option.some.inj (hcurrent.symm.trans hpasses.current)
  rw [check_bind] at h
  split at h
  case isTrue => exact (functionCall_completes hexpression hname h hsilent).obtains hpasses
  rw [check_bind] at h
  split at h
  case isTrue =>
    rw [line_bind] at h
    obtain ⟨reference, first, hreference, -, h, hsilent⟩ := bind_silent h hsilent
    have hlands := (newReference_makes name.value _).lands hreference
    obtain ⟨others, tree, hspells, haccess, hlast⟩ :=
      methodChain_completes hexpression h hsilent (.name hname) hlands.shows
    rw [hlands.window] at hspells
    exact Completes.obtains hpasses ⟨others, tree, hspells, haccess, hlands.lands hlast⟩
  rw [check_bind] at h
  split at h
  case isTrue hat =>
    obtain ⟨operator, hoperator, hkind⟩ := isAt_iff.1 hat
    have hkind : operator.kind = .increment := List.mem_singleton.1 hkind
    exact stepNode_obtains hpasses hoperator (by rw [hkind]; decide) (fun _ => .increment hname hkind) h hsilent
  rw [check_bind] at h
  split at h
  case isTrue hat =>
    obtain ⟨operator, hoperator, hkind⟩ := isAt_iff.1 hat
    have hkind : operator.kind = .decrement := List.mem_singleton.1 hkind
    exact stepNode_obtains hpasses hoperator (by rw [hkind]; decide) (fun _ => .decrement hname hkind) h hsilent
  case isFalse => exact (Completes.done (.name hname) ((newReference_makes name.value _).lands h)).obtains hpasses

end Calls

/-! ### Primaries -/

section Primaries

variable {expression : Parse Value} {count : Nat} {value : Value} {token : Token}

theorem literal_obtains {x : Parse Value} [Obeys (steady 0) x] {tree : Expr} (hmakes : Makes x cursor tree)
    (hcurrent : cursor.current = some token) (hend : token.kind ≠ .eof) (htree : literal? token = some tree)
    (h : (do let node ← x; next; return node) cursor = .ok value after) (hsilent : cursor.Silent after) :
    Obtains .primary cursor value after := by
  obtain ⟨node, middle, hnode, -, h, hsilent⟩ := bind_silent h hsilent
  have hlands := hmakes.lands hnode
  obtain ⟨_, _, hnext, hquiet, h, -⟩ := bind_silent h hsilent
  obtain ⟨rfl, rfl⟩ := pure_eq_ok.1 h
  have hcurrent : middle.current = some token := (congrArg Window.current hlands.window).trans hcurrent
  have hpasses := next_passes hcurrent hend hnext hquiet
  exact ⟨[token], tree, hlands.window ▸ hpasses.spells, .literal htree, hlands.onward hpasses.arrives⟩

theorem literalNode_obtains {kind : Kind} {content : Scalar} (hkind : kind ≠ .string)
    (hcurrent : cursor.current = some token) (hend : token.kind ≠ .eof)
    (htree : literal? token = some (.literal kind content))
    (h : literalNode kind (.scalar content) cursor = .ok value after) (hsilent : cursor.Silent after) :
    Obtains .primary cursor value after :=
  literal_obtains (newLiteral_makes kind hkind content _) hcurrent hend htree h hsilent

theorem primaryWith_recognises (hexpression : Recognises .expression expression) :
    Recognises .primary (primaryWith expression count) := by
  have hruns : Runs (0 + 1) (primaryWith expression count) := runs_primaryWith hexpression.runs (Nat.zero_le _)
  refine ⟨hruns.mono (Nat.zero_le _), fun {cursor value after} h hsilent => ?_⟩
  have := hexpression.runs.obeys
  unfold primaryWith at h
  rw [get_bind] at h
  generalize hkind : cursor.currentKind? = kind at h
  split at h
  case h_6 => exact named_obtains hexpression h hsilent
  case h_7 =>
    obtain ⟨opening, hcurrent, hopening⟩ := Option.map_eq_some_iff.1 hkind
    obtain ⟨_, first, hnext, hquiet, h, hsilent⟩ := bind_silent h hsilent
    have hbefore := next_passes hcurrent (by rw [hopening]; decide) hnext hquiet
    obtain ⟨node, second, hnode, hquiet, h, hsilent⟩ := bind_silent h hsilent
    obtain ⟨tokens, tree, hspells, hderives, hlands⟩ := hexpression.obtains hnode hquiet
    rw [get_bind] at h
    obtain ⟨_, _, hexpect, hquiet, h, -⟩ := bind_silent h hsilent
    obtain ⟨rfl, rfl⟩ := pure_eq_ok.1 h
    obtain ⟨closing, hclosing, hbehind⟩ := expect_passes (by decide) hexpect hquiet
    rw [hbehind.kind?_eq, hclosing] at hderives
    exact ⟨opening :: tokens ++ [closing], tree, (hbefore.spells.append hspells).append hbehind.spells,
      .parentheses hopening hderives hclosing, (hbefore.arrives.lands hlands).onward hbehind.arrives⟩
  case h_8 =>
    obtain ⟨_, _, _, -, h, hsilent⟩ := bind_silent h hsilent
    obtain ⟨_, _, hcomplain, hquiet, -, -⟩ := bind_silent h hsilent
    exact absurd hquiet (complain_size hcomplain).not_ge
  -- What is left are the literals.
  all_goals
    obtain ⟨token, hcurrent, hkind⟩ := Option.map_eq_some_iff.1 hkind
    have hend : token.kind ≠ .eof := by rw [hkind]; decide
  case h_5 => exact literalNode_obtains (by decide) hcurrent hend (by rw [literal?, hkind]) h hsilent
  all_goals rw [currentValue_bind hcurrent] at h
  case h_4 => exact literal_obtains (newString_makes _ _) hcurrent hend (by rw [literal?, hkind]) h hsilent
  all_goals exact literalNode_obtains (by decide) hcurrent hend (by rw [literal?, hkind]) h hsilent

end Primaries

/-! ### Signs, powers and sums -/

section Levels

variable {count : Nat} {value : Value}

theorem unaryWith_recognises {primary : Parse Value} (hprimary : Recognises .primary primary) :
    Recognises .unary (unaryWith primary) := by
  refine ⟨runs_unaryWith hprimary.runs, fun {cursor value after} h hsilent => ?_⟩
  have := hprimary.runs.obeys
  unfold unaryWith at h
  rw [check_bind] at h
  split at h
  case isFalse => exact (hprimary.obtains h hsilent).tighter rfl
  case isTrue hat =>
    obtain ⟨operator, hcurrent, hmem⟩ := isAt_iff.1 hat
    rw [currentValue_bind hcurrent] at h
    obtain ⟨_, first, hnext, hquiet, h, hsilent⟩ := bind_silent h hsilent
    have hpasses := next_passes hcurrent (fun heof => by simp [heof] at hmem) hnext hquiet
    obtain ⟨operand, second, hoperand, hquiet, h, -⟩ := bind_silent h hsilent
    obtain ⟨tokens, tree, hspells, hderives, hlands⟩ := hprimary.obtains hoperand hquiet
    have hsigned := (newUnary_makes hlands.shows operator.value _).lands h
    rw [Obtains, hsigned.window]
    exact ⟨operator :: tokens, _, hpasses.spells.append hspells, .sign hmem hderives,
      (hpasses.arrives.trans hlands.toArrives).lands hsigned⟩

theorem exponent_continues {unary : Parse Value} (hunary : Recognises .unary unary) : Continues .factor (exponent unary) := by
  have := hunary.runs.obeys
  have hcontinues : Continues .factor unary := hunary.continues rfl
  refine ⟨inferInstance, fun {cursor value after} h hsilent => ?_⟩
  unfold exponent at h
  rw [check_bind] at h
  split at h
  case isFalse => exact hcontinues.obtains h hsilent
  case isTrue hat =>
    have hlands := (newLiteral_makes .double nofun (.int 2) .null).lands h
    obtain ⟨token, hcurrent, hnewline⟩ := isAt_iff.1 hat
    have hkind : cursor.window.kind? = some .newline := by
      rw [Window.kind?, Cursor.window, hcurrent, Option.map_some, List.mem_singleton.1 hnewline]
    rw [hlands.window, hkind]
    refine ⟨[], _, .done _, hlands, fun {tokens operator left} hoperator hleft => ?_⟩
    have hoperator : operator.kind = .power := List.mem_singleton.1 hoperator
    exact .square hoperator (hoperator ▸ hleft)

theorem additive_recognises (hterm : Recognises .term (term count)) (hadditive : Recognises .additive (additive count)) :
    Recognises .additive (additive (count + 1)) := by
  refine ⟨runs_additive _ 0 (Nat.zero_le _), fun {cursor value after} h hsilent => ?_⟩
  have := hterm.runs.obeys
  have := hadditive.runs.obeys
  rw [additive] at h
  obtain ⟨left, first, hleft, hquiet, h, hsilent⟩ := bind_silent h hsilent
  obtain ⟨tokens, leftTree, hspells, hderives, hlands⟩ := hterm.obtains hleft hquiet
  rw [check_bind] at h
  split at h
  case isFalse =>
    obtain ⟨rfl, rfl⟩ := pure_eq_ok.1 h
    exact ⟨tokens, leftTree, hspells, .tighter rfl hderives, hlands⟩
  case isTrue hat =>
    obtain ⟨operator, hcurrent, hmem⟩ := isAt_iff.1 hat
    rw [currentValue_bind hcurrent] at h
    obtain ⟨_, second, hnext, hquiet, h, hsilent⟩ := bind_silent h hsilent
    have hpasses := next_passes hcurrent (fun heof => by simp [heof] at hmem) hnext hquiet
    rw [hpasses.kind?_eq] at hderives
    obtain ⟨right, third, hright, hquiet, h, -⟩ := bind_silent h hsilent
    obtain ⟨others, rightTree, hothers, hrest, hlands'⟩ := hadditive.obtains hright hquiet
    have hlater := hpasses.arrives.lands hlands'
    have hsum := (joinSum_makes (hlands.shows.retained hlater.retains) hlater.shows operator.value).lands h
    rw [Obtains, hsum.window]
    exact ⟨tokens ++ operator :: others, _, hspells.append (hpasses.spells.append hothers), .sum hmem hderives hrest,
      (hlands.trans hlater.toArrives).lands hsum⟩

/-! ### The levels -/

def rule : Level → Nat → Parse Value
  | .expression => expression
  | .equality => equality
  | .comparison => comparison
  | .additive => additive
  | .term => term
  | .factor => factor
  | .unary => unary
  | .primary => primary

theorem rule_recognises (count : Nat) (level : Level) : Recognises level (rule level count) := by
  induction count generalizing level with
  | zero => cases level <;> exact ⟨runs_zero rfl, fun h => absurd h fail_ne_ok⟩
  | succ count ih =>
      cases level with
      | expression => exact chain_recognises rfl (ih .equality) ((ih .equality).continues rfl)
      | equality => exact chain_recognises rfl (ih .comparison) ((ih .comparison).continues rfl)
      | comparison => exact chain_recognises rfl (ih .additive) ((ih .additive).continues rfl)
      | additive => exact additive_recognises (ih .term) (ih .additive)
      | term => exact chain_recognises rfl (ih .factor) ((ih .factor).continues rfl)
      | factor => exact chain_recognises rfl (ih .unary) (exponent_continues (ih .unary))
      | unary => exact unaryWith_recognises (ih .primary)
      | primary => exact primaryWith_recognises (ih .expression)

end Levels

end Scriptlet.Parse
