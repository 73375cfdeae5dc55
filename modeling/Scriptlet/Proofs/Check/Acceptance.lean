import Scriptlet.Proofs.Check.Enclosing
import Scriptlet.Proofs.Honesty

/-!
Programs that the analysis accepts.

The rule for programs is the only one that handles failures of visits.  A program with a failed visit is
not accepted, because an error is announced for it.  So in an accepted program every visit ends, at
whatever depth, and in a state that is in order.
-/

namespace Scriptlet

namespace Check

/-- A program is read and analysed without any error. -/
structure Accepts (source : String) (tree : Value) (draft : Draft) (final : Analysis) : Prop where
  read : parseSource source {} = .ok tree draft
  analyzed : ∃ table, analyze tree { toDraft := draft } = .ok (some table) final
  unflagged : final.journal.flagged = false

variable {source : String} {tree : Value} {draft : Draft} {final s t u : Analysis} {depth : Nat} {above : List Value}
  {node child : Value}

/-- A program that is read and analysed without any error, with what comes of it. -/
def accepted? (source : String) : Option (Value × Draft × Analysis) :=
  match parseSource source {} with
  | .ok tree draft =>
      match analyze tree { toDraft := draft } with
      | .ok (some _) final => if final.journal.flagged then none else some (tree, draft, final)
      | _ => none
  | _ => none

theorem accepts_of_accepted {run : Value × Draft × Analysis} (h : accepted? source = some run) :
    Accepts source run.1 run.2.1 run.2.2 := by
  unfold accepted? at h
  split at h
  case h_2 => cases h
  case h_1 tree draft hread =>
    split at h
    case h_2 => cases h
    case h_1 table final hanalyzed =>
      split at h
      case isTrue => cases h
      case isFalse hunflagged =>
        cases h
        exact ⟨hread, ⟨table, hanalyzed⟩, by simpa using hunflagged⟩

theorem Accepts.wellLaid (h : Accepts source tree draft final) : draft.graph.WellLaid tree := by
  refine wellLaid_parseSource h.read ?_
  -- what was read with an error is not analysed
  obtain ⟨table, hrun⟩ := h.analyzed
  simp only [analyze, bind_eq_ok, get_eq_ok] at hrun
  obtain ⟨_, _, ⟨rfl, rfl⟩, hrun⟩ := hrun
  split at hrun
  case isTrue =>
    obtain ⟨_, _, -, hnone⟩ := bind_eq_ok.1 hrun
    cases (pure_eq_ok.1 hnone).1
  case isFalse hflagged => simpa using hflagged

/-- An analysis that ends without an error has visited the program, if there is one. -/
theorem analyze_eq_ok {result : Option ScopeTable} (h : analyze tree s = .ok result t) (hflag : t.journal.flagged = false) :
    (tree.isNull ∧ result = none) ∨ result = some t.table ∧ visitWithin visitDepth tree s = .ok () t := by
  simp only [analyze, bind_eq_ok, get_eq_ok] at h
  obtain ⟨_, _, ⟨rfl, rfl⟩, h⟩ := h
  split at h
  case isTrue hflagged =>
    obtain ⟨_, _, hprint, hnone⟩ := bind_eq_ok.1 h
    obtain ⟨-, rfl⟩ := pure_eq_ok.1 hnone
    have := (Obeys.step hprint : honest.step _ _) hflagged
    exact absurd (hflag.symm.trans this) Bool.false_ne_true
  case isFalse =>
    split at h
    case isTrue hnull => exact .inl ⟨hnull, (pure_eq_ok.1 h).1.symm⟩
    case isFalse =>
      obtain ⟨u, s, hvisit, hlast⟩ := bind_eq_ok.1 h
      obtain ⟨table, s', htable, hlast⟩ := bind_eq_ok.1 hlast
      obtain ⟨rfl, rfl⟩ := table_eq_ok.1 htable
      obtain ⟨rfl, rfl⟩ := pure_eq_ok.1 hlast
      rcases handling_eq_ok.1 hvisit with hvisit | ⟨failure, s', -, -, hannounce⟩
      · exact .inr ⟨rfl, hvisit⟩
      · exact absurd (Flags.ok _ _ _ hannounce) (by simp [isFlagged, hflag, Carries.draft])

theorem Accepts.visit (h : Accepts source tree draft final) :
    visitWithin visitDepth tree { toDraft := draft } = .ok () final := by
  obtain ⟨table, hrun⟩ := h.analyzed
  rcases analyze_eq_ok hrun h.unflagged with ⟨-, hnone⟩ | ⟨-, hvisit⟩
  · cases hnone
  · exact hvisit

theorem visitProgram_eq_ok {u : Unit} (h : visitProgram (visitWithin depth) node s = .ok u t)
    (hflag : t.journal.flagged = false) :
    ∃ declared, declareLibrary s = .ok () declared ∧ visitStatements (visitWithin depth) node declared = .ok () t := by
  obtain ⟨_, declared, hdeclared, h⟩ := bind_eq_ok.1 h
  obtain ⟨outcome, later, hattempt, h⟩ := bind_eq_ok.1 h
  rcases attempt_eq_ok.1 hattempt with ⟨_, hvisit, rfl⟩ | ⟨failure, hfailed, -, rfl⟩
  · obtain ⟨-, rfl⟩ := pure_eq_ok.1 h
    exact ⟨declared, hdeclared, hvisit⟩
  · exfalso
    refine Bool.false_ne_true (hflag.symm.trans ?_)
    cases failure with
    | exit =>
        -- who gives up has announced an error
        obtain ⟨-, rfl⟩ := pure_eq_ok.1 h
        exact ((inferInstance : Obeys honest (visitStatements (visitWithin depth) node)).stop hfailed).2 rfl
    | _ => exact Flags.ok _ _ _ h

/-- The visits of a program are those of its statements, once the library is declared. -/
theorem calls_statements {visit : Value → Check Unit} {u : Unit} {declared : Analysis}
    (hdeclared : declareLibrary s = .ok u declared)
    (hcalls : Calls (fun visit => visitNode visit node .program) visit s child t) :
    Calls (fun visit => visitStatements visit node) visit declared child t := by
  rcases bind_eq_error.1 (show visitProgram _ node s = _ from hcalls) with hfailed | ⟨_, u, hdeclared', hrest⟩
  · rw [hdeclared] at hfailed
    cases hfailed
  · cases hdeclared.symm.trans hdeclared'
    rcases bind_eq_error.1 hrest with hfailed | ⟨outcome, later, -, hannounce⟩
    · exact (attempt_eq_error.1 hfailed).1
    · exfalso
      split at hannounce
      · cases hannounce
      · cases hannounce
      · exact (Obeys.stop hannounce : reading.stop _ _ _).1 rfl

/-! ### The site of a program -/

variable {origin : Graph} {root : Nat}

theorem divided_inner (hlaid : origin.WellLaid (.node root)) : origin.Divided 0 0 root where
  low_le := le_refl 0
  le_high := Nat.zero_le root
  left _ _ _ hlt := absurd hlt (Nat.not_lt_zero _)
  right := (hlaid.root root rfl).2.2.1
  parent _ _ _ _ _ := .inr (Nat.zero_le _)

/-- All nodes that were read before the node of the program. -/
def inner (hlaid : origin.WellLaid (.node root)) : Site :=
  .plain hlaid (divided_inner hlaid) (hlaid.root root rfl).1.le

theorem isInner_inner (hlaid : origin.WellLaid (.node root)) : IsInner (inner hlaid) := by
  intro id _ (hlt : id < root) hkind
  cases hlaid.program id (hlt.trans (hlaid.root root rfl).1) hkind
  exact Nat.lt_irrefl _ hlt

theorem tame_start (hlaid : draft.graph.WellLaid (.node root)) : Analysis.Tame (inner hlaid) { toDraft := draft } :=
  ⟨⟨hlaid.derived, trivial⟩, .new, nofun⟩

theorem has_statements (hlaid : origin.WellLaid (.node root)) {statements : Value} (htame : s.Tame (inner hlaid))
    (hget : s.graph.fieldOf? (.node root) .statements = some statements) : (inner hlaid).Has statements := by
  obtain ⟨hroot, hkind, -, hspans⟩ := hlaid.root root rfl
  rw [Graph.fieldOf?_node, htame.holds.derived.kept root _ hroot rfl] at hget
  rw [show (origin.node root).get .statements = statements from Node.get_of_get? hget] at hspans
  exact Site.has_of_spans hspans

/-! ### The visits of a program -/

/-- The statements are visited in a state that is in order, while nothing is expected of returns. -/
theorem reached_statements (hlaid : draft.graph.WellLaid (.node root)) {declared : Analysis}
    (hdeclared : declareLibrary { toDraft := draft } = .ok () declared)
    (hends : visitStatements (visitWithin depth) (.node root) declared = .ok () t)
    (hcalls : Calls (fun visit => visitStatements visit (.node root)) (visitWithin depth) declared child u) :
    Reached (inner hlaid) depth [.node root] child u := by
  have htame : declared.Tame (inner hlaid) := ((Obeys.step hdeclared : (conduct (inner hlaid)).step _ _) (tame_start hlaid)).1
  have hnull : declared.functionType = .null := (Obeys.step hdeclared : waning.step _ _).elim id id
  have hends : visitStatements (permitting (Proper (inner hlaid)) (visitWithin depth)) (.node root) declared = .ok () t := by
    rw [← hends]
    refine @permitting_eq _ _ _ (fun visit => visitStatements visit (.node root)) _ _ _ _ fun u hmark => ?_
    have hconduct := conduct_visitStatements (obeys_permitting (conduct_visitWithin depth)) fun s statements =>
      has_statements hlaid
    exact (hconduct.stop hmark htame).1 rfl
  have hgood : ∀ u, visitStatements (permitting (fun value u => (Proper (inner hlaid) value u ∧
        Ends (visitWithin depth) value u) ∧ u.functionType = .null) (visitWithin depth)) (.node root) declared =
      .error .mark u → u.functionType = .null := by
    intro u hmark
    have hvisit := @waning_reached (inner hlaid) depth (isInner_inner hlaid) fun u => u.functionType = .null
    have hstop : waning.stop _ declared u := Obeys.stop hmark
    exact hstop.elim (fun hkept => hkept.trans hnull) id
  obtain ⟨hproper, hvisit, hexpected⟩ := @Calls.holds _ _ _ (fun visit => visitStatements visit (.node root)) _ _ _ _ _ _ _ _ _ _
    hends hgood hcalls
  exact ⟨hproper, hvisit, .inr hexpected⟩

/-- In an accepted program every visit below the program itself ends, in a state that is in order. -/
theorem Accepts.reached (h : Accepts source (.node root) draft final)
    (hvisits : Visits visitNode visitWithin visitDepth (.node root) { toDraft := draft } depth above node s) :
    (depth = visitDepth ∧ above = [] ∧ node = .node root ∧ s = { toDraft := draft }) ∨
      Reached (inner h.wellLaid) depth above node s := by
  induction hvisits with
  | root => exact .inl ⟨rfl, rfl, rfl, rfl⟩
  | inside hvisits hkind hcalls ih =>
      refine .inr ?_
      rcases ih with ⟨hdepth, rfl, rfl, rfl⟩ | hreached
      · have hprogram : draft.graph.kindOf? (.node root) = some .program := congrArg some (h.wellLaid.root root rfl).2.1
        cases hprogram.symm.trans hkind
        have hvisit := h.visit
        rw [← hdepth] at hvisit
        obtain ⟨_, hkind', hvisit⟩ := visitWithin_eq_ok.1 hvisit
        cases hkind.symm.trans hkind'
        obtain ⟨declared, hdeclared, hends⟩ := visitProgram_eq_ok hvisit h.unflagged
        exact reached_statements h.wellLaid hdeclared hends (calls_statements hdeclared hcalls)
      · exact hreached.below (isInner_inner h.wellLaid) hkind hcalls

/-- The first statement of an accepted program is visited, once the library is declared. -/
theorem Accepts.visits_first (h : Accepts source (.node root) draft final) {first : Value} {rest : List Value}
    (hstatements : draft.graph.fieldOf? (.node root) .statements = some (.list (first :: rest)))
    (hnull : first.isNull = false) :
    ∃ s, s.Tame (inner h.wellLaid) ∧
      Visits visitNode visitWithin visitDepth (.node root) { toDraft := draft } 599 [.node root] first s := by
  have hprogram : draft.graph.kindOf? (.node root) = some .program := congrArg some (h.wellLaid.root root rfl).2.1
  obtain ⟨_, hkind, hvisit⟩ := visitWithin_eq_ok.1 (show visitWithin (599 + 1) _ _ = _ from h.visit)
  cases hprogram.symm.trans hkind
  obtain ⟨declared, hdeclared, -⟩ := visitProgram_eq_ok hvisit h.unflagged
  have htame : declared.Tame (inner h.wellLaid) :=
    ((Obeys.step hdeclared : (conduct (inner h.wellLaid)).step _ _) (tame_start h.wellLaid)).1
  refine ⟨declared, htame, .inside (.root : Visits _ _ (599 + 1) _ _ _ _ _ _) hprogram ?_⟩
  refine bind_eq_error.2 (.inr ⟨_, _, hdeclared, bind_eq_error.2 (.inl (attempt_eq_error.2 ⟨?_, rfl⟩))⟩)
  have hkept : declared.graph.fieldOf? (.node root) .statements = some (.list (first :: rest)) :=
    (htame.holds.derived.kept root .statements (h.wellLaid.root root rfl).1 rfl).trans hstatements
  refine bind_eq_error.2 (.inr ⟨_, _, lift_getField_eq_ok.2 ⟨hkept, rfl⟩, ?_⟩)
  refine bind_eq_error.2 (.inr ⟨_, _, lift_itemsOf_list_eq_ok.2 ⟨rfl, rfl⟩, ?_⟩)
  rw [List.forIn_cons, hnull]
  refine bind_eq_error.2 (.inl (bind_eq_error.2 (.inl (bind_eq_error.2 (.inl ?_)))))
  exact permitting_of_not (by simp)

end Check

end Scriptlet
