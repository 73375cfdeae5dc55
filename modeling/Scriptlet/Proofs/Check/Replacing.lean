import Scriptlet.Proofs.Check.Upkeep

/-!
Replacements: a concatenation takes the place of an operation in its parent.  A call is never found in its
parent: to be the same as another one, its parent would have to be the same as another one first, and
that one holds the call.
-/

set_option synthInstance.maxSize 1000000

namespace Scriptlet

namespace Graph

variable {graph : Graph}
variable {depth : Nat} {b : NodeId}

theorem allM_eq_ok_true {α : Type} {items : List α} {test : α → Except Failure Bool} :
    items.allM test = .ok true ↔ ∀ item ∈ items, test item = .ok true := by
  induction items with
  | nil => simp [pure, Except.pure]
  | cons item rest ih =>
      rw [List.allM_cons, List.forall_mem_cons, ← ih]
      cases hitem : test item with
      | error failure => simp [bind, Except.bind]
      | ok holds => cases holds <;> simp [bind, Except.bind, pure, Except.pure]

/-- Nodes that are the same are of kinds that can be compared, and the same in all that matters. -/
theorem sameNodes_eq_true {a : NodeId} (h : graph.sameNodes (depth + 1) a b = .ok true) :
    (graph.node a).kind = .plain ∧ a = b ∨
      comparable (graph.node a).kind (graph.node b).kind ∧ ∀ field ∈ significant (graph.node a).kind,
        ∃ x y, (graph.node a).get? field = some x ∧ (graph.node b).get? field = some y ∧
          graph.sameWithin depth x y = .ok true := by
  unfold sameNodes at h
  dsimp only at h
  split at h
  case isTrue hplain =>
    split at h
    · cases h
    · exact .inl ⟨hplain, by simpa using h⟩
  case isFalse =>
    split at h
    · split at h <;> cases h
    · split at h
      case isFalse => cases h
      case isTrue hcomparable =>
        refine .inr ⟨hcomparable, fun field hfield => ?_⟩
        have htest := allM_eq_ok_true.1 h field hfield
        split at htest
        case h_1 x y hx hy => exact ⟨x, y, hx, hy, htest⟩
        all_goals cases htest

theorem sameWithin_node {value : Value} (h : graph.sameWithin depth value (.node b) = .ok true) :
    ∃ a rest, value = .node a ∧ depth = rest + 1 ∧ graph.sameNodes rest a b = .ok true := by
  cases depth with
  | zero => cases h
  | succ rest =>
      cases value with
      | node a => exact ⟨a, rest, rfl, rfl, h⟩
      | _ =>
          simp only [sameWithin, sameWithin.sameAsOther] at h
          split at h <;> cases h

theorem kind_ne_call_of_same {a : NodeId} (hb : (graph.node b).kind ≠ .call)
    (h : graph.same (.node a) (.node b) = .ok true) : (graph.node a).kind ≠ .call := by
  intro ha
  obtain ⟨_, rest, ⟨⟩, -, hnodes⟩ := sameWithin_node h
  cases rest with
  | zero => cases hnodes
  | succ depth =>
      rcases sameNodes_eq_true hnodes with ⟨hplain, -⟩ | ⟨hcomparable, -⟩
      · rw [ha] at hplain
        cases hplain
      · rw [comparable, ha] at hcomparable
        exact hb (eq_of_beq (show (Kind.call == (graph.node b).kind) = true from hcomparable)).symm

/-- A node of a kind that is no literal is the same only as nodes of its kind. -/
theorem kind_eq_of_comparable {left right : Kind} (h : comparable left right) (hright : ¬ right.isLiteral) : left = right := by
  unfold comparable at h
  split at h
  · exact absurd h hright
  · simpa using h

theorem get?_eq_some_of_get {node : Node} {field : Field} {id : NodeId} (h : node.get field = .node id) :
    node.get? field = some (.node id) := by
  unfold Node.get at h
  cases hget : node.get? field with
  | none =>
      rw [hget] at h
      cases h
  | some value =>
      rw [hget] at h
      exact congrArg some h

/-- What encloses a call is the same as another node only if the call is. -/
theorem Encloses.not_same {parent call q : NodeId} (h : graph.Encloses parent call)
    (hcall : ∀ value, graph.sameWithin depth value (.node call) ≠ .ok true) :
    graph.sameNodes (depth + 1) q parent ≠ .ok true := by
  intro hsame
  unfold Encloses at h
  rcases sameNodes_eq_true hsame with ⟨hplain, rfl⟩ | ⟨hcomparable, hfields⟩
  · rw [hplain] at h
    exact h
  · have hheld : ∀ field ∈ significant (graph.node q).kind, (graph.node parent).get field ≠ .node call := by
      intro field hfield hget
      obtain ⟨x, y, -, hy, hvalue⟩ := hfields field hfield
      rw [get?_eq_some_of_get hget] at hy
      cases hy
      exact hcall x hvalue
    have hsameKind := fun hliteral => kind_eq_of_comparable hcomparable hliteral
    split at h
    case h_1 hkind =>
      rw [hkind] at hsameKind
      rw [hsameKind (by decide)] at hfields
      obtain ⟨_, _, -, htype, -⟩ := hfields .type (by decide)
      rw [h] at htype
      cases htype
    case h_2 hkind =>
      rw [hkind] at hsameKind
      rw [hsameKind (by decide)] at hheld
      exact h.elim (hheld .left (by decide)) (hheld .right (by decide))
    case h_3 hkind =>
      rw [hkind] at hsameKind
      rw [hsameKind (by decide)] at hheld
      exact h.elim (hheld .left (by decide)) (hheld .right (by decide))
    case h_4 hkind =>
      rw [hkind] at hsameKind
      rw [hsameKind (by decide)] at hheld
      exact hheld .value (by decide) h
    case h_5 => exact h

/-- No node is the same as a call whose parent encloses it. -/
theorem not_same_call {call parent : NodeId} (hkind : (graph.node call).kind = .call)
    (hparent : (graph.node call).get? .parent = some (.node parent)) (hencloses : graph.Encloses parent call) (depth : Nat) :
    ∀ value, graph.sameWithin depth value (.node call) ≠ .ok true := by
  -- Two calls are compared by their parents in the end, and those by the calls again.
  induction depth using Nat.strongRecOn with
  | _ depth ih =>
      intro value h
      obtain ⟨a, _ | rest, rfl, rfl, hnodes⟩ := sameWithin_node h
      · cases hnodes
      rcases sameNodes_eq_true hnodes with ⟨hplain, rfl⟩ | ⟨hcomparable, hfields⟩
      · rw [hkind] at hplain
        cases hplain
      rw [hkind] at hcomparable
      rw [kind_eq_of_comparable hcomparable (by decide)] at hfields
      obtain ⟨x, y, -, hy, hsame⟩ := hfields .parent (by decide)
      rw [hparent] at hy
      cases hy
      obtain ⟨q, _ | deeper, rfl, rfl, hparents⟩ := sameWithin_node hsame
      · cases hparents
      exact hencloses.not_same (ih deeper (by omega)) hparents

namespace Derived

variable {origin : Graph} {root : Value}

theorem encloses (h : origin.Derived graph) {parent call : Nat} (hid : parent < origin.nodes.size)
    (hkind : (origin.node call).kind = .call) (hencloses : origin.Encloses parent call) : graph.Encloses parent call := by
  have hheld : ∀ field ∈ [Field.value, .left, .right], (origin.node parent).kind ≠ .reference →
      (origin.node parent).get field = .node call → (graph.node parent).get field = .node call := by
    intro field hfield hne hget
    have hoperand : (origin.node parent).kind.hasOperand field := Kind.hasOperand_of_ne
      ((by decide : ∀ field ∈ [Field.value, .left, .right], field ∈ Draft.operandFields) field hfield) (.inl hne)
    exact ((h.operand parent field hid hoperand).call call hget hkind).trans hget
  unfold Encloses at hencloses ⊢
  rw [h.kind parent hid]
  split at hencloses
  case h_1 hparent =>
    rw [h.kept parent .type hid (by rw [hparent]; decide)]
    exact hencloses
  case h_2 hparent => exact hencloses.imp (hheld _ (by decide) (by simp [hparent])) (hheld _ (by decide) (by simp [hparent]))
  case h_3 hparent => exact hencloses.imp (hheld _ (by decide) (by simp [hparent])) (hheld _ (by decide) (by simp [hparent]))
  case h_4 hparent => exact hheld _ (by decide) (by simp [hparent]) hencloses
  case h_5 => exact hencloses

/-- In a derived graph, a call that knows its parent is the same as no other value. -/
theorem not_same (h : origin.Derived graph) (hlaid : origin.WellLaid root) {call parent : Nat}
    (hid : call < origin.nodes.size) (hkind : (origin.node call).kind = .call)
    (hparent : (origin.node call).get .parent = .node parent) (value : Value) :
    graph.same value (.node call) ≠ .ok true := by
  obtain ⟨arguments, hcall⟩ := (hlaid.laid call hid (by simp [hkind])).call hkind
  obtain ⟨-, hlt, hencloses⟩ := hcall.parent parent hparent
  refine not_same_call ((h.kind call hid).trans hkind) ?_ (h.encloses hlt hkind hencloses) walkDepth value
  rw [h.kept call .parent hid (by rw [hkind]; decide)]
  exact get?_eq_some_of_get hparent

end Derived

end Graph

namespace Draft

variable {α : Type} {site : Site}
variable {draft later : Draft} {new : Nat}

theorem lift_except_eq_ok {x : Except Failure α} {a : α} :
    (liftM x : Action α) draft = .ok a later ↔ x = .ok a ∧ draft = later := by
  cases x with
  | ok b => exact pure_eq_ok.trans (by simp)
  | error failure => exact ⟨nofun, nofun⟩

theorem same_eq_ok {left right : Value} {holds : Bool} :
    same left right draft = .ok holds later ↔ draft.graph.same left right = .ok holds ∧ draft = later := by
  unfold same
  simp only [bind_eq_ok, currentGraph_eq_ok]
  constructor
  · rintro ⟨_, _, ⟨rfl, rfl⟩, hlift⟩
    exact lift_except_eq_ok.1 hlift
  · rintro ⟨hsame, rfl⟩
    exact ⟨_, _, ⟨rfl, rfl⟩, lift_except_eq_ok.2 ⟨hsame, rfl⟩⟩

/-! ### Calls -/

section Calls

variable {call parent : Nat} (hid : call < site.origin.nodes.size) (hkind : (site.origin.node call).kind = .call)
  (hparent : (site.origin.node call).get .parent = .node parent)

include hid hkind hparent

theorem conduct_same_bind {value : Value} {f : Bool → Action α} (hf : Obeys (conduct site) (f false)) :
    Obeys (conduct site) (same value (.node call) >>= f) := by
  refine ⟨fun draft => conduct.assume fun hholds => ?_⟩
  refine Rule.Allows.bind ((inferInstance : Obeys (conduct site) (same value (.node call))).allows draft) ?_
  intro found later hsame
  cases found with
  | false => exact hf.allows later
  | true => exact absurd (same_eq_ok.1 hsame).1 (hholds.derived.not_same site.wellLaid hid hkind hparent value)

mutual

theorem conduct_replaceBelow (new : Value) : ∀ depth owner field value,
    Obeys (conduct site) (replaceBelow (.node call) new depth owner field value)
  | 0, _, _, _ => inferInstanceAs (Obeys (conduct site) (fail .tooDeep))
  | depth + 1, owner, field, value => by
      have hoperands := conduct_replaceInOperands new depth
      have hitems := conduct_replaceInItems new depth
      have hentries := conduct_replaceInEntries new depth
      unfold replaceBelow
      split
      · infer_instance
      · infer_instance
      · infer_instance
      · exact conduct_same_bind hid hkind hparent (hoperands _ _)

theorem conduct_replaceInOperands (new : Value) : ∀ depth value fields,
    Obeys (conduct site) (replaceInOperands (.node call) new depth value fields)
  | 0, _, _ => inferInstanceAs (Obeys (conduct site) (fail .tooDeep))
  | _ + 1, _, [] => inferInstanceAs (Obeys (conduct site) (pure false))
  | depth + 1, value, field :: rest => by
      have hbelow := conduct_replaceBelow new depth
      have hoperands := conduct_replaceInOperands new depth
      unfold replaceInOperands
      infer_instance

theorem conduct_replaceInItems (new : Value) : ∀ depth owner field make before items,
    Obeys (conduct site) (replaceInItems (.node call) new depth owner field make before items)
  | 0, _, _, _, _, _ => inferInstanceAs (Obeys (conduct site) (fail .tooDeep))
  | _ + 1, _, _, _, _, [] => inferInstanceAs (Obeys (conduct site) (pure false))
  | depth + 1, owner, field, make, before, item :: rest => by
      have hoperands := conduct_replaceInOperands new depth
      have hitems := conduct_replaceInItems new depth
      unfold replaceInItems
      refine conduct_same_bind hid hkind hparent ?_
      exact inferInstanceAs (Obeys (conduct site) (_ >>= _))

theorem conduct_replaceInEntries (new : Value) : ∀ depth owner field before entries,
    Obeys (conduct site) (replaceInEntries (.node call) new depth owner field before entries)
  | 0, _, _, _, _ => inferInstanceAs (Obeys (conduct site) (fail .tooDeep))
  | _ + 1, _, _, _, [] => inferInstanceAs (Obeys (conduct site) (pure false))
  | depth + 1, owner, field, before, (key, item) :: rest => by
      have hoperands := conduct_replaceInOperands new depth
      have hentries := conduct_replaceInEntries new depth
      unfold replaceInEntries
      refine conduct_same_bind hid hkind hparent ?_
      exact inferInstanceAs (Obeys (conduct site) (_ >>= _))

end

end Calls

theorem conduct_replaceCall {call : Nat} (hid : call < site.origin.nodes.size)
    (hkind : (site.origin.node call).kind = .call) (hnew : site.origin.nodes.size ≤ new) :
    Obeys (conduct site) (replaceCall (.node call) (.node new)) := by
  refine conduct.getField_bind fun draft parent hholds hget => ?_
  have hparent : (site.origin.node call).get .parent = parent := by
    rw [← hholds.derived.get_of_keeps hid (by rw [hkind]; decide)]
    exact Node.get_of_get? hget
  have hlate : Obeys (conduct site) (setField (.node new) .parent parent) := conduct_setLate hnew (by decide)
  have hmark : Obeys (conduct site) (setField (.node call) .transformed (.bool true)) := conduct_mark _ (by decide)
  split
  · split
    case h_1 id =>
      have hbelow := conduct_replaceBelow hid hkind hparent (.node new)
      refine .bind inferInstance fun graph => .bind (.forIn fun item _ => ?_) fun outcome => ?_
      · obtain ⟨field, value⟩ := item
        infer_instance
      · dsimp only
        split <;> infer_instance
    · infer_instance
  · infer_instance

/-! ### Operations -/

theorem replaceItem_go {new : Value} {isOld : Value → Except Failure Bool} :
    ∀ {items replaced : List Value}, replaceItem.go new isOld items = .ok (some replaced) →
      ∀ item ∈ replaced, item ∈ items ∨ item = new
  | [], _, h => by cases h
  | first :: rest, replaced, h => by
      unfold replaceItem.go at h
      cases hfirst : isOld first with
      | error failure =>
          rw [hfirst] at h
          cases h
      | ok holds =>
          rw [hfirst] at h
          cases holds with
          | true =>
              cases h
              intro item hitem
              rcases List.mem_cons.1 hitem with rfl | hrest
              · exact .inr rfl
              · exact .inl (List.mem_cons_of_mem _ hrest)
          | false =>
              cases hrest : replaceItem.go new isOld rest with
              | error failure =>
                  simp [bind, Except.bind, hrest] at h
              | ok found =>
                  simp only [bind, Except.bind, hrest, Bool.false_eq_true, if_false, pure, Except.pure, Except.ok.injEq,
                    Option.map_eq_some_iff] at h
                  obtain ⟨replaced, rfl, rfl⟩ := h
                  intro item hitem
                  rcases List.mem_cons.1 hitem with rfl | hitem
                  · exact .inl List.mem_cons_self
                  · exact (replaceItem_go hrest item hitem).imp_left (List.mem_cons_of_mem _)

theorem replaceItem_eq_ok {old new : Value} {items replaced : List Value}
    (h : replaceItem old new items draft = .ok (some replaced) later) :
    later = draft ∧ ∀ item ∈ replaced, item ∈ items ∨ item = new := by
  unfold replaceItem at h
  obtain ⟨graph, middle, hcurrent, hlift⟩ := bind_eq_ok.1 h
  obtain ⟨rfl, rfl⟩ := currentGraph_eq_ok.1 hcurrent
  obtain ⟨hgo, rfl⟩ := lift_except_eq_ok.1 hlift
  exact ⟨rfl, replaceItem_go hgo⟩

section Operations

variable {operation new parent : Nat} {field : Field} (hnew : site.origin.nodes.size ≤ new)

include hnew

/-- A new node takes the place of an operand that is no call. -/
theorem allows_substitute {draft : Draft} {content : Value} (hsubstitute : (draft.graph.node new).kind.isSubstitute)
    (hid : parent < site.origin.nodes.size) (hout : parent < site.low ∨ site.middle ≤ parent)
    (hfield : field ∈ operandFields) (hcontent : (draft.graph.node parent).get? field = some content) (hnull : content ≠ .null)
    (hcall : ∀ id, content = .node id → (draft.graph.node id).kind ≠ .call) :
    (conduct site).Allows draft (setField (.node parent) field (.node new) draft) := by
  have hvisible : site.origin.Visible draft.graph (.node new) := by
    rintro id ⟨⟩
    exact .inr hsubstitute
  refine conduct.assume fun hholds => allows_setField hid hout
    (hholds.derived.not_keeps_of_operand site.wellLaid hid hfield hcontent) (fun hholds hoperand => ?_)
    (fun _ _ _ => hvisible)
  have hold := hholds.derived.operand parent field hid hoperand
  rw [Node.get_of_get? hcontent] at hold
  refine ⟨iff_of_false (fun heq => hnull (hold.null.1 heq)) nofun,
    fun child hchild => .inr (Value.mentions_node.1 hchild ▸ hnew), hvisible, fun id hget hkind => ?_⟩
  have hlt := site.wellLaid.lt_of_operand hid hfield hget
  have hsame : content = .node id := (hold.call id hget hkind).trans hget
  exact absurd ((hholds.derived.kind id hlt).trans hkind) (hcall id hsame)

/-- A new node takes the place of items of a collection of operands. -/
theorem allows_substituteItems {draft : Draft} {items replaced : List Value} {make : List Value → Value}
    (hmake : make = .list ∨ make = .tuple) (hid : parent < site.origin.nodes.size)
    (hout : parent < site.low ∨ site.middle ≤ parent) (hfield : field ∈ operandFields)
    (hcontent : (draft.graph.node parent).get? field = some (make items))
    (hreplaced : ∀ item ∈ replaced, item ∈ items ∨ item = .node new) :
    (conduct site).Allows draft (setField (.node parent) field (make replaced) draft) := by
  have hmentions : ∀ child : Nat, (make replaced).Mentions child → (make items).Mentions child ∨ child = new := by
    intro child hchild
    rcases hmake with rfl | rfl
    · obtain ⟨item, hitem, hmention⟩ := Value.mentions_list.1 hchild
      rcases hreplaced item hitem with hold | rfl
      · exact .inl (.list hold hmention)
      · exact .inr (Value.mentions_node.1 hmention).symm
    · obtain ⟨item, hitem, hmention⟩ := Value.mentions_tuple.1 hchild
      rcases hreplaced item hitem with hold | rfl
      · exact .inl (.tuple hold hmention)
      · exact .inr (Value.mentions_node.1 hmention).symm
  have hvisible : site.origin.Visible draft.graph (make replaced) := by
    rcases hmake with rfl | rfl <;> exact nofun
  refine conduct.assume fun hholds => allows_setField hid hout
    (hholds.derived.not_keeps_of_operand site.wellLaid hid hfield hcontent) (fun hholds hoperand => ?_)
    (fun _ _ _ => hvisible)
  have hold := hholds.derived.operand parent field hid hoperand
  rw [Node.get_of_get? hcontent] at hold
  refine ⟨?_, fun child hchild => ?_, hvisible, fun id hget hkind => ?_⟩
  · rw [hold.null]
    rcases hmake with rfl | rfl <;> exact iff_of_false nofun nofun
  · rcases hmentions child hchild with hitem | rfl
    · exact hold.mentions child hitem
    · exact .inr hnew
  · have hsame := (hold.call id hget hkind).trans hget
    rcases hmake with rfl | rfl <;> cases hsame

variable (hgiven : ∀ graph, site.Holds graph → (graph.node new).kind.isSubstitute)

include hgiven

theorem conduct_replaceOperand (hoperation : operation < site.origin.nodes.size)
    (hkind : (site.origin.node operation).kind ≠ .call) (hid : parent < site.origin.nodes.size)
    (hout : parent < site.low ∨ site.middle ≤ parent) (hfield : field ∈ operandFields) :
    Obeys (conduct site) (replaceOperand (.node operation) (.node new) (.node parent) field) := by
  refine ⟨fun draft => conduct.assume fun hholds => ?_⟩
  refine Rule.Allows.bind ((inferInstance : Obeys (conduct site) (getField _ _)).allows draft) fun value later hread => ?_
  obtain ⟨hcontent, rfl⟩ := getField_eq_ok.1 hread
  refine Rule.Allows.bind ((inferInstance : Obeys (conduct site) (same _ _)).allows draft) fun found later hcompare => ?_
  obtain ⟨hsame, rfl⟩ := same_eq_ok.1 hcompare
  have hitems : ∀ items, Obeys (conduct site) (replaceItem (.node operation) (.node new) items) := inferInstance
  split
  case isTrue hfound =>
    refine allows_substitute hnew (hgiven _ hholds) hid hout hfield hcontent ?_ ?_
    · rintro rfl
      obtain ⟨_, _, hnode, -⟩ := Graph.sameWithin_node (hfound ▸ hsame)
      cases hnode
    rintro id rfl
    refine Graph.kind_ne_call_of_same ?_ (hfound ▸ hsame)
    rwa [hholds.derived.kind operation hoperation]
  case isFalse =>
    split
    · refine Rule.Allows.bind ((hitems _).allows draft) fun outcome later hreplaced => ?_
      split
      case h_1 replaced =>
        obtain ⟨rfl, hmem⟩ := replaceItem_eq_ok hreplaced
        exact allows_substituteItems hnew (.inl rfl) hid hout hfield hcontent hmem
      case h_2 => exact (inferInstance : Obeys (conduct site) (pure PUnit.unit)).allows later
    · refine Rule.Allows.bind ((hitems _).allows draft) fun outcome later hreplaced => ?_
      split
      case h_1 replaced =>
        obtain ⟨rfl, hmem⟩ := replaceItem_eq_ok hreplaced
        exact allows_substituteItems hnew (.inr rfl) hid hout hfield hcontent hmem
      case h_2 => exact (inferInstance : Obeys (conduct site) (pure PUnit.unit)).allows later
    · exact (inferInstance : Obeys (conduct site) (pure PUnit.unit)).allows draft

theorem conduct_replaceOperation (hoperation : site.Owns operation) (hkind : (site.origin.node operation).kind = .binary) :
    Obeys (conduct site) (replaceOperation (.node operation) (.node new)) := by
  refine conduct.getField_bind fun draft parent hholds hget => ?_
  have hparent : (site.origin.node operation).get .parent = parent := by
    rw [← hholds.derived.get_of_keeps hoperation.lt_size (by rw [hkind]; decide)]
    exact Node.get_of_get? hget
  have hlate : Obeys (conduct site) (setField (.node new) .parent parent) := conduct_setLate hnew (by decide)
  have hmark : Obeys (conduct site) (setField (.node operation) .transformed (.bool true)) := conduct_mark _ (by decide)
  split
  case isFalse => infer_instance
  case isTrue =>
    refine .bind (.forIn_mem fun field hfield _ => ?_) fun _ => inferInstance
    -- A value that is no node has no attributes in which the operation could be found.
    have hoperand : Obeys (conduct site) (replaceOperand (.node operation) (.node new) parent field) := by
      cases parent with
      | node id =>
          obtain ⟨hid, hout⟩ := Site.parent_outside hoperation hparent
          exact conduct_replaceOperand hnew hgiven hoperation.lt_size (by simp [hkind]) hid hout hfield
      | _ =>
          refine conduct.getField_bind fun draft found _ hfound => ?_
          cases hfound
    infer_instance

end Operations

/-- A concatenation takes the place of an operation at the site. -/
theorem allows_replace {operation : Nat} (hoperation : site.Owns operation)
    (hkind : (site.origin.node operation).kind = .binary) (hnew : site.origin.nodes.size ≤ new)
    (hsubstitute : (draft.graph.node new).kind.isSubstitute) :
    (conduct site).Allows draft (replace (.node operation) (.node new) draft) := by
  have hlasts : site.Lasts fun graph => (graph.node new).kind.isSubstitute := by
    intro graph changed hspares hkind
    rwa [hspares.kind new (Graph.Derived.lt_size_of_isSubstitute hkind)]
  have hreplaced : Obeys (conduct (site.when _ hlasts)) (replaceOperation (.node operation) (.node new)) :=
    conduct_replaceOperation hnew (fun _ hwork => hwork.given.2) hoperation hkind
  have hreplace : Obeys (conduct (site.when _ hlasts)) (replace (.node operation) (.node new)) := by
    refine @conduct.isKind_bind _ (site.when _ hlasts) _ _ hoperation.lt_size _ ?_
    rwa [show (site.when _ hlasts).origin = site.origin from rfl, hkind]
  exact conduct.of_when hlasts hsubstitute (hreplace.allows draft)

/-- A call stays where it is when it is to be replaced. -/
theorem conduct_replace {call : Nat} (hid : call < site.origin.nodes.size)
    (hkind : (site.origin.node call).kind = .call) (hnew : site.origin.nodes.size ≤ new) :
    Obeys (conduct site) (replace (.node call) (.node new)) := by
  have hcall := conduct_replaceCall hid hkind hnew
  refine conduct.isKind_bind hid ?_
  rw [hkind]
  refine conduct.isKind_bind hid ?_
  rwa [hkind]

end Draft

end Scriptlet
