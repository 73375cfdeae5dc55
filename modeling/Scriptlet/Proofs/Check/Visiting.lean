import Scriptlet.Proofs.Check.Statements

/-!
The work of the analysis on calls and on whole programs, and so on every node that it visits.
-/

set_option synthInstance.maxSize 1000000

namespace Scriptlet

theorem Draft.mapM_newParameter : ∀ (types : List String) (draft later : Draft) (found : List Value),
    types.mapM (fun type => newParameter (.text "") (.text type)) draft = .ok found later →
      draft.graph.nodes.size ≤ later.graph.nodes.size ∧
      (∀ id : Nat, id < draft.graph.nodes.size → later.graph.node id = draft.graph.node id) ∧
      ∃ ids : List Nat, found = ids.map .node ∧ ids.length = types.length ∧
        ∀ id ∈ ids, id < later.graph.nodes.size ∧ (later.graph.node id).kind = .parameter
  | [], draft, later, found, h => by
      rw [List.mapM_nil] at h
      obtain ⟨rfl, rfl⟩ := pure_eq_ok.1 h
      exact ⟨le_refl _, fun _ _ => rfl, [], rfl, rfl, nofun⟩
  | type :: types, draft, later, found, h => by
      simp only [List.mapM_cons, bind_eq_ok, pure_eq_ok, newParameter, addNode_eq_ok] at h
      obtain ⟨_, _, ⟨rfl, rfl⟩, rest, _, hrest, rfl, rfl⟩ := h
      obtain ⟨hle, hold, ids, rfl, hlength, hids⟩ := mapM_newParameter types _ _ _ hrest
      have hsize : ∀ node, (draft.graph.add node).2.nodes.size = draft.graph.nodes.size + 1 := fun _ => Array.size_push _
      rw [hsize] at hle
      simp only [hsize] at hold
      refine ⟨by omega, fun id hid => ?_, draft.graph.nodes.size :: ids, rfl, by simp [hlength], ?_⟩
      · rw [hold id (by omega), Graph.node_add, if_neg (Nat.ne_of_lt hid)]
      · intro id hid
        rcases List.mem_cons.1 hid with rfl | hrest
        · refine ⟨by omega, ?_⟩
          rw [hold _ (by omega), Graph.node_add, if_pos rfl]
        · exact hids id hrest

namespace Check

variable {α : Type} {site : Site} {s t : Analysis} {id : Nat} {value : Value} {field : Field}

theorem conduct.list_bind {items : List Value} {f : List Value → Check α} (hf : Obeys (conduct site) (f items)) :
    Obeys (conduct site) (liftM (Draft.itemsOf (.list items)) >>= f) := by
  refine ⟨fun s => Rule.Allows.bind (Obeys.allows s) fun found t hrun => ?_⟩
  obtain ⟨rfl, rfl⟩ := lift_itemsOf_list_eq_ok.1 hrun
  exact hf.allows s

/-! ### Calls -/

/-- The name of a type is made for a call, which stays where it is. -/
theorem conduct_replaceByName (hid : site.Owns id) (hkind : (site.origin.node id).kind = .call)
    (type : Value) :
    Obeys (conduct site) (do liftM (Draft.replace (.node id) (← liftM (Draft.newString type (.bool true)))) : Check Unit) := by
  refine ⟨fun s => conduct.assume fun htame => Rule.Allows.bind (Obeys.allows s) fun name t hrun => ?_⟩
  obtain ⟨rfl, -⟩ := Makes.of_addNode hrun
  have := Draft.conduct_replace hid.lt_size hkind htame.holds.derived.size_le
  exact Obeys.allows t

theorem argument_mem {arguments : List Nat} {argument : Nat} (hid : site.Owns id)
    (hkind : (site.origin.node id).kind = .call)
    (hcall : site.origin.CallLaid 0 site.origin.nodes.size id arguments) (hargument : argument ∈ arguments) :
    site.Owns argument := by
  refine site.divided.right id argument hid.1 hid.2 ⟨.args, by rw [hkind]; decide, ?_⟩
  rw [Node.get_of_get? hcall.args]
  exact .list (List.mem_map_of_mem hargument) .node

theorem conduct_promoteArgument (hid : site.Owns id) :
    Obeys (conduct site) (promoteArgument (.node id)) := by
  have hclear := conduct_clearCache hid .null
  have hdouble := conduct_clearCache hid (.text TypeName.double)
  refine conduct.getField_bind fun s value htame hget => ?_
  refine Rule.Allows.bind (Obeys.allows s) fun isInteger t hrun => ?_
  obtain ⟨-, rfl⟩ := lift_isKind_eq_ok.1 hrun
  split
  · exact allows_promote hid (by decide) hget fun promotion t hset => hset.bind fun _ u _ => hclear.allows u
  · refine Rule.Allows.bind (Obeys.allows _) fun isReference t hrun => ?_
    obtain ⟨-, rfl⟩ := lift_isKind_eq_ok.1 hrun
    split
    · exact allows_promote hid (by decide) hget fun promotion t hset => hset.bind fun _ u _ => hdouble.allows u
    · exact Obeys.allows _

/-! ### The library -/

instance (signature : Signature) : Obeys (Draft.conduct site) signature.newParameters := by
  unfold Signature.newParameters
  infer_instance

instance : Obeys (conduct site) declareLibrary := by
  refine .bind (.forIn fun signature _ => ⟨fun s => ?_⟩) inferInstance
  refine Rule.Allows.bind (Obeys.allows s) fun parameters t hrun => ?_
  refine Rule.Allows.bind (allows_changeTable fun table htame hadd => ?_) fun _ u _ => Obeys.allows u
  obtain ⟨draft, hnew, rfl⟩ := lift_eq_ok.1 hrun
  obtain ⟨found, later, hmap, hpure⟩ := bind_eq_ok.1 hnew
  obtain ⟨rfl, rfl⟩ := pure_eq_ok.1 hpure
  obtain ⟨-, -, ids, rfl, hlength, hids⟩ := Draft.mapM_newParameter _ _ _ _ hmap
  obtain ⟨-, rfl⟩ := ScopeTable.addGlobalFunction_eq_ok.1 hadd
  refine htame.symbols.addTo (.of_null rfl (.inr ⟨ids, .text signature.returnType, ?_, hids⟩)) 0
  rw [functionRecord, hlength]
  rfl

section Visiting

variable {visit : Value → Check Unit} (hvisit : ∀ value, site.Has value → Obeys (conduct site) (visit value))

include hvisit

theorem conduct_checkArguments (call : Value) : ∀ (arguments : List Nat) parameters,
    (∀ argument ∈ arguments, site.Owns argument) →
      Obeys (conduct site) (checkArguments visit call (arguments.map .node) parameters)
  | argument :: arguments, parameter :: parameters, hmem => by
      have := conduct_checkArguments call arguments parameters fun other hother => hmem other (List.mem_cons_of_mem _ hother)
      have hargument := hmem argument List.mem_cons_self
      have := hvisit (.node argument) (Site.has_node.2 (.inl hargument))
      have := conduct_promoteArgument hargument
      rw [List.map_cons]
      unfold checkArguments
      infer_instance
  | [], _, _ | _ :: _, [], _ => inferInstanceAs (Obeys (conduct site) (pure ()))

theorem conduct_answerTypeOf (hid : site.Owns id) (hkind : (site.origin.node id).kind = .call) :
    Obeys (conduct site) (answerTypeOf visit (.node id)) := by
  obtain ⟨arguments, hcall⟩ := (site.wellLaid.laid id hid.lt_size (by simp [hkind])).call hkind
  refine conduct.kept_bind hid hkind (by decide) hcall.args ?_
  refine conduct.kept_bind hid hkind (by decide) hcall.arity ?_
  extract_lets answer
  have hanswer : ∀ u, Obeys (conduct site) (answer u) := by
    refine fun u => conduct.list_bind ?_
    cases arguments with
    | nil => exact inferInstanceAs (Obeys (conduct site) (fail _))
    | cons argument rest =>
        have hargument := argument_mem hid hkind hcall List.mem_cons_self
        have hoperand : (site.origin.node argument).kind.hasOperand .value := by
          rw [hcall.kinds argument List.mem_cons_self]
          rfl
        have := conduct_replaceByName hid hkind
        refine conduct.below_bind hargument (.inr hoperand) fun value hvalue => ?_
        have := hvisit value hvalue
        dsimp only
        infer_instance
  clear_value answer
  infer_instance

theorem conduct_visitCall (hid : site.Owns id) (hkind : (site.origin.node id).kind = .call) :
    Obeys (conduct site) (visitCall visit (.node id)) := by
  obtain ⟨arguments, hcall⟩ := (site.wellLaid.laid id hid.lt_size (by simp [hkind])).call hkind
  have htype : ∀ type, Obeys (Draft.conduct site) (Draft.setField (.node id) .type type) :=
    fun _ => Draft.conduct_setField hid (by rw [hkind]; decide) (by decide)
  have := conduct_answerTypeOf hvisit hid hkind
  have hcheck := fun parameters => conduct_checkArguments hvisit (.node id) arguments parameters fun argument hargument =>
    argument_mem hid hkind hcall hargument
  refine .bind inferInstance fun name => ?_
  split
  · infer_instance
  · refine .bind inferInstance fun table => ?_
    split
    · refine .bind inferInstance fun given => .bind inferInstance fun expected => ?_
      extract_lets check
      have hchecked : ∀ u, Obeys (conduct site) (check u) := by
        refine fun u => conduct.kept_bind hid hkind (by decide) hcall.args (conduct.list_bind ?_)
        infer_instance
      clear_value check
      infer_instance
    · infer_instance

theorem conduct_visitReturn (hid : site.Owns id) (hkind : (site.origin.node id).kind = .returning) :
    Obeys (conduct site) (visitReturn visit (.node id)) := by
  refine conduct.link_bind hid hkind (by decide) fun value hvalue => ?_
  have := hvisit value hvalue
  dsimp only
  infer_instance

/-! ### Programs -/

theorem conduct_visitStatements {node : Value} (hhas : ∀ (s : Analysis) statements, s.Tame site →
      s.graph.fieldOf? node .statements = some statements → site.Has statements) :
    Obeys (conduct site) (visitStatements visit node) := by
  refine conduct.getField_bind fun s statements htame hget => (?_ : Obeys (conduct site) _).allows s
  refine conduct.itemsOf_bind fun items hitems => ?_
  have := conduct_visitAll hvisit fun item hitem id hid => hhas s statements htame hget id (hitems item hitem id hid)
  refine .bind inferInstance fun _ => ⟨fun s => conduct.assume fun htame => ?_⟩
  refine Rule.Allows.bind (Obeys.allows s) fun a t hrun => ?_
  obtain ⟨rfl, rfl⟩ := get_eq_ok.1 hrun
  refine (Obeys.bind (.forIn_mem fun concat hconcat _ => ?_) inferInstance).allows s
  obtain ⟨id, rfl, hlate⟩ := htame.concats concat hconcat
  have := hvisit (.node id) (Site.has_node.2 (.inr hlate))
  infer_instance

theorem conduct_visitProgram (hid : site.Owns id) (hkind : (site.origin.node id).kind = .program) :
    Obeys (conduct site) (visitProgram visit (.node id)) := by
  have hlink : Field.statements ∈ (site.origin.node id).kind.links := by
    rw [hkind]
    decide
  have := @conduct_visitStatements site visit hvisit (.node id) fun s statements htame hget =>
    Node.get_of_get? hget ▸ htame.holds.has hid (.inl hlink)
  refine .bind inferInstance fun _ => .bind inferInstance fun outcome => ?_
  split <;> infer_instance

/-! ### All nodes -/

theorem conduct_visitNode (hid : site.Owns id) :
    Obeys (conduct site) (visitNode visit (.node id) (site.origin.node id).kind) := by
  have hlink : ∀ {field}, field ∈ (site.origin.node id).kind.links ∨ (site.origin.node id).kind.hasOperand field →
      Obeys (conduct site) (do visit (← liftM (Draft.getField (.node id) field)) : Check Unit) :=
    fun hfield => conduct.below_bind hid hfield hvisit
  cases hkind : (site.origin.node id).kind
  case program => exact conduct_visitProgram hvisit hid hkind
  case block => exact conduct_visitBlock hvisit hid hkind
  case declaration => exact conduct_visitDeclaration hvisit hid hkind
  case update => exact conduct_visitUpdate hvisit hid hkind
  case reference => exact conduct_visitReference hid hkind
  case function => exact conduct_visitFunction hvisit hid hkind
  case returning => exact conduct_visitReturn hvisit hid hkind
  case call => exact conduct_visitCall hvisit hid hkind
  case argument => exact hlink (.inl (by rw [hkind]; decide))
  case method => exact conduct_visitMethod hvisit hid hkind
  case conditional => exact conduct_visitConditional hvisit hid hkind
  case loop => exact conduct_visitLoop hvisit hid hkind
  case binary => exact conduct_visitBinary hvisit hid hkind
  case unary => exact conduct_visitUnary hvisit hid
  case comparison => exact conduct_visitComparison hvisit hid
  case logical => exact conduct_visitComparison hvisit hid
  case concat =>
    have hlaid := (site.wellLaid.laid id hid.lt_size (by simp [hkind])).kind
    simp [hkind] at hlaid
  all_goals
    unfold visitNode
    infer_instance

omit hvisit in
theorem conduct_visitLate {kind : Kind} (hid : site.origin.nodes.size ≤ id) (hkind : kind.isLate) :
    Obeys (conduct site) (visitNode visit (.node id) kind) := by
  cases kind
  case concat => exact conduct_joinConcat hid
  case double | string | parameter =>
    unfold visitNode
    infer_instance
  all_goals cases hkind

theorem allows_visitNode {kind : Kind} (hvalue : site.Has value) (hkind : s.graph.kindOf? value = some kind) :
    (conduct site).Allows s (visitNode visit value kind s) := by
  refine conduct.assume fun htame => ?_
  cases value with
  | node id =>
      rw [Graph.kindOf?_node, Option.some_inj] at hkind
      rcases Site.has_node.1 hvalue with hid | hlate
      · rw [htame.holds.derived.kind id hid.lt_size] at hkind
        subst hkind
        exact (conduct_visitNode hvisit hid).allows s
      · by_cases hplain : kind = .plain
        · subst hplain
          exact (inferInstance : Obeys (conduct site) (fail .abstract)).allows s
        · have hmade := (htame.holds.derived.late id hlate (Graph.lt_size_of_kind (hkind ▸ hplain))).kind
          exact (conduct_visitLate hlate (hkind ▸ hmade)).allows s
  | _ => cases hkind

end Visiting

/-- Every visit keeps everything in order, at whatever site the visited value lies. -/
theorem conduct_visitWithin : ∀ depth value, site.Has value → Obeys (conduct site) (visitWithin depth value)
  | 0, _, _ => inferInstanceAs (Obeys (conduct site) (fail .tooDeep))
  | depth + 1, value, hvalue => by
      refine ⟨fun s => Rule.Allows.bind (Obeys.allows s) fun graph t hrun => ?_⟩
      obtain ⟨rfl, rfl⟩ := lift_currentGraph_eq_ok.1 hrun
      cases hkind : s.graph.kindOf? value with
      | none =>
          exact (inferInstance : Obeys (conduct site) (throw (s.graph.missing value "accept"))).allows s
      | some kind =>
          exact allows_visitNode (conduct_visitWithin depth) hvalue hkind

end Check

end Scriptlet
