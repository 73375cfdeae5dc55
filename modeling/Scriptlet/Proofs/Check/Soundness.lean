import Scriptlet.Proofs.Check.Assignments

/-!
The checks of the analysis are sound: what they find out about types still holds when the visit of the node
is over, whatever has been visited and rewritten in between.
-/

set_option synthInstance.maxSize 1000000

namespace Scriptlet.Check

variable {origin : Graph} {root id depth : Nat} {s t : Analysis} {value type : Value}
variable {v : Unit}

/-! ### Returns -/

theorem type_of_parameter {hlaid : origin.WellLaid (.node root)} (htame : s.Tame (inner hlaid))
    (hkind : (s.graph.node id).kind = .parameter) : ∃ word, (s.graph.node id).get? .type = some (.text word) := by
  have hderived : origin.Derived s.graph := htame.holds.derived
  by_cases hid : id < origin.nodes.size
  · rw [hderived.kind id hid] at hkind
    obtain ⟨word, hword⟩ := (hlaid.laid id hid (by simp [hkind])).parameter hkind
    exact ⟨word, (hderived.kept id .type hid (by rw [hkind]; rfl)).trans hword⟩
  · exact (hderived.late id (Nat.le_of_not_lt hid) (Graph.lt_size_of_kind (by simp [hkind]))).parameter hkind

theorem typeOrInvalid_ne_null : Node.typeOrInvalid type ≠ .null := by
  unfold Node.typeOrInvalid
  split
  case isTrue => simp [Draft.invalidType]
  case isFalse h =>
    rintro rfl
    exact h rfl

theorem given_ne_null {hlaid : origin.WellLaid (.node root)} (htame : s.Tame (inner hlaid))
    (h : (s.graph.node id).typeSource = .given type) : type ≠ .null := by
  have hnote : ∀ {field : Field} {source : TypeSource}, source ≠ .given .null →
      (s.graph.node id).noteOr field source ≠ .given .null := by
    intro field source hsource
    unfold Node.noteOr
    split
    case isTrue => exact hsource
    case isFalse hnull =>
      intro heq
      injection heq with heq
      rw [heq] at hnull
      exact hnull rfl
  rintro rfl
  unfold Node.typeSource at h
  cases hkind : (s.graph.node id).kind <;> simp only [hkind] at h
  case parameter =>
    obtain ⟨word, hword⟩ := type_of_parameter htame hkind
    rw [Node.get_of_get? hword] at h
    injection h with h
    cases h
  case reference | call =>
    injection h with h
    exact typeOrInvalid_ne_null h
  case declaration | update | returning =>
    split at h
    · injection h with h
      cases h
    · cases h
  case method =>
    split at h
    · injection h with h
      exact typeOrInvalid_ne_null h
    · cases h
  case argument | binary | unary | comparison | logical =>
    refine hnote ?_ h
    intro heq
    cases heq
  all_goals cases h

/-- Nothing is of the type null, though it may be of the type that is called so. -/
theorem typeAt_ne_null {hlaid : origin.WellLaid (.node root)} (htame : s.Tame (inner hlaid)) :
    s.graph.typeAt depth value ≠ some .null := by
  induction depth generalizing value with
  | zero => exact nofun
  | succ depth ih =>
      intro htype
      obtain ⟨_, id, hdepth, rfl⟩ := Graph.exists_of_typeAt htype
      rw [Graph.typeAt_node] at htype
      cases hsource : (s.graph.node id).typeSource with
      | missing label =>
          rw [hsource] at htype
          cases htype
      | given type =>
          rw [hsource] at htype
          cases htype
          exact given_ne_null htame hsource rfl
      | child child =>
          rw [hsource] at htype
          exact ih htype
      | operands =>
          rw [hsource] at htype
          obtain ⟨types, -, hsettled⟩ := Option.map_eq_some_iff.1 htype
          unfold settledType at hsettled
          split at hsettled <;> cases hsettled

/-- What is expected of returns is nothing, or the type that the innermost function returns. -/
theorem expectedType_cases (hlaid : origin.WellLaid (.node root)) (above : List Value) :
    expectedType origin above = .null ∨ ∃ function word, above.find? (origin.isKind .function) = some function ∧
      origin.fieldOf? function .returnType = some (.text word) ∧ expectedType origin above = .text word := by
  unfold expectedType
  cases hfind : above.find? (origin.isKind .function) with
  | none => exact .inl rfl
  | some function =>
      have hkind : origin.isKind .function function := List.find?_some hfind
      cases function with
      | node id =>
          rw [Graph.isKind_node, beq_iff_eq] at hkind
          have hid : id < origin.nodes.size := Graph.lt_size_of_kind (by simp [hkind])
          obtain ⟨formals, word, hfunction⟩ := (hlaid.laid id hid (by simp [hkind])).function hkind
          refine .inr ⟨.node id, word, rfl, hfunction.returnType, ?_⟩
          rw [Option.bind_some, Graph.fieldOf?_node, hfunction.returnType, Option.getD_some]
      | _ => cases hkind

/-- The value of a return is of the type that the innermost function returns; a function that returns nothing can
return null. -/
theorem type_of_return (hlaid : origin.WellLaid (.node root)) {above : List Value} {node : Value}
    (hreached : Reached (inner hlaid) (depth + 1) above node s) (hkind : s.graph.kindOf? node = some .returning)
    (h : visitReturn (visitWithin depth) node s = .ok v t) :
    ∃ function word value, above.find? (origin.isKind .function) = some function ∧
      origin.fieldOf? function .returnType = some (.text word) ∧ t.graph.fieldOf? node .value = some value ∧
      (t.Gives value (.text word) ∨ word = TypeName.void ∧ t.Gives value (.text TypeName.null)) := by
  have htame := hreached.proper.1
  obtain ⟨id, rfl, hid, horigin⟩ := htame.holds.node_of_kind hreached.proper.2 hkind rfl (by decide)
  have hlt : id < origin.nodes.size := hid.2.trans (hlaid.root root rfl).1
  have hlast : t.Tame (inner hlaid) := ((conduct_visitReturn (conduct_visitWithin depth) hid horigin).step h htame).1
  obtain ⟨value, _, hrun, h⟩ := bind_eq_ok.1 h
  obtain ⟨hvalue, rfl⟩ := getField_eq_ok.1 hrun
  obtain ⟨_, s₁, hvisit, h⟩ := bind_eq_ok.1 h
  obtain ⟨type, s₂, htype, h⟩ := bind_eq_ok.1 h
  obtain ⟨_, _, hget, h⟩ := bind_eq_ok.1 h
  obtain ⟨rfl, rfl⟩ := get_eq_ok.1 hget
  obtain ⟨hfits, h⟩ := ite_refuses.1 h
  obtain ⟨-, rfl⟩ := pure_eq_ok.1 h
  have hhas : (inner hlaid).Has value := Node.get_of_get? hvalue ▸ htame.holds.has hid
    (.inl (show Field.value ∈ (origin.node id).kind.links by rw [show (origin.node id).kind = _ from horigin]; decide))
  have hwaning : waning.step s s₁ := waning_visitWithin (isInner_inner hlaid) depth value s s₁ _ ⟨htame, hhas⟩ hvisit
  have hsame : s₂.functionType = s₁.functionType := by
    obtain ⟨draft, -, rfl⟩ := lift_eq_ok.1 htype
    rfl
  have hsource := typeAt_of_typeOf htype
  have hexpected : s₂.functionType ≠ .null := by
    intro hnull
    rw [hnull, Bool.or_eq_true] at hfits
    rcases hfits with hfits | hfits
    · exact typeAt_ne_null hlast (eq_null_of_isSame hfits ▸ hsource)
    · rw [Bool.and_eq_true] at hfits
      exact absurd hfits.2 (by decide)
  have hkept : s₂.functionType = s.functionType := hsame.trans (hwaning.resolve_right (hsame ▸ hexpected))
  have hinnermost : s₂.functionType = expectedType origin above :=
    hkept.trans (hreached.expected.resolve_right (hkept ▸ hexpected))
  obtain hnone | ⟨function, word, hfunction, hreturn, hword⟩ := expectedType_cases hlaid above
  · exact absurd (hinnermost.trans hnone) hexpected
  have hthere : (s₂.graph.node id).get .value ≠ .null := by
    refine value_ne_null htame hlast hlt (by simp [show (origin.node id).kind = _ from horigin]) ?_
    rw [show (s.graph.node id).get .value = value from Node.get_of_get? hvalue]
    exact ne_null_of_visit hvisit
  have hreturning : (s₂.graph.node id).kind = .returning := (hlast.holds.derived.kind id hlt).trans horigin
  obtain ⟨found, hfound, hgives⟩ := gives_value (by simp [hreturning]) hthere hsource
  refine ⟨function, word, found, hfunction, hreturn, hfound, ?_⟩
  rw [hinnermost, hword, Bool.or_eq_true, isSame_comm_text, Bool.and_eq_true, isText_iff, isText_iff] at hfits
  rcases hfits with rfl | ⟨rfl, hvoid⟩
  · exact .inl hgives
  · injection hvoid with hvoid
    injection hvoid with hvoid
    exact .inr ⟨hvoid, hgives⟩

/-! ### Calls -/

/-- An argument fits a parameter: it is of its type, unless the parameter takes values of any type. -/
def Fits (s : Analysis) (argument : Value) (parameter : Nat) : Prop :=
  ∃ word, s.graph.fieldOf? (.node parameter) .type = some (.text word) ∧
    (word = TypeName.any ∨ s.graph.typeAt walkDepth argument = some (.text word))

theorem checkArguments_cons {visit : Value → Check Unit} {call argument parameter : Value} {arguments parameters : List Value} :
    checkArguments visit call (argument :: arguments) (parameter :: parameters) = (do
      checkArguments visit call [argument] [parameter]
      checkArguments visit call arguments parameters) := by
  have hnil : checkArguments visit call [] [] = pure () := rfl
  rw [checkArguments, checkArguments, hnil]
  simp only [bind_assoc]
  refine bind_congr fun _ => bind_congr fun expected => ?_
  split
  · simp
  · simp only [bind_assoc]
    refine bind_congr fun type => ?_
    split <;> simp only [bind_assoc]
    · refine bind_congr fun _ => bind_congr fun found => ?_
      split <;> simp
    · refine bind_congr fun found => ?_
      split <;> simp

theorem compared_eq_ok {argument expected : Value} {refusal : Value → Check Unit} [∀ type, Refuses (refusal type)]
    (h : (do
      let type ← (liftM (Draft.typeOf argument) : Check Value)
      if isSame type expected = true then pure () else refusal type : Check Unit) s = .ok v t) :
    ∃ type, isSame type expected ∧ t.graph.typeAt walkDepth argument = some type := by
  obtain ⟨type, u, htype, h⟩ := bind_eq_ok.1 h
  obtain ⟨hsame, h⟩ := ite_refuses.1 h
  obtain ⟨-, rfl⟩ := pure_eq_ok.1 h
  exact ⟨type, hsame, typeAt_of_typeOf htype⟩

theorem checkArgument_eq_ok {call argument parameter : Value}
    (h : checkArguments (visitWithin depth) call [argument] [parameter] s = .ok v t) :
    ∃ u expected, visitWithin depth argument s = .ok () u ∧ u.graph.fieldOf? parameter .type = some expected ∧
      (expected = .text TypeName.any ∨
        ∃ type, isSame type expected ∧ t.graph.typeAt walkDepth argument = some type) := by
  obtain ⟨_, u, hvisit, h⟩ := bind_eq_ok.1 h
  obtain ⟨expected, _, hrun, h⟩ := bind_eq_ok.1 h
  obtain ⟨hexpected, rfl⟩ := getField_eq_ok.1 hrun
  refine ⟨u, expected, hvisit, hexpected, ?_⟩
  dsimp only at h
  split at h
  case isTrue hany => exact .inl (isText_iff.1 hany)
  case isFalse =>
    obtain ⟨_, u₁, -, h⟩ := bind_eq_ok.1 h
    split at h
    case isTrue =>
      obtain ⟨_, u₂, -, h⟩ := bind_eq_ok.1 h
      exact .inr (compared_eq_ok h)
    case isFalse => exact .inr (compared_eq_ok h)

theorem parameter_kept {hlaid : origin.WellLaid (.node root)} (hs : s.Tame (inner hlaid)) (ht : t.Tame (inner hlaid))
    (hspares : Graph.Spares origin 0 0 s.graph t.graph) (hid : id < s.graph.nodes.size)
    (hkind : (s.graph.node id).kind = .parameter) :
    t.graph.fieldOf? (.node id) .type = s.graph.fieldOf? (.node id) .type := by
  rw [Graph.fieldOf?_node, Graph.fieldOf?_node]
  by_cases hlt : id < origin.nodes.size
  · have hkeeps : (origin.node id).kind.keeps .type := by
      rw [← show (s.graph.node id).kind = (origin.node id).kind from hs.holds.derived.kind id hlt, hkind]
      rfl
    exact (ht.holds.derived.kept id .type hlt hkeeps).trans (hs.holds.derived.kept id .type hlt hkeeps).symm
  · have hget := hspares.parameter id (Nat.le_of_not_lt hlt) hid hkind
    obtain ⟨word, hword⟩ := type_of_parameter hs hkind
    obtain ⟨later, hlater⟩ := type_of_parameter ht ((hspares.kind id hid).trans hkind)
    rw [Node.get_of_get? hword, Node.get_of_get? hlater] at hget
    rw [hword, hlater, hget]

/-- Arguments that pass the checks fit their parameters, and what comes before them keeps its type. -/
theorem fits_of_checkArguments (hlaid : origin.WellLaid (.node root)) (call : Value) :
    ∀ (arguments parameters : List Nat) (s t : Analysis), arguments.length = parameters.length → s.Tame (inner hlaid) →
      (∀ argument ∈ arguments, argument < root) →
      arguments.Pairwise (fun a b => origin.Parted 0 origin.nodes.size (.node a) (.node b)) →
      (∀ id ∈ parameters, id < s.graph.nodes.size ∧ (s.graph.node id).kind = .parameter) →
      checkArguments (visitWithin depth) call (arguments.map .node) (parameters.map .node) s = .ok v t →
      t.Tame (inner hlaid) ∧ Graph.Spares origin 0 0 s.graph t.graph ∧
      (∀ pair ∈ arguments.zip parameters, Fits t (.node pair.1) pair.2) ∧
      ∀ first type, (∀ argument ∈ arguments, origin.Parted 0 origin.nodes.size first (.node argument)) →
        s.graph.typeAt walkDepth first = some type → t.graph.typeAt walkDepth first = some type
  | [], [], s, t, _, htame, _, _, _, h => by
      obtain ⟨-, rfl⟩ := pure_eq_ok.1 h
      exact ⟨htame, .refl .., nofun, fun _ _ _ htype => htype⟩
  | argument :: arguments, parameter :: parameters, s, t, hlength, htame, hinside, hparted, hparameters, h => by
      rw [List.map_cons, List.map_cons, checkArguments_cons] at h
      obtain ⟨_, u, hone, hrest⟩ := bind_eq_ok.1 h
      have hworks : WorksAt (.node argument) (checkArguments (visitWithin depth) call [.node argument] [.node parameter]) :=
        fun site hspans => conduct_checkArguments (conduct_visitWithin depth) call [argument] _ fun other hother => by
          rw [List.mem_singleton.1 hother]
          exact Value.spans_node.1 hspans
      obtain ⟨hu, hspares⟩ := (hworks (inner hlaid)
        (Value.spans_node.2 ⟨Nat.zero_le _, hinside argument List.mem_cons_self⟩)).step hone htame
      obtain ⟨hfirst, hothers⟩ := List.pairwise_cons.1 hparted
      obtain ⟨ht, hspares', hfits, hkeeps⟩ := fits_of_checkArguments hlaid call arguments parameters u t
        (by simpa using hlength) hu (fun other hother => hinside other (List.mem_cons_of_mem _ hother)) hothers
        (fun id hid => by
          obtain ⟨hlt, hkind⟩ := hparameters id (List.mem_cons_of_mem _ hid)
          exact ⟨hlt.trans_le hspares.size_le, (hspares.kind id hlt).trans hkind⟩) hrest
      refine ⟨ht, hspares.trans hspares', fun pair hpair => ?_, fun first type hbefore htype => ?_⟩
      · rcases List.mem_cons.1 hpair with rfl | hpair
        · obtain ⟨hlt, hkind⟩ := hparameters parameter List.mem_cons_self
          obtain ⟨word, hword⟩ := type_of_parameter htame hkind
          refine ⟨word, (parameter_kept htame ht (hspares.trans hspares') hlt hkind).trans hword, ?_⟩
          obtain ⟨w, expected, hvisit, hexpected, hchecked⟩ := checkArgument_eq_ok hone
          obtain ⟨hw, hspares''⟩ := (conduct_visitWithin depth (.node argument) (Site.has_node.2
            (.inl ⟨Nat.zero_le _, hinside argument List.mem_cons_self⟩))).step hvisit htame
          rw [parameter_kept htame hw hspares'' hlt hkind, Graph.fieldOf?_node, hword] at hexpected
          cases hexpected
          rcases hchecked with hany | ⟨type, hsame, htype⟩
          · injection hany with hany
            injection hany with hany
            exact .inl hany
          · rw [isSame_comm_text] at hsame
            subst hsame
            exact .inr (hkeeps _ _ hfirst htype)
        · exact hfits pair hpair
      · refine hkeeps first type (fun other hother => hbefore other (List.mem_cons_of_mem _ hother)) ?_
        exact (keeps_of_second hlaid (hbefore argument List.mem_cons_self) htame hone hworks).2 _ _ htype

theorem isSame_int {a b : Int} (h : isSame (.int a) (.int b) = true) : a = b := by
  have hcompare : (some (compare a b) == some Ordering.eq) = true := h
  simpa using hcompare

/-- The note that a call gets in the end does not change the types of its arguments. -/
theorem Fits.of_note {hlaid : origin.WellLaid (.node root)} (htame : s.Tame (inner hlaid)) {arguments : List Nat}
    (hkind : (origin.node id).kind = .call) (hcall : origin.CallLaid 0 origin.nodes.size id arguments) {argument parameter : Nat}
    (hargument : argument ∈ arguments) (h : Fits s (.node argument) parameter) (hparameter : (s.graph.node parameter).kind = .parameter) :
    Fits { s with graph := s.graph.setField id .type type } (.node argument) parameter := by
  have hid : id < origin.nodes.size := Graph.lt_size_of_get? hcall.args
  obtain ⟨word, hword, hfits⟩ := h
  obtain ⟨start, -, hclosed, hinside⟩ := hcall.inside
  obtain ⟨hlow, hhigh⟩ := hinside argument hargument
  have hspares : Graph.Spares origin start id s.graph (s.graph.setField id .type type) :=
    .set_outside htame.holds.derived hlaid hclosed hid.le hid (.inr (le_refl _))
  refine ⟨word, ?_, hfits.imp_right fun htype => hspares.typeAt argument _ _ hlow hhigh htype⟩
  rw [Graph.fieldOf?_node, Graph.get?_setField_of_ne]
  · exact hword
  · refine .inl ?_
    rintro rfl
    rw [htame.holds.derived.kind _ hid] at hparameter
    cases hkind.symm.trans hparameter

/-- A call names a function, and its arguments fit the parameters of the function. -/
theorem fits_of_call (hlaid : origin.WellLaid (.node root)) (hid : id < root) (hkind : (origin.node id).kind = .call)
    (htame : s.Tame (inner hlaid)) (h : visitCall (visitWithin depth) (.node id) s = .ok v t) {name : Value}
    (hname : s.graph.fieldOf? (.node id) .name = some name) (hother : name.isText "typeof" = false) :
    ∃ symbol parameters type, ∃ arguments : List Nat, s.table.lookup? (nameText name) = some symbol ∧
      symbol.functionData = functionRecord parameters type ∧
      s.graph.fieldOf? (.node id) .args = some (.list (arguments.map .node)) ∧ arguments.length = parameters.length ∧
      ∀ pair ∈ arguments.zip parameters, Fits t (.node pair.1) pair.2 := by
  have hlt : id < origin.nodes.size := hid.trans (hlaid.root root rfl).1
  obtain ⟨arguments, hcall⟩ := (hlaid.laid id hlt (by simp [hkind])).call hkind
  have hkeeps : ∀ field ∈ [Field.arity, .args], (origin.node id).kind.keeps field := by
    rw [hkind]
    decide
  have hargs := kept htame hcall.args (hkeeps _ (by decide))
  rw [visitCall, getField_bind hname, hother] at h
  obtain ⟨_, _, htable, h⟩ := bind_eq_ok.1 h
  obtain ⟨rfl, rfl⟩ := table_eq_ok.1 htable
  cases hlookup : s.table.lookup? (nameText name) with
  | none =>
      simp only [hlookup] at h
      exact absurd h (Refuses.ne_ok _ _ _)
  | some symbol =>
      simp only [hlookup] at h
      rw [getField_bind (kept htame hcall.arity (hkeeps _ (by decide)))] at h
      obtain ⟨expected, _, hrun, h⟩ := bind_eq_ok.1 h
      obtain ⟨hexpected, rfl⟩ := orFail_eq_ok.1 hrun
      rcases (htame.symbols.lookup? hlookup).function with hnull | ⟨parameters, type, hrecord, hparameters⟩
      · rw [hnull] at hexpected
        cases hexpected
      rw [hrecord] at hexpected h
      cases hexpected
      have hcheck : isSame (.int arguments.length) (.int parameters.length) = true ∧ ∃ u, checkArguments (visitWithin depth)
          (.node id) (arguments.map .node) (parameters.map .node) s = .ok () u ∧
          { u with graph := u.graph.setField id .type type } = t := by
        obtain ⟨hsame, h⟩ := ite_refuses.1 h
        refine ⟨hsame, ?_⟩
        rw [getField_bind hargs] at h
        obtain ⟨_, _, hrun, h⟩ := bind_eq_ok.1 h
        obtain ⟨rfl, rfl⟩ := lift_itemsOf_list_eq_ok.1 hrun
        obtain ⟨_, _, hrun, h⟩ := bind_eq_ok.1 h
        obtain ⟨hentry, rfl⟩ := orFail_eq_ok.1 hrun
        cases hentry
        obtain ⟨_, _, hrun, h⟩ := bind_eq_ok.1 h
        obtain ⟨rfl, rfl⟩ := lift_itemsOf_list_eq_ok.1 hrun
        obtain ⟨_, u, hcheck, h⟩ := bind_eq_ok.1 h
        obtain ⟨_, _, hrun, h⟩ := bind_eq_ok.1 h
        obtain ⟨hentry, rfl⟩ := orFail_eq_ok.1 hrun
        cases hentry
        exact ⟨u, hcheck, lift_setField_eq_ok.1 h⟩
      obtain ⟨hsame, u, hcheck, rfl⟩ := hcheck
      have hlength : arguments.length = parameters.length := by exact_mod_cast isSame_int hsame
      obtain ⟨hu, hspares, hfits, -⟩ := fits_of_checkArguments hlaid (.node id) arguments parameters s u hlength htame
        (fun argument hargument => (@argument_mem (inner hlaid) id arguments argument ⟨Nat.zero_le id, hid⟩ hkind hcall
          hargument).2) hcall.parted hparameters hcheck
      refine ⟨symbol, parameters, type, arguments, rfl, hrecord, hargs, hlength, fun pair hpair => ?_⟩
      obtain ⟨hlt, hkind'⟩ := hparameters pair.2 (List.of_mem_zip hpair).2
      exact (hfits pair hpair).of_note hu hkind hcall (List.of_mem_zip hpair).1 ((hspares.kind _ hlt).trans hkind')

/-! ### All nodes -/

/-- What the analysis has made sure of when a visit of a node, below others of which the innermost comes first, began
in one state and has ended in another. -/
structure Sound (origin : Graph) (above : List Value) (node : Value) (s t : Analysis) : Prop where
  /-- A declaration adds a variable of the type that it names. -/
  declaration : s.graph.kindOf? node = some .declaration → ∀ word : String,
    s.graph.fieldOf? node .declaredType = some (.text word) →
      ∃ name symbol, s.graph.fieldOf? node .name = some name ∧ s.table.inScope? (nameText name) = none ∧
        t.table.inScope? (nameText name) = some symbol ∧ symbol.isVariable ∧
        Symbol.entry symbol.variableData "data_type" = .ok (.text word)
  /-- An update of a variable with an annotation, or of a parameter, has a value of its type. -/
  update : s.graph.kindOf? node = some .update → ∀ name symbol required, s.graph.fieldOf? node .name = some name →
    t.table.lookup? (nameText name) = some symbol → symbol.Requires required →
      ∃ value type, t.graph.fieldOf? node .value = some value ∧ t.Gives value type ∧ isSame required type
  /-- A call names a function, has as many arguments as the function has parameters, and they are of its types. -/
  call : s.graph.kindOf? node = some .call → ∀ name, s.graph.fieldOf? node .name = some name → name.isText "typeof" = false →
    ∃ symbol parameters type, ∃ arguments : List Nat, s.table.lookup? (nameText name) = some symbol ∧
      symbol.functionData = functionRecord parameters type ∧
      s.graph.fieldOf? node .args = some (.list (arguments.map .node)) ∧ arguments.length = parameters.length ∧
      ∀ pair ∈ arguments.zip parameters, ∃ word, t.graph.fieldOf? (.node pair.2) .type = some (.text word) ∧
        (word = TypeName.any ∨ t.Gives (.node pair.1) (.text word))
  /-- A return has a value of the type that the innermost function returns, or null where it returns nothing. -/
  returning : s.graph.kindOf? node = some .returning → ∃ function word value,
    above.find? (origin.isKind .function) = some function ∧ origin.fieldOf? function .returnType = some (.text word) ∧
      t.graph.fieldOf? node .value = some value ∧
      (t.Gives value (.text word) ∨ word = TypeName.void ∧ t.Gives value (.text TypeName.null))
  /-- Conditions are truth values. -/
  condition : s.graph.kindOf? node = some .conditional ∨ s.graph.kindOf? node = some .loop → ∀ condition,
    t.graph.HasCondition node condition → t.Gives condition (.text TypeName.boolean)

theorem sound_of_reached (hlaid : origin.WellLaid (.node root)) {above : List Value} {node : Value}
    (hreached : Reached (inner hlaid) depth above node s) :
    ∃ t, visitWithin depth node s = .ok () t ∧ Sound origin above node s t := by
  obtain ⟨_, t, hvisit⟩ := hreached.ends
  refine ⟨t, hvisit, ?_⟩
  cases depth with
  | zero => exact absurd hvisit fail_ne_ok
  | succ depth =>
      obtain ⟨kind, hkind, h⟩ := visitWithin_eq_ok.1 hvisit
      have htame := hreached.proper.1
      have hread : ∀ {checked : Kind}, s.graph.kindOf? node = some checked → checked.isLate = false → checked ≠ .plain →
          kind = checked ∧ ∃ id : Nat, node = .node id ∧ id < root ∧ (origin.node id).kind = checked := by
        intro checked hchecked hlate hplain
        obtain ⟨id, hnode, hid, horigin⟩ := htame.holds.node_of_kind hreached.proper.2 hchecked hlate hplain
        exact ⟨Option.some.inj (hkind.symm.trans hchecked), id, hnode, hid.2, horigin⟩
      refine ⟨fun hchecked word hdeclared => ?_, fun hchecked name symbol required hname hsymbol hrequires => ?_,
        fun hchecked name hname hother => ?_, fun hchecked => ?_, fun hchecked condition hcondition => ?_⟩
      · obtain ⟨rfl, id, rfl, hid, horigin⟩ := hread hchecked rfl (by decide)
        exact type_of_declaration hlaid hid horigin htame h hdeclared
      · obtain ⟨rfl, id, rfl, hid, horigin⟩ := hread hchecked rfl (by decide)
        exact type_of_update hlaid hid horigin htame h hname hsymbol hrequires
      · obtain ⟨rfl, id, rfl, hid, horigin⟩ := hread hchecked rfl (by decide)
        obtain ⟨symbol, parameters, type, arguments, hsymbol, hrecord, hargs, hlength, hfits⟩ :=
          fits_of_call hlaid hid horigin htame h hname hother
        refine ⟨symbol, parameters, type, arguments, hsymbol, hrecord, hargs, hlength, fun pair hpair => ?_⟩
        obtain ⟨word, hword, hfits⟩ := hfits pair hpair
        exact ⟨word, hword, hfits.imp_right gives_of_typeAt⟩
      · obtain ⟨rfl, -⟩ := hread hchecked rfl (by decide)
        exact type_of_return hlaid hreached hchecked h
      · rcases hchecked with hchecked | hchecked
        · obtain ⟨rfl, id, rfl, hid, horigin⟩ := hread hchecked rfl (by decide)
          exact gives_of_typeAt (truth_of_conditional hlaid (hid.trans (hlaid.root root rfl).1) horigin htame h hcondition)
        · obtain ⟨rfl, id, rfl, hid, horigin⟩ := hread hchecked rfl (by decide)
          exact gives_of_typeAt (truth_of_loop hlaid (hid.trans (hlaid.root root rfl).1) horigin htame h hcondition)

variable {source : String} {tree node : Value} {draft : Draft} {final : Analysis} {above : List Value}

/-- In a program that is accepted, every visit of a node ends, and then the node is sound. -/
theorem sound_of_accepts (h : Accepts source tree draft final)
    (hvisits : Visits visitNode visitWithin visitDepth tree { toDraft := draft } depth above node s) :
    ∃ t, visitWithin depth node s = .ok () t ∧ Sound draft.graph above node s t := by
  obtain ⟨kind, hkind, -⟩ := visitWithin_eq_ok.1 (show visitWithin (599 + 1) _ _ = _ from h.visit)
  cases tree with
  | node root =>
      have hprogram : draft.graph.kindOf? (.node root) = some .program := congrArg some (h.wellLaid.root root rfl).2.1
      rcases h.reached hvisits with ⟨rfl, rfl, rfl, rfl⟩ | hreached
      · -- nothing is checked at the program itself
        refine ⟨final, h.visit, ?_, ?_, ?_, ?_, ?_⟩
        all_goals intro hchecked
        · cases hprogram.symm.trans hchecked
        · cases hprogram.symm.trans hchecked
        · cases hprogram.symm.trans hchecked
        · cases hprogram.symm.trans hchecked
        · rcases hchecked with hchecked | hchecked <;> cases hprogram.symm.trans hchecked
      · exact sound_of_reached h.wellLaid hreached
  | _ => cases hkind

/-- Whether the first statement of a program declares a name, with its type. -/
def declaresFirst (graph : Graph) (tree : Value) (name type : String) : Bool :=
  match graph.fieldOf? tree .statements with
  | some (.list (.node id :: _)) => graph.isKind .declaration (.node id) &&
      (graph.fieldOf? (.node id) .name).any (·.isText name) &&
      (graph.fieldOf? (.node id) .declaredType).any (·.isText type)
  | _ => false

theorem exists_of_declaresFirst {graph : Graph} {name type : String} (h : declaresFirst graph tree name type) :
    ∃ root id others, tree = .node root ∧ graph.fieldOf? tree .statements = some (.list (.node id :: others)) ∧
      (graph.node id).kind = .declaration ∧ graph.fieldOf? (.node id) .name = some (.text name) ∧
      graph.fieldOf? (.node id) .declaredType = some (.text type) := by
  unfold declaresFirst at h
  split at h
  case h_2 => cases h
  case h_1 id others hstatements =>
    rw [Bool.and_eq_true, Bool.and_eq_true, Graph.isKind_node, beq_iff_eq] at h
    obtain ⟨⟨hkind, hname⟩, htype⟩ := h
    obtain ⟨found, hfound, hname⟩ := (Option.any_eq_true _ _).1 hname
    obtain ⟨found', hfound', htype⟩ := (Option.any_eq_true _ _).1 htype
    rw [isText_iff] at hname htype
    cases tree with
    | node root => exact ⟨root, id, others, rfl, hstatements, hkind, hname ▸ hfound, htype ▸ hfound'⟩
    | _ => cases hstatements

/-- The declaration of an integer is visited, and then there is a variable of this type. -/
theorem sound_of_accepts_integer : ∃ tree draft final node s t,
    Accepts "set x: integer = 1" tree draft final ∧
      Visits visitNode visitWithin visitDepth tree { toDraft := draft } 599 [tree] node s ∧
      visitWithin 599 node s = .ok () t ∧ ∃ symbol, s.table.inScope? "x" = none ∧ t.table.inScope? "x" = some symbol ∧
        Symbol.entry symbol.variableData "data_type" = .ok (.text TypeName.integer) := by
  have hrun : (accepted? "set x: integer = 1").any (fun run =>
      declaresFirst run.2.1.graph run.1 "x" TypeName.integer) = true := by decide +kernel
  obtain ⟨⟨tree, draft, final⟩, hsome, hshape⟩ := (Option.any_eq_true _ _).1 hrun
  have haccepts := accepts_of_accepted hsome
  obtain ⟨root, id, others, rfl, hstatements, hkind, hname, hdeclared⟩ := exists_of_declaresFirst hshape
  obtain ⟨s, htame, hvisits⟩ := haccepts.visits_first hstatements rfl
  obtain ⟨t, hvisit, hsound⟩ := sound_of_accepts haccepts hvisits
  have hid : id < draft.graph.nodes.size := Graph.lt_size_of_get? hname
  have hkind' : s.graph.kindOf? (.node id) = some .declaration :=
    congrArg some ((htame.holds.derived.kind id hid).trans hkind)
  obtain ⟨_, symbol, hname', hnone, hfound, -, htype⟩ :=
    hsound.declaration hkind' _ ((fieldOf?_kept htame hid rfl).trans hdeclared)
  cases ((fieldOf?_kept htame hid rfl).trans hname).symm.trans hname'
  exact ⟨_, _, _, _, s, t, haccepts, hvisits, hvisit, symbol, hnone, hfound, htype⟩

end Scriptlet.Check
