import Scriptlet.Proofs.Check.Operations
import Scriptlet.Proofs.Check.Outcome

/-!
The work of the analysis on statements, and so on every node that it visits.
-/

set_option synthInstance.maxSize 1000000

namespace Scriptlet

namespace Draft

variable {draft later : Draft} {value item : Value} {items : List Value} {id : Nat}

theorem mentions_of_itemsOf (h : itemsOf value draft = .ok items later) (hitem : item ∈ items) (hid : item.Mentions id) :
    value.Mentions id := by
  unfold itemsOf at h
  split at h
  · obtain ⟨rfl, -⟩ := pure_eq_ok.1 h
    exact .list hitem hid
  · obtain ⟨rfl, -⟩ := pure_eq_ok.1 h
    exact .tuple hitem hid
  · obtain ⟨rfl, -⟩ := pure_eq_ok.1 h
    obtain ⟨entry, -, rfl⟩ := List.mem_map.1 hitem
    exact absurd hid Value.not_mentions_scalar
  · obtain ⟨rfl, -⟩ := pure_eq_ok.1 h
    obtain ⟨c, -, rfl⟩ := List.mem_map.1 hitem
    exact absurd hid Value.not_mentions_scalar
  · simp at h

theorem mentions_of_pairOf {pair : Value × Value} (h : pairOf value draft = .ok pair later)
    (hid : pair.1.Mentions id ∨ pair.2.Mentions id) : value.Mentions id := by
  unfold pairOf at h
  split at h
  case h_6 =>
    obtain ⟨items, u, hitems, hpair⟩ := bind_eq_ok.1 h
    split at hpair
    · obtain ⟨rfl, -⟩ := pure_eq_ok.1 hpair
      rcases hid with hid | hid
      · exact mentions_of_itemsOf hitems (by simp) hid
      · exact mentions_of_itemsOf hitems (by simp) hid
    · exact absurd hpair fail_ne_ok
  all_goals simp at h

end Draft

namespace Check

variable {α : Type} {site : Site} {s t : Analysis} {id : Nat} {value : Value} {field : Field}
variable {graph : Graph} {symbol : Symbol} {key : String} {kind : Kind}

/-! ### Parts of collections -/

theorem conduct.itemsOf_bind {f : List Value → Check α}
    (hf : ∀ items, (∀ item ∈ items, ∀ id, item.Mentions id → value.Mentions id) → Obeys (conduct site) (f items)) :
    Obeys (conduct site) (liftM (Draft.itemsOf value) >>= f) := by
  refine ⟨fun s => Rule.Allows.bind (Obeys.allows s) fun items t hrun => (hf items ?_).allows t⟩
  obtain ⟨draft, hitems, -⟩ := lift_eq_ok.1 hrun
  exact fun item hitem id hid => Draft.mentions_of_itemsOf hitems hitem hid

theorem conduct.pairOf_bind {f : Value × Value → Check α} (hf : ∀ first second,
      (∀ id, first.Mentions id ∨ second.Mentions id → value.Mentions id) → Obeys (conduct site) (f (first, second))) :
    Obeys (conduct site) (liftM (Draft.pairOf value) >>= f) := by
  refine ⟨fun s => Rule.Allows.bind (Obeys.allows s) fun pair t hrun => (hf pair.1 pair.2 ?_).allows t⟩
  obtain ⟨draft, hpair, -⟩ := lift_eq_ok.1 hrun
  exact fun id hid => Draft.mentions_of_pairOf hpair hid

theorem conduct.currentGraph_bind {f : Graph → Check α}
    (hf : ∀ s : Analysis, s.Tame site → Obeys (conduct site) (f s.graph)) :
    Obeys (conduct site) (liftM Draft.currentGraph >>= f) := by
  refine ⟨fun s => conduct.assume fun htame => Rule.Allows.bind (Obeys.allows s) fun graph t hrun => ?_⟩
  obtain ⟨rfl, rfl⟩ := lift_currentGraph_eq_ok.1 hrun
  exact (hf s htame).allows s

theorem conduct.kept_bind {f : Value → Check α} (hid : site.Owns id)
    (hkind : (site.origin.node id).kind = kind) (hkeeps : kind.keeps field) (hvalue : (site.origin.node id).get? field = some value)
    (hf : Obeys (conduct site) (f value)) : Obeys (conduct site) (liftM (Draft.getField (.node id) field) >>= f) := by
  refine conduct.getField_bind fun s found htame hget => ?_
  rw [Graph.fieldOf?_node, htame.holds.derived.kept id field hid.lt_size (hkind ▸ hkeeps), hvalue] at hget
  cases hget
  exact hf.allows s

theorem conduct.spans_bind {f : Value → Check α} (hid : site.Owns id) (hkind : (site.origin.node id).kind = kind)
    (hkeeps : kind.keeps field) (hfield : field ∈ kind.links ∨ field ∈ Node.holders)
    (hf : ∀ found : Value, found.Spans site.middle site.high → Obeys (conduct site) (f found)) :
    Obeys (conduct site) (liftM (Draft.getField (.node id) field) >>= f) := by
  subst hkind
  refine conduct.getField_bind fun s found htame hget => (hf found ?_).allows s
  rw [← Node.get_of_get? hget]
  exact htame.holds.spans hid hkeeps hfield

/-! ### Changes of the table -/

theorem conduct.table_bind {f : ScopeTable → Check α} (hf : ∀ s : Analysis, s.Tame site → (conduct site).Allows s (f s.table s)) :
    Obeys (conduct site) (table >>= f) := by
  refine ⟨fun s => conduct.assume fun htame => Rule.Allows.bind (Obeys.allows s) fun old t hrun => ?_⟩
  obtain ⟨rfl, rfl⟩ := table_eq_ok.1 hrun
  exact hf s htame

theorem allows_changeTable {change : ScopeTable → Except Fault ScopeTable} [∀ table, Sane (change table)]
    (h : ∀ table, s.Tame site → change s.table = .ok table → table.Tame site.origin s.graph) :
    (conduct site).Allows s (changeTable change s) := by
  refine Rule.Allows.bind (Obeys.allows s) fun old t hrun => ?_
  obtain ⟨rfl, rfl⟩ := table_eq_ok.1 hrun
  refine Rule.Allows.bind (Obeys.allows s) fun table t hrun => ?_
  obtain ⟨hchange, rfl⟩ := orFail_eq_ok.1 hrun
  exact fun htame => ⟨⟨htame.holds, h table htame hchange, htame.concats⟩, .refl ..⟩

theorem conduct_changeTable {change : ScopeTable → Except Fault ScopeTable} [∀ table, Sane (change table)]
    (h : ∀ (s : Analysis) table, s.Tame site → change s.table = .ok table → table.Tame site.origin s.graph) :
    Obeys (conduct site) (changeTable change) :=
  ⟨fun s => allows_changeTable (h s)⟩

theorem visible_operand (h : site.origin.Derived graph) (hid : site.Owns id)
    (hfield : (site.origin.node id).kind.hasOperand field) (hget : graph.fieldOf? (.node id) field = some value) :
    site.origin.Visible graph value := by
  rw [← Node.get_of_get? hget]
  exact (h.operand id field hid.lt_size hfield).visible

/-- What is recorded of a variable that is declared. -/
abbrev variableSymbol (value type isStatic isAnnotated : Value) : Symbol where
  kind := .text Symbol.variableKind
  variableData := .record
    [("value", value), ("data_type", type), ("isStatic", isStatic), ("annotated", isAnnotated)]

theorem tame_variableSymbol {type isStatic isAnnotated : Value} (h : site.origin.Visible graph value) :
    (variableSymbol value type isStatic isAnnotated).Tame site.origin graph := by
  refine ⟨fun found hfound => ?_, .inl rfl⟩
  cases hfound
  exact h

/-! ### Declarations -/

theorem conduct_promoteDeclared (hid : site.Owns id) (name : Value) :
    Obeys (conduct site) (promoteDeclared (.node id) name) := by
  have hpromote : Obeys (conduct site) (do
      let value ← liftM (Draft.getField (.node id) .value)
      liftM (Draft.setField (.node id) .value (← promoted value)) : Check Unit) :=
    conduct.getField_bind fun s value _ hget => allows_promote hid (by decide) hget fun _ _ h => h
  unfold promoteDeclared
  infer_instance

theorem conduct_declaredType (hid : site.Owns id) (name type : Value) :
    Obeys (conduct site) (declaredType (.node id) name type) := by
  have := conduct_promoteDeclared hid name
  unfold declaredType
  infer_instance

/-! ### Updates -/

theorem conduct_applyUpdate {type : Value} (hvisible : ∀ graph, site.Holds graph → site.origin.Visible graph value) :
    Obeys (conduct site) (do
      let (table, outcome) := (← table).update key type value
      setTable table
      orFail outcome : Check Unit) := by
  refine conduct.table_bind fun s htame => ?_
  have hset : (conduct site).Allows s (setTable (s.table.update key type value).1 s) :=
    fun htame => ⟨⟨htame.holds, htame.symbols.update (hvisible s.graph htame.holds), htame.concats⟩, .refl ..⟩
  have hfail : Obeys (conduct site) (orFail (s.table.update key type value).2) := inferInstance
  exact Rule.Allows.bind hset fun _ t _ => hfail.allows t

/-- A variable that is not known any longer keeps what else is recorded of it. -/
theorem tame_withEntry {variableData content : Value} (h : symbol.Tame site.origin graph)
    (hentry : Symbol.withEntry symbol.variableData key content = .ok variableData) (hkey : key ≠ "value") :
    ({ symbol with variableData } : Symbol).Tame site.origin graph := by
  refine ⟨fun found hfound => ?_, h.function⟩
  rw [Symbol.entry_withEntry hentry, if_neg hkey.symm] at hfound
  exact h.value found hfound

theorem conduct_forget {next : Check Unit} [Obeys (conduct site) next]
    (hsymbol : ∀ graph, site.Holds graph → symbol.Tame site.origin graph) : Obeys (conduct site) (do
      let variableData ← orFail (Symbol.withEntry symbol.variableData "isStatic" (.bool false))
      setTable ((← table).setSymbol key { symbol with variableData })
      next) := by
  refine ⟨fun s => Rule.Allows.bind (Obeys.allows s) fun variableData t hrun => ?_⟩
  obtain ⟨hentry, rfl⟩ := orFail_eq_ok.1 hrun
  refine (conduct.table_bind fun s htame => Rule.Allows.bind ?_ fun _ t _ => Obeys.allows t).allows s
  have hchanged := tame_withEntry (hsymbol s.graph htame.holds) hentry (by decide)
  exact fun htame => ⟨⟨htame.holds, htame.symbols.setSymbol hchanged, htame.concats⟩, .refl ..⟩

theorem conduct_recordUpdate (hid : site.Owns id) (hkind : (site.origin.node id).kind = .update)
    (name type : Value) : Obeys (conduct site) (recordUpdate (.node id) name type) := by
  have hoperand : (site.origin.node id).kind.hasOperand .value := by
    rw [hkind]
    rfl
  unfold recordUpdate
  extract_lets key apply
  have happly : ∀ (work : Site) value, (∀ graph, work.Holds graph → work.origin.Visible graph value) →
      Obeys (conduct work) (apply type value) := fun _ _ => conduct_applyUpdate
  clear_value apply
  refine conduct.table_bind fun s htame => ?_
  cases hlookup : s.table.lookup? key with
  | none => exact (inferInstance : Obeys (conduct site) (fail ScopeTable.noSymbol)).allows s
  | some symbol =>
      have hlasts := site.lasts_tame symbol
      refine conduct.of_when hlasts (htame.symbols.lookup? hlookup) ((?_ : Obeys _ _).allows s)
      show Obeys _ (if symbol.isVariable = true then _ else _)
      split
      case isFalse => infer_instance
      case isTrue =>
        refine .bind inferInstance fun annotated => ?_
        extract_lets record
        have hrecord : ∀ u, Obeys (conduct (site.when _ hlasts)) (record u) := by
          refine fun _ => conduct.getField_bind fun s value htame hget => ?_
          have hstay : (site.when _ hlasts).Lasts _ := site.lasts_visible value
          have hvalue : site.origin.Visible s.graph value := visible_operand htame.holds.derived hid hoperand hget
          have happlied := happly ((site.when _ hlasts).when _ hstay) value fun _ hholds => hholds.given.2
          have hnull := happly ((site.when _ hlasts).when _ hstay) .null fun _ _ => Graph.visible_scalar
          have hforget := @conduct_forget ((site.when _ hlasts).when _ hstay) symbol key (apply type .null) hnull
            fun _ hholds => hholds.given.1.2
          exact @conduct.of_when _ (site.when _ hlasts) s _ hstay _ hvalue (Obeys.allows s)
        clear_value record
        split <;> infer_instance

variable {visit : Value → Check Unit} (hvisit : ∀ value, site.Has value → Obeys (conduct site) (visit value))

section Visiting

include hvisit

theorem conduct_visitDeclaration (hid : site.Owns id)
    (hkind : (site.origin.node id).kind = .declaration) : Obeys (conduct site) (visitDeclaration visit (.node id)) := by
  have hoperand : (site.origin.node id).kind.hasOperand .value := by
    rw [hkind]
    rfl
  have hdeclared := conduct_declaredType hid
  refine .bind inferInstance fun name => .bind inferInstance fun table => ?_
  extract_lets declare
  have hdeclare : ∀ u, Obeys (conduct site) (declare u) := by
    intro u
    refine conduct.link_bind hid hkind (by decide) fun value hvalue => ?_
    have := hvisit value hvalue
    refine .bind inferInstance fun _ => .bind inferInstance fun found => .bind inferInstance fun type => ?_
    refine conduct.getField_bind fun s value htame hget => ?_
    have hlasts := site.lasts_visible value
    have hadd : ∀ isStatic isAnnotated, Obeys (conduct (site.when _ hlasts))
        (changeTable fun table => table.add (nameText name) (variableSymbol value type isStatic isAnnotated)) :=
      fun _ _ => conduct_changeTable fun s table htame hadd =>
        htame.symbols.add (tame_variableSymbol htame.holds.given.2) hadd
    exact conduct.of_when hlasts (visible_operand htame.holds.derived hid hoperand hget) (Obeys.allows s)
  clear_value declare
  infer_instance

theorem conduct_visitUpdate (hid : site.Owns id) (hkind : (site.origin.node id).kind = .update) :
    Obeys (conduct site) (visitUpdate visit (.node id)) := by
  have hrecord := conduct_recordUpdate hid hkind
  have hhandled : ∀ name type line, Obeys (conduct site) (handling (recordUpdate (.node id) name type) fun failure =>
      liftM (liftM (Journal.announce failure true line) : Draft.Action Unit)) := by
    refine fun name type line => ⟨fun s => conduct.assume fun htame => ?_⟩
    refine Rule.Allows.handling (Obeys.allows s) fun failure u herror => ?_
    have := reading_announce (σ := Analysis) ((hrecord name type).stop herror htame).1 true line
    exact Obeys.allows u
  refine .bind inferInstance fun name => .bind inferInstance fun table => ?_
  extract_lets update
  have hupdate : ∀ u, Obeys (conduct site) (update u) := by
    intro u
    refine conduct.link_bind hid hkind (by decide) fun value hvalue => ?_
    have := hvisit value hvalue
    dsimp only
    infer_instance
  clear_value update
  infer_instance

end Visiting

/-! ### References -/

theorem conduct_noteSymbol (hid : site.Owns id) (hkind : (site.origin.node id).kind = .reference)
    (hsymbol : ∀ graph, site.Holds graph → symbol.Tame site.origin graph) :
    Obeys (conduct site) (do
      if symbol.isVariable then
        liftM (Draft.setField (.node id) .type (← orFail (Symbol.entry symbol.variableData "data_type" Draft.invalidType)))
        liftM (Draft.setField (.node id) .value (← orFail (Symbol.entry symbol.variableData "value")))
      else if symbol.isParameter then
        liftM (Draft.setField (.node id) .type (← orFail (Symbol.entry symbol.parameterData "data_type" Draft.invalidType))) :
      Check Unit) := by
  have htype : ∀ content, Obeys (Draft.conduct site) (Draft.setField (.node id) .type content) :=
    fun _ => Draft.conduct_setField hid (by rw [hkind]; decide) (by decide)
  have hvalue : Obeys (conduct site)
      (do liftM (Draft.setField (.node id) .value (← orFail (Symbol.entry symbol.variableData "value"))) : Check Unit) := by
    refine ⟨fun s => Rule.Allows.bind (Obeys.allows s) fun value t hrun => allows_lift fun _ => ?_⟩
    obtain ⟨hentry, rfl⟩ := orFail_eq_ok.1 hrun
    refine Draft.allows_setField hid.lt_size (.inr hid.1) (by rw [hkind]; decide) (fun _ hoperand => ?_)
      fun hholds _ _ => (hsymbol _ hholds).value value hentry
    rw [hkind] at hoperand
    cases hoperand
  infer_instance

theorem conduct_visitReference (hid : site.Owns id) (hkind : (site.origin.node id).kind = .reference) :
    Obeys (conduct site) (visitReference (.node id)) := by
  refine .bind inferInstance fun name => conduct.table_bind fun s htame => ?_
  cases hlookup : s.table.lookup? (nameText name) with
  | none => exact Obeys.allows s
  | some symbol =>
      have hlasts := site.lasts_tame symbol
      have hnote := @conduct_noteSymbol (site.when _ hlasts) id symbol hid hkind fun _ hholds => hholds.given.2
      exact conduct.of_when hlasts (htame.symbols.lookup? hlookup) (hnote.allows s)

/-! ### Blocks, conditionals and loops -/

instance : Obeys (conduct site) (changeTable ScopeTable.exitScope) :=
  conduct_changeTable fun _ _ htame hexit => htame.symbols.exitScope hexit

theorem conduct.createScope_bind {next : Unit → Check α} (hnext : ∀ u, Obeys (conduct site) (next u)) :
    Obeys (conduct site) (table >>= fun old => setTable old.createScope >>= next) := by
  refine conduct.table_bind fun s _ => Rule.Allows.bind ?_ fun u t _ => (hnext u).allows t
  exact fun htame => ⟨⟨htame.holds, htame.symbols.createScope, htame.concats⟩, .refl ..⟩

instance (inLoop : Bool) : Obeys (conduct site) (modify fun analysis : Analysis => { analysis with inLoop }) :=
  .modify fun _ htame => ⟨⟨htame.holds, htame.symbols, htame.concats⟩, .refl ..⟩

section Blocks

include hvisit

theorem conduct_visitAll {items : List Value} (hitems : ∀ item ∈ items, site.Has item) :
    Obeys (conduct site) (forIn items PUnit.unit fun statement _ =>
      if statement.isNull then pure (.yield ⟨⟩) else do visit statement; pure (.yield ⟨⟩)) := by
  refine .forIn_mem fun item hitem _ => ?_
  have := hvisit item (hitems item hitem)
  infer_instance

theorem conduct_visitBlock (hid : site.Owns id) (hkind : (site.origin.node id).kind = .block) :
    Obeys (conduct site) (visitBlock visit (.node id)) := by
  refine conduct.createScope_bind fun _ => conduct.link_bind hid hkind (by decide) fun statements hstatements => ?_
  refine conduct.itemsOf_bind fun items hitems => ?_
  have := conduct_visitAll hvisit fun item hitem id hid => hstatements id (hitems item hitem id hid)
  infer_instance

theorem conduct_visitConditional (hid : site.Owns id)
    (hkind : (site.origin.node id).kind = .conditional) : Obeys (conduct site) (visitConditional visit (.node id)) := by
  refine conduct.link_bind hid hkind (by decide) fun condition hcondition => ?_
  have := hvisit condition hcondition
  refine .bind inferInstance fun _ => .bind inferInstance fun _ => .bind inferInstance fun _ => ?_
  refine conduct.link_bind hid hkind (by decide) fun body hbody => ?_
  have := hvisit body hbody
  refine .bind inferInstance fun _ => ?_
  refine conduct.link_bind hid hkind (by decide) fun branches hbranches => ?_
  extract_lets finish
  have hfinish : ∀ u, Obeys (conduct site) (finish u) := by
    intro u
    refine conduct.link_bind hid hkind (by decide) fun otherwise hotherwise => ?_
    have := hvisit otherwise hotherwise
    infer_instance
  clear_value finish
  split
  · infer_instance
  · refine conduct.itemsOf_bind fun items hitems => .bind (.forIn_mem fun branch hbranch _ => ?_) inferInstance
    refine conduct.pairOf_bind fun condition block hpair => ?_
    have hbranch : site.Has branch := fun id hid => hbranches id (hitems branch hbranch id hid)
    have := hvisit condition fun id hid => hbranch id (hpair id (.inl hid))
    have := hvisit block fun id hid => hbranch id (hpair id (.inr hid))
    infer_instance

theorem conduct_visitLoop (hid : site.Owns id) (hkind : (site.origin.node id).kind = .loop) :
    Obeys (conduct site) (visitLoop visit (.node id)) := by
  refine conduct.link_bind hid hkind (by decide) fun condition hcondition => ?_
  have := hvisit condition hcondition
  refine .bind inferInstance fun _ => .bind inferInstance fun _ => .bind inferInstance fun _ => .bind inferInstance fun _ => ?_
  refine conduct.link_bind hid hkind (by decide) fun body hbody => ?_
  have := hvisit body hbody
  infer_instance

end Blocks

/-! ### Methods -/

theorem conduct_checkMethodArguments (call : Value) : ∀ arguments parameters,
    Obeys (conduct site) (checkMethodArguments call arguments parameters)
  | argument :: arguments, expected :: parameters => by
      have := conduct_checkMethodArguments call arguments parameters
      unfold checkMethodArguments
      infer_instance
  | [], _ | _ :: _, [] => inferInstanceAs (Obeys (conduct site) (pure ()))

section Methods

include hvisit

theorem conduct_checkMethodWithin : ∀ depth (call : Nat), site.Owns call →
    (site.origin.node call).kind = .method → Obeys (conduct site) (checkMethodWithin visit depth (.node call))
  | 0, _, _, _ => inferInstanceAs (Obeys (conduct site) (fail .tooDeep))
  | depth + 1, call, hcall, hkind => by
      have hmark : ∀ type, Obeys (Draft.conduct site) (Draft.setField (.node call) .receiverType type) :=
        fun _ => Draft.conduct_mark _ (by decide)
      have harguments := @conduct_checkMethodArguments site (.node call)
      refine conduct.link_bind hcall hkind (by decide) fun receiver hreceiver => ?_
      have := hvisit receiver hreceiver
      extract_lets check
      have hcheck : ∀ type, Obeys (conduct site) (check type) := by
        refine fun type => .bind inferInstance fun name => ?_
        split <;> infer_instance
      clear_value check
      refine conduct.isKind_bind fun s isMethod htame hmethod => ?_
      split
      case isFalse => exact Obeys.allows s
      case isTrue hholds =>
        obtain ⟨inner, rfl, hinner, hkind⟩ :=
          htame.holds.node_of_kind hreceiver (beq_iff_eq.1 (hmethod.trans hholds)) rfl (by decide)
        have := conduct_checkMethodWithin depth inner hinner hkind
        exact Obeys.allows s

theorem conduct_visitMethod (hid : site.Owns id) (hkind : (site.origin.node id).kind = .method) :
    Obeys (conduct site) (visitMethod visit (.node id)) := by
  have := conduct_checkMethodWithin hvisit walkDepth id hid hkind
  have htype : ∀ type, Obeys (Draft.conduct site) (Draft.setField (.node id) .returnType type) :=
    fun _ => Draft.conduct_setField hid (by rw [hkind]; decide) (by decide)
  unfold visitMethod
  infer_instance

/-! ### Functions -/

omit hvisit in
theorem conduct_allBranches {check : Value → Check Bool}
    (hcheck : ∀ block : Value, block.Spans site.middle site.high → Obeys (conduct site) (check block)) :
    ∀ branches : List Value, (∀ branch ∈ branches, branch.Spans site.middle site.high) →
      Obeys (conduct site) (allBranches check branches)
  | [], _ => inferInstanceAs (Obeys (conduct site) (pure true))
  | branch :: rest, hbranches => by
      have := conduct_allBranches hcheck rest fun other hother => hbranches other (List.mem_cons_of_mem _ hother)
      refine conduct.pairOf_bind fun condition block hpair => ?_
      have := hcheck block fun id hid => hbranches branch List.mem_cons_self id (hpair id (.inr hid))
      infer_instance

mutual

theorem conduct_statementsReturnWithin : ∀ depth (block : Value), block.Spans site.middle site.high →
    Obeys (conduct site) (statementsReturnWithin visit depth block)
  | 0, _, _ => inferInstanceAs (Obeys (conduct site) (fail .tooDeep))
  | depth + 1, .node id, hblock => by
      have hconditional := conduct_conditionalReturnsWithin depth
      refine conduct.spans_bind (Value.spans_node.1 hblock) rfl rfl (.inr (by decide)) fun statements hstatements => ?_
      refine conduct.itemsOf_bind fun items hitems => .bind (.forIn_mem fun statement hstatement returns => ?_) inferInstance
      have hhas : site.Has statement := fun id hid => .inl (hstatements id (hitems statement hstatement id hid))
      have := hvisit statement hhas
      refine .bind inferInstance fun _ => conduct.currentGraph_bind fun s htame => ?_
      split
      case h_2 hkind =>
        obtain ⟨inner, rfl, hinner, hkind⟩ := htame.holds.node_of_kind hhas hkind rfl (by decide)
        have := hconditional inner hinner hkind
        infer_instance
      all_goals infer_instance
  | depth + 1, .scalar _, _ | depth + 1, .list _, _ | depth + 1, .tuple _, _ | depth + 1, .record _, _ =>
      conduct.getField_bind fun _ _ _ hget => nomatch hget

theorem conduct_conditionalReturnsWithin : ∀ depth (node : Nat), site.Owns node →
    (site.origin.node node).kind = .conditional → Obeys (conduct site) (conditionalReturnsWithin visit depth (.node node))
  | 0, _, _, _ => inferInstanceAs (Obeys (conduct site) (fail .tooDeep))
  | depth + 1, node, hnode, hkind => by
      have hstatements := conduct_statementsReturnWithin depth
      refine conduct.spans_bind hnode hkind (by decide) (.inl (by decide)) fun block hblock => ?_
      have := hstatements block hblock
      refine .bind inferInstance fun first => ?_
      refine conduct.spans_bind hnode hkind (by decide) (.inl (by decide)) fun branches hbranches => ?_
      refine conduct.itemsOf_bind fun items hitems => ?_
      have := conduct_allBranches hstatements items fun item hitem id hid => hbranches id (hitems item hitem id hid)
      refine .bind inferInstance fun middle => ?_
      refine conduct.spans_bind hnode hkind (by decide) (.inl (by decide)) fun otherwise hotherwise => ?_
      have := hstatements otherwise hotherwise
      dsimp only
      infer_instance

end

omit hvisit in
theorem tame_functionSymbol {formals : List Nat} {type : String} {graph : Graph} (h : site.origin.Derived graph)
    (hfunction : site.origin.FunctionLaid 0 site.origin.nodes.size id formals type) :
    ({ kind := .text Symbol.functionKind, functionData := functionRecord formals (.text type) } : Symbol).Tame
      site.origin graph := by
  refine .of_null rfl (.inr ⟨formals, .text type, rfl, fun parameter hparameter => ?_⟩)
  obtain ⟨-, hlt, hkind⟩ := hfunction.kinds parameter hparameter
  exact ⟨hlt.trans_le h.size_le, (h.kind parameter hlt).trans hkind⟩

omit hvisit in
instance (name : String) (parameterData : Value) : Obeys (conduct site) (changeTable fun table =>
    table.add name { kind := .text Symbol.parameterKind, parameterData }) :=
  conduct_changeTable fun _ _ htame hadd => htame.symbols.add (.of_null rfl (.inl rfl)) hadd

omit hvisit in
instance (name type : Value) : Obeys (conduct site) (setFunction name type) :=
  .modify fun _ htame => ⟨⟨htame.holds, htame.symbols, htame.concats⟩, .refl ..⟩

theorem conduct_visitFunction (hid : site.Owns id)
    (hkind : (site.origin.node id).kind = .function) : Obeys (conduct site) (visitFunction visit (.node id)) := by
  obtain ⟨formals, type, hfunction⟩ := (site.wellLaid.laid id hid.lt_size (by simp [hkind])).function hkind
  refine .bind inferInstance fun name => .bind inferInstance fun table => ?_
  extract_lets key declare
  have hdeclare : ∀ u, Obeys (conduct site) (declare u) := by
    intro u
    refine conduct.kept_bind hid hkind (by decide) hfunction.parameters ?_
    refine conduct.kept_bind hid hkind (by decide) hfunction.returnType ?_
    refine conduct.kept_bind hid hkind (by decide) hfunction.arity ?_
    refine .bind (conduct_changeTable fun s table htame hadd => ?_) fun _ => conduct.createScope_bind fun _ => ?_
    · exact htame.symbols.add (tame_functionSymbol htame.holds.derived hfunction) hadd
    · refine .bind inferInstance fun items => .bind inferInstance fun _ => .bind inferInstance fun _ => ?_
      refine conduct.spans_bind hid hkind (by decide) (.inl (by decide)) fun block hblock => ?_
      have : Obeys (conduct site) (statementsReturn visit block) := conduct_statementsReturnWithin hvisit walkDepth block hblock
      infer_instance
  clear_value declare
  infer_instance

end Methods

end Check

end Scriptlet
