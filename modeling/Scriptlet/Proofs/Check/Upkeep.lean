import Scriptlet.Proofs.Check.Derivation
import Scriptlet.Proofs.Scope.Tree

/-!
The upkeep of a derived graph: what the analysis may do while it works at one site of a program.

A site is an interval of nodes that were read together.  Work at a site keeps the graph derived from what
was read and the table of scopes in order, and it spares the region that was read just before the site.
What was given of the graph at the start, and lasts, can be used all along.
-/

set_option synthInstance.maxSize 1000000

namespace Scriptlet

/-- An interval of nodes, next to a region that was read before it. -/
structure Site where
  origin : Graph
  root : Value
  low : Nat
  middle : Nat
  high : Nat
  wellLaid : origin.WellLaid root
  divided : origin.Divided low middle high
  high_le : high ≤ origin.nodes.size
  given : Graph → Prop
  lasting : ∀ {graph changed : Graph}, Graph.Spares origin low middle graph changed → given graph → given changed

/-- A node that lies at a site. -/
abbrev Site.Owns (site : Site) (id : Nat) : Prop :=
  site.middle ≤ id ∧ id < site.high

theorem Site.Owns.lt_size {site : Site} {id : Nat} (h : site.Owns id) : id < site.origin.nodes.size :=
  h.2.trans_le site.high_le

/-- A fact that lasts while work is done at a site. -/
def Site.Lasts (site : Site) (fact : Graph → Prop) : Prop :=
  ∀ ⦃graph changed : Graph⦄, Graph.Spares site.origin site.low site.middle graph changed → fact graph → fact changed

/-- All nodes of a value lie at a site, or they were made by the analysis. -/
def Site.Has (site : Site) (value : Value) : Prop :=
  ∀ id : Nat, value.Mentions id → site.Owns id ∨ site.origin.nodes.size ≤ id

namespace Site

variable {site : Site} {value : Value} {items : List Value} {id : Nat}
variable {graph : Graph} {field : Field}

theorem has_node : site.Has (.node id) ↔ site.Owns id ∨ site.origin.nodes.size ≤ id :=
  ⟨fun h => h id .node, fun h _ hother => Value.mentions_node.1 hother ▸ h⟩

/-- A graph that was derived in work at the site. -/
structure Holds (site : Site) (graph : Graph) : Prop where
  derived : site.origin.Derived graph
  given : site.given graph

theorem Holds.step {changed : Graph} (h : site.Holds graph) (hderived : site.origin.Derived changed)
    (hspares : Graph.Spares site.origin site.low site.middle graph changed) : site.Holds changed :=
  ⟨hderived, site.lasting hspares h.given⟩

/-- The site with one more fact that is given. -/
def when (site : Site) (fact : Graph → Prop) (hfact : site.Lasts fact) : Site :=
  { site with
    given := fun graph => site.given graph ∧ fact graph
    lasting := fun hspares h => ⟨site.lasting hspares h.1, hfact hspares h.2⟩ }

/-- A site at which nothing is given. -/
def plain {origin : Graph} {root : Value} {low middle high : Nat} (hlaid : origin.WellLaid root)
    (hdivided : origin.Divided low middle high) (hle : high ≤ origin.nodes.size) : Site where
  origin := origin
  root := root
  low := low
  middle := middle
  high := high
  wellLaid := hlaid
  divided := hdivided
  high_le := hle
  given _ := True
  lasting _ _ := trivial

theorem low_closed (site : Site) : site.origin.Closed site.low site.middle :=
  site.divided.left

theorem middle_le (site : Site) : site.middle ≤ site.origin.nodes.size :=
  site.divided.le_high.trans site.high_le

theorem parent_outside (hid : site.Owns id) {parent : Nat} (h : (site.origin.node id).get .parent = .node parent) :
    parent < site.origin.nodes.size ∧ (parent < site.low ∨ site.middle ≤ parent) :=
  ⟨site.wellLaid.parent id parent hid.lt_size h, site.divided.parent id parent hid.1 hid.2 h⟩

/-- What stands below a node of the site lies at the site, or it was made by the analysis. -/
theorem Holds.has (h : site.Holds graph) (hid : site.Owns id)
    (hfield : field ∈ (site.origin.node id).kind.links ∨ (site.origin.node id).kind.hasOperand field) :
    site.Has ((graph.node id).get field) := by
  have hlt := hid.lt_size
  intro child hchild
  have hbelow : site.origin.Below id child ∨ site.origin.nodes.size ≤ child := by
    rcases hfield with hlink | hoperand
    · exact h.derived.below_of_link site.wellLaid hlt hlink hchild
    · exact h.derived.below_of_operand site.wellLaid hlt hoperand hchild
  exact hbelow.imp_left (site.divided.right id child hid.1 hid.2)

/-- What the analysis leaves alone lies at the site. -/
theorem Holds.spans (h : site.Holds graph) (hid : site.Owns id)
    (hkeeps : (site.origin.node id).kind.keeps field)
    (hfield : field ∈ (site.origin.node id).kind.links ∨ field ∈ Node.holders) :
    ((graph.node id).get field).Spans site.middle site.high := by
  have hlt := hid.lt_size
  intro child hchild
  rw [h.derived.get_of_keeps hlt hkeeps] at hchild
  refine site.divided.right id child hid.1 hid.2 ?_
  rcases hfield with hlink | hholder
  · exact ⟨field, hlink, hchild⟩
  · exact site.wellLaid.below_of_mentions hlt hholder hchild

theorem has_of_spans (h : value.Spans site.middle site.high) : site.Has value :=
  fun id hid => .inl (h id hid)

/-- Only nodes that were read have operands on two sides. -/
theorem Holds.node_of_side (h : site.Holds graph) (hvalue : site.Has value) (hfield : field = .left ∨ field = .right)
    {found : Value} (hfound : graph.fieldOf? value field = some found) :
    ∃ id : Nat, value = .node id ∧ site.Owns id := by
  cases value with
  | node id =>
      refine ⟨id, rfl, (has_node.1 hvalue).resolve_right fun hlate => ?_⟩
      rw [Graph.fieldOf?_node] at hfound
      have hnode := h.derived.late id hlate (Graph.lt_size_of_get? hfound)
      rcases hfield with rfl | rfl
      · rw [hnode.left] at hfound
        cases hfound
      · rw [hnode.right] at hfound
        cases hfound
  | _ => cases hfound

theorem Holds.node_of_kind (h : site.Holds graph) (hvalue : site.Has value) {kind : Kind}
    (hkind : graph.kindOf? value = some kind) (hlate : kind.isLate = false) (hplain : kind ≠ .plain) :
    ∃ id : Nat, value = .node id ∧ site.Owns id ∧ (site.origin.node id).kind = kind := by
  cases value with
  | node id =>
      rw [Graph.kindOf?_node, Option.some_inj] at hkind
      have hid : site.Owns id := (has_node.1 hvalue).resolve_right
        (Nat.not_le.2 (h.derived.lt_of_kind hkind hlate hplain))
      exact ⟨id, rfl, hid, (h.derived.kind id hid.lt_size).symm.trans hkind⟩
  | _ => cases hkind

end Site

/-! ### Work on a draft -/

namespace Draft

variable {value line : Value} {draft : Draft}

/-- The graph stays derived from what was read, and the region next to the site is spared. -/
def conduct (site : Site) : Rule Draft where
  step draft later := site.Holds draft.graph →
    site.Holds later.graph ∧ Graph.Spares site.origin site.low site.middle draft.graph later.graph
  stop failure draft later := site.Holds draft.graph → failure ≠ .mark ∧
    site.Holds later.graph ∧ Graph.Spares site.origin site.low site.middle draft.graph later.graph
  refl _ h := ⟨h, .refl ..⟩
  trans h h' hholds := ⟨(h' (h hholds).1).1, (h hholds).2.trans (h' (h hholds).1).2⟩
  stop_of_step h h' hholds :=
    ⟨(h' (h hholds).1).1, (h' (h hholds).1).2.1, (h hholds).2.trans (h' (h hholds).1).2.2⟩
  step_of_stop _ h hholds := (h hholds).2

variable {α : Type} {site : Site}

theorem conduct.assume {result : EStateM.Result Failure Draft α}
    (h : site.Holds draft.graph → (conduct site).Allows draft result) : (conduct site).Allows draft result := by
  cases result with
  | ok a later | error failure later => exact fun hholds => h hholds hholds

theorem conduct.of_when {fact : Graph → Prop} (hfact : site.Lasts fact) {result : EStateM.Result Failure Draft α} (hstart : fact draft.graph)
    (h : (conduct (site.when fact hfact)).Allows draft result) : (conduct site).Allows draft result := by
  cases result with
  | ok a later =>
      intro hholds
      obtain ⟨hlater, hspares⟩ := h ⟨hholds.derived, hholds.given, hstart⟩
      exact ⟨⟨hlater.derived, hlater.given.1⟩, hspares⟩
  | error failure later =>
      intro hholds
      obtain ⟨hmark, hlater, hspares⟩ := h ⟨hholds.derived, hholds.given, hstart⟩
      exact ⟨hmark, ⟨hlater.derived, hlater.given.1⟩, hspares⟩

instance : (conduct site).IsPatient :=
  ⟨fun _ h hholds => ⟨Failure.ne_mark_of_isOrdinary h, hholds, .refl ..⟩⟩

instance (text : String) : Obeys (conduct site) (printLine text) :=
  .modify fun _ hholds => ⟨hholds, .refl ..⟩

theorem conduct.step_of {later : Draft} (h : site.Holds draft.graph →
      site.origin.Derived later.graph ∧ Graph.Spares site.origin site.low site.middle draft.graph later.graph) :
    (conduct site).step draft later :=
  fun hholds => ⟨hholds.step (h hholds).1 (h hholds).2, (h hholds).2⟩

instance : Obeys (conduct site) (typeOf value) := by
  have h : Obeys noting (typeOf value) := inferInstance
  refine ⟨fun draft => ?_⟩
  cases hx : typeOf value draft with
  | ok a later => exact conduct.step_of fun hholds => ⟨hholds.derived.noted (h.step hx).1, .of_noted (h.step hx).1⟩
  | error failure later =>
      obtain ⟨hordinary, hnoted, -⟩ := h.stop hx
      exact fun hholds => ⟨Failure.ne_mark_of_isOrdinary hordinary,
        hholds.step (hholds.derived.noted hnoted) (.of_noted hnoted), .of_noted hnoted⟩

theorem conduct_addNode {kind : Kind} {fields : List (Field × Value)} (h : Node.IsLate ⟨kind, fields⟩) :
    Obeys (conduct site) (addNode kind fields) :=
  ⟨fun _ => conduct.step_of fun hholds =>
    ⟨hholds.derived.add h, .add hholds.derived site.wellLaid site.low_closed site.middle_le _⟩⟩

instance : Obeys (conduct site) (newDouble value line) :=
  conduct_addNode ⟨rfl, rfl, rfl, fun _ => rfl, nofun⟩

instance (isTypeName : Value) : Obeys (conduct site) (newString value isTypeName line) :=
  conduct_addNode ⟨rfl, rfl, rfl, nofun, nofun⟩

instance (strings parent : Value) : Obeys (conduct site) (newConcat strings parent line) :=
  conduct_addNode ⟨rfl, rfl, rfl, fun _ => rfl, nofun⟩

instance (name : Value) (type : String) : Obeys (conduct site) (newParameter name (.text type)) :=
  conduct_addNode ⟨rfl, rfl, rfl, nofun, fun _ => ⟨type, rfl⟩⟩

theorem conduct.getField_bind {field : Field} {f : Value → Action α} (hf : ∀ (draft : Draft) found,
      site.Holds draft.graph → draft.graph.fieldOf? value field = some found → Obeys (conduct site) (f found)) :
    Obeys (conduct site) (getField value field >>= f) := by
  refine ⟨fun draft => conduct.assume fun hholds => ?_⟩
  refine Rule.Allows.bind ((inferInstance : Obeys (conduct site) (getField value field)).allows draft) ?_
  intro found later hrun
  obtain ⟨hget, rfl⟩ := getField_eq_ok.1 hrun
  exact (hf draft found hholds hget).allows draft

theorem conduct.isKind_bind {kind : Kind} {id : Nat} (hid : id < site.origin.nodes.size) {f : Bool → Action α}
    (hf : Obeys (conduct site) (f ((site.origin.node id).kind == kind))) :
    Obeys (conduct site) (isKind kind (.node id) >>= f) := by
  refine ⟨fun draft => conduct.assume fun hholds => ?_⟩
  refine Rule.Allows.bind ((inferInstance : Obeys (conduct site) (isKind kind (.node id))).allows draft) ?_
  intro holds later hrun
  obtain ⟨hkind, rfl⟩ := isKind_eq_ok.1 hrun
  rw [Graph.isKind_node, hholds.derived.kind id hid] at hkind
  exact (hkind ▸ hf).allows draft

section Changes

variable {draft : Draft} {id : Nat} {field : Field} {content : Value}

theorem allows_setField (hid : id < site.origin.nodes.size) (hout : id < site.low ∨ site.middle ≤ id)
    (hkeeps : ¬ (site.origin.node id).kind.keeps field)
    (hoperand : site.Holds draft.graph → (site.origin.node id).kind.hasOperand field →
      site.origin.Replaced draft.graph ((site.origin.node id).get field) content)
    (hreference : site.Holds draft.graph → (site.origin.node id).kind = .reference → field = .value →
      site.origin.Visible draft.graph content) :
    (conduct site).Allows draft (setField (.node id) field content draft) :=
  conduct.step_of fun hholds => ⟨hholds.derived.set hkeeps hid (hoperand hholds) (hreference hholds),
    .set_outside hholds.derived site.wellLaid site.low_closed site.middle_le hid hout⟩

theorem conduct_setField (hid : site.Owns id) (hkeeps : ¬ (site.origin.node id).kind.keeps field)
    (hfield : field ∉ operandFields) : Obeys (conduct site) (setField (.node id) field content) :=
  ⟨fun _ => allows_setField hid.lt_size (.inr hid.1) hkeeps
    (fun _ hoperand => absurd (Kind.mem_of_hasOperand hoperand) hfield)
    (fun _ _ hvalue => absurd (hvalue ▸ (by decide : Field.value ∈ operandFields)) hfield)⟩

theorem conduct_setLate (hid : site.origin.nodes.size ≤ id) (hfield : field ∈ [Field.parent, .evaluated, .strings, .transformed]) :
    Obeys (conduct site) (setField (.node id) field content) := by
  have hlate : ∀ field ∈ [Field.parent, .evaluated, .strings, .transformed],
      field ∉ [Field.left, .right, .isTypeName, .type] ∧ field ∉ Node.face := by decide
  exact ⟨fun _ => conduct.step_of fun hholds => ⟨hholds.derived.set_late hid (hlate field hfield).1,
    .set_harmless hholds.derived site.wellLaid site.low_closed site.middle_le (hlate field hfield).2⟩⟩

/-- A mark that nothing depends on, at any node. -/
theorem conduct_mark (value : Value) (hfield : field ∈ [Field.scope, .transformed, .receiverType]) :
    Obeys (conduct site) (setField value field content) := by
  have hmark : ∀ field ∈ [Field.scope, .transformed, .receiverType], field ∉ [Field.left, .right, .isTypeName, .type] ∧
      field ∉ Node.face ∧ field ∉ operandFields ∧ ∀ kind : Kind, ¬ kind.keeps field := by
    intro field hfield
    simp only [List.mem_cons, List.not_mem_nil, or_false] at hfield
    rcases hfield with rfl | rfl | rfl <;> exact ⟨by decide, by decide, by decide, fun _ => by simp [Kind.keeps]⟩
  obtain ⟨hlate, hface, hoperand, hkeeps⟩ := hmark field hfield
  cases value with
  | node id =>
      refine ⟨fun draft => conduct.step_of fun hholds =>
        ⟨?_, .set_harmless hholds.derived site.wellLaid site.low_closed site.middle_le hface⟩⟩
      by_cases hid : id < site.origin.nodes.size
      · exact hholds.derived.set (hkeeps _) hid (fun h => absurd (Kind.mem_of_hasOperand h) hoperand)
          (fun _ hvalue => absurd (hvalue ▸ (by decide : Field.value ∈ operandFields)) hoperand)
      · exact hholds.derived.set_late (Nat.le_of_not_lt hid) hlate
  | _ =>
      unfold setField
      infer_instance

end Changes

end Draft

/-! ### Tables of scopes -/

/-- What is recorded of a function. -/
def functionRecord (parameters : List Nat) (type : Value) : Value :=
  .record [("parameters", .list (parameters.map .node)), ("arity", .int parameters.length), ("return_type", type)]

/-- A symbol whose value stands somewhere in the program, and whose parameters are known. -/
structure Symbol.Tame (origin graph : Graph) (symbol : Symbol) : Prop where
  value : ∀ value, Symbol.entry symbol.variableData "value" = .ok value → origin.Visible graph value
  function : symbol.functionData = .null ∨ ∃ parameters type, symbol.functionData = functionRecord parameters type ∧
    ∀ id ∈ parameters, id < graph.nodes.size ∧ (graph.node id).kind = .parameter

/-- A table in order, with such symbols. -/
structure ScopeTable.Tame (origin graph : Graph) (table : ScopeTable) : Prop where
  tree : table.IsTree
  symbol : ∀ index name symbol, (table.scope index).symbols.lookup name = some symbol → symbol.Tame origin graph

section Tables

variable {origin graph changed : Graph} {low high : Nat} {table table' : ScopeTable} {symbol : Symbol} {name : String}

theorem Symbol.Tame.mono (h : symbol.Tame origin graph) (hspares : Graph.Spares origin low high graph changed) :
    symbol.Tame origin changed := by
  refine ⟨fun value hvalue => hspares.visible (h.value value hvalue), h.function.imp_right ?_⟩
  rintro ⟨parameters, type, hrecord, hparameters⟩
  refine ⟨parameters, type, hrecord, fun id hid => ?_⟩
  obtain ⟨hlt, hkind⟩ := hparameters id hid
  exact ⟨hlt.trans_le hspares.size_le, (hspares.kind id hlt).trans hkind⟩

theorem Symbol.Tame.of_null (hvariable : symbol.variableData = .null) (hfunction : symbol.functionData = .null ∨
      ∃ parameters type, symbol.functionData = functionRecord parameters type ∧
        ∀ id ∈ parameters, id < graph.nodes.size ∧ (graph.node id).kind = .parameter) : symbol.Tame origin graph := by
  refine ⟨fun value hvalue => ?_, hfunction⟩
  rw [hvariable] at hvalue
  cases hvalue

theorem Site.lasts_tame (site : Site) (symbol : Symbol) : site.Lasts (symbol.Tame site.origin) :=
  fun _ _ hspares h => h.mono hspares

theorem Site.lasts_visible (site : Site) (value : Value) : site.Lasts (site.origin.Visible · value) :=
  fun _ _ hspares => hspares.visible

namespace ScopeTable.Tame

theorem mono (h : table.Tame origin graph) (hspares : Graph.Spares origin low high graph changed) :
    table.Tame origin changed :=
  ⟨h.tree, fun index name symbol hsymbol => (h.symbol index name symbol hsymbol).mono hspares⟩

theorem lookup? (h : table.Tame origin graph) (hsymbol : table.lookup? name = some symbol) : symbol.Tame origin graph := by
  rw [lookup?_eq] at hsymbol
  obtain ⟨index, -, hlookup⟩ := Option.bind_eq_some_iff.1 hsymbol
  exact h.symbol index name symbol hlookup

theorem new : ({} : ScopeTable).Tame origin graph := by
  refine ⟨.new, fun index name symbol hsymbol => ?_⟩
  have hempty : (ScopeTable.scope {} index).symbols = [] := by
    rcases index with _ | index <;> rfl
  rw [hempty] at hsymbol
  cases hsymbol

theorem createScope (h : table.Tame origin graph) : table.createScope.Tame origin graph := by
  refine ⟨h.tree.createScope, fun index name symbol hsymbol => ?_⟩
  rw [(scope_createScope table index).1] at hsymbol
  exact h.symbol index name symbol hsymbol

theorem exitScope (h : table.Tame origin graph) (hexit : table.exitScope = .ok table') : table'.Tame origin graph := by
  refine ⟨h.tree.exitScope hexit, ?_⟩
  obtain ⟨_, _, _, -, rfl⟩ := exitScope_eq_ok.1 hexit
  exact h.symbol

theorem addTo (h : table.Tame origin graph) (hsymbol : symbol.Tame origin graph) (index : Nat) :
    (table.addTo index name symbol).Tame origin graph := by
  refine ⟨h.tree.addTo .., fun other another found hfound => ?_⟩
  rcases of_lookup_addTo hfound with hold | ⟨-, -, rfl⟩
  · exact h.symbol other another found hold
  · exact hsymbol

theorem add (h : table.Tame origin graph) (hsymbol : symbol.Tame origin graph) (hadd : table.add name symbol = .ok table') :
    table'.Tame origin graph := by
  obtain ⟨-, mangledName, rfl, -⟩ := add_eq_ok.1 hadd
  have hnamed : ({ symbol with mangledName } : Symbol).Tame origin graph := ⟨hsymbol.value, hsymbol.function⟩
  exact h.addTo hnamed _

theorem setSymbol (h : table.Tame origin graph) (hsymbol : symbol.Tame origin graph) :
    (table.setSymbol name symbol).Tame origin graph := by
  refine ⟨h.tree.setSymbol .., fun index other found hfound => ?_⟩
  rw [lookup_setSymbol] at hfound
  split at hfound
  · cases hfound
    exact hsymbol
  · exact h.symbol index other found hfound

theorem update (h : table.Tame origin graph) {type value : Value} (hvalue : origin.Visible graph value) :
    (table.update name type value).1.Tame origin graph := by
  unfold ScopeTable.update
  cases hlookup : table.lookup? name with
  | none => exact h
  | some symbol =>
      have hsymbol := h.lookup? hlookup
      have htyped : ({ symbol with updatedType := some type } : Symbol).Tame origin graph :=
        ⟨hsymbol.value, hsymbol.function⟩
      dsimp only
      split
      · exact h.setSymbol htyped
      · split
        · split
          case h_1 variableData hentry =>
            refine h.setSymbol ⟨fun found hfound => ?_, hsymbol.function⟩
            rw [Symbol.entry_withEntry hentry, if_pos rfl] at hfound
            cases hfound
            exact hvalue
          case h_2 => exact h.setSymbol htyped
        · exact h.setSymbol htyped

end ScopeTable.Tame

end Tables

/-! ### The analysis -/

/-- A state of the analysis in work at a site. -/
structure Analysis.Tame (site : Site) (s : Analysis) : Prop where
  holds : site.Holds s.graph
  symbols : s.table.Tame site.origin s.graph
  concats : ∀ concat ∈ s.concats, ∃ id : Nat, concat = .node id ∧ site.origin.nodes.size ≤ id

/-- Where nothing is given, it does not matter at which site the work is. -/
theorem Analysis.Tame.plain {site : Site} {s : Analysis} {low middle high : Nat} (h : s.Tame site)
    (hdivided : site.origin.Divided low middle high) (hle : high ≤ site.origin.nodes.size) :
    s.Tame (.plain site.wellLaid hdivided hle) :=
  ⟨⟨h.holds.derived, trivial⟩, h.symbols, h.concats⟩

namespace Check

/-- The state stays tame, and the region next to the site is spared. -/
def conduct (site : Site) : Rule Analysis where
  step s t := s.Tame site → t.Tame site ∧ Graph.Spares site.origin site.low site.middle s.graph t.graph
  stop failure s t := s.Tame site → failure ≠ .mark ∧
    t.Tame site ∧ Graph.Spares site.origin site.low site.middle s.graph t.graph
  refl _ h := ⟨h, .refl ..⟩
  trans h h' htame := ⟨(h' (h htame).1).1, (h htame).2.trans (h' (h htame).1).2⟩
  stop_of_step h h' htame := ⟨(h' (h htame).1).1, (h' (h htame).1).2.1, (h htame).2.trans (h' (h htame).1).2.2⟩
  step_of_stop _ h htame := (h htame).2

variable {α β : Type} {site : Site} {s : Analysis}

theorem conduct.assume {result : EStateM.Result Failure Analysis α}
    (h : s.Tame site → (conduct site).Allows s result) : (conduct site).Allows s result := by
  cases result with
  | ok a t | error failure t => exact fun htame => h htame htame

theorem conduct.of_when {fact : Graph → Prop} (hfact : site.Lasts fact) {result : EStateM.Result Failure Analysis α} (hstart : fact s.graph)
    (h : (conduct (site.when fact hfact)).Allows s result) : (conduct site).Allows s result := by
  cases result with
  | ok a t =>
      intro htame
      obtain ⟨hlater, hspares⟩ := h ⟨⟨htame.holds.derived, htame.holds.given, hstart⟩, htame.symbols, htame.concats⟩
      exact ⟨⟨⟨hlater.holds.derived, hlater.holds.given.1⟩, hlater.symbols, hlater.concats⟩, hspares⟩
  | error failure t =>
      intro htame
      obtain ⟨hmark, hlater, hspares⟩ :=
        h ⟨⟨htame.holds.derived, htame.holds.given, hstart⟩, htame.symbols, htame.concats⟩
      exact ⟨hmark, ⟨⟨hlater.holds.derived, hlater.holds.given.1⟩, hlater.symbols, hlater.concats⟩, hspares⟩

theorem tame_of_draft {draft : Draft} (h : s.Tame site) (hholds : site.Holds draft.graph)
    (hspares : Graph.Spares site.origin site.low site.middle s.graph draft.graph) :
    Analysis.Tame site { s with toDraft := draft } :=
  ⟨hholds, h.symbols.mono hspares, h.concats⟩

theorem allows_lift {x : Draft.Action α} (h : s.Tame site → (Draft.conduct site).Allows s.toDraft (x s.toDraft)) :
    (conduct site).Allows s ((liftM x : Check α) s) := by
  refine conduct.assume fun htame => ?_
  have hallows := h htame
  cases hx : x s.toDraft with
  | ok a draft =>
      rw [lift_eq_ok.2 ⟨draft, hx, rfl⟩]
      rw [hx] at hallows
      obtain ⟨hholds, hspares⟩ := hallows htame.holds
      exact fun _ => ⟨tame_of_draft htame hholds hspares, hspares⟩
  | error failure draft =>
      rw [lift_eq_error.2 ⟨draft, hx, rfl⟩]
      rw [hx] at hallows
      obtain ⟨hmark, hholds, hspares⟩ := hallows htame.holds
      exact fun _ => ⟨hmark, tame_of_draft htame hholds hspares, hspares⟩

instance {x : Draft.Action α} [h : Obeys (Draft.conduct site) x] : Obeys (conduct site) (liftM x : Check α) :=
  ⟨fun s => allows_lift fun _ => h.allows s.toDraft⟩

theorem conduct.getField_bind {value : Value} {field : Field} {f : Value → Check α} (hf : ∀ s found,
      s.Tame site → s.graph.fieldOf? value field = some found → (conduct site).Allows s (f found s)) :
    Obeys (conduct site) (liftM (Draft.getField value field) >>= f) := by
  refine ⟨fun s => conduct.assume fun htame => ?_⟩
  refine Rule.Allows.bind ((inferInstance : Obeys (conduct site) (liftM (Draft.getField value field))).allows s) ?_
  intro found t hrun
  obtain ⟨hget, rfl⟩ := lift_getField_eq_ok.1 hrun
  exact hf s found htame hget

theorem conduct.isKind_bind {value : Value} {kind : Kind} {f : Bool → Check α} (hf : ∀ s holds,
      s.Tame site → s.graph.isKind kind value = holds → (conduct site).Allows s (f holds s)) :
    Obeys (conduct site) (liftM (Draft.isKind kind value) >>= f) := by
  refine ⟨fun s => conduct.assume fun htame => ?_⟩
  refine Rule.Allows.bind ((inferInstance : Obeys (conduct site) (liftM (Draft.isKind kind value))).allows s) ?_
  intro holds t hrun
  obtain ⟨hkind, rfl⟩ := lift_isKind_eq_ok.1 hrun
  exact hf s holds htame hkind

/-- What only reads keeps everything in order. -/
instance (priority := low) {x : Check α} [h : Obeys reading x] : Obeys (conduct site) x := by
  refine ⟨fun s => ?_⟩
  cases hx : x s with
  | ok a t =>
      obtain ⟨journal, rfl⟩ := h.step hx
      exact fun htame => ⟨⟨htame.holds, htame.symbols, htame.concats⟩, .refl ..⟩
  | error failure t =>
      obtain ⟨hmark, journal, rfl⟩ := h.stop hx
      exact fun htame => ⟨hmark, ⟨htame.holds, htame.symbols, htame.concats⟩, .refl ..⟩

end Check

end Scriptlet
