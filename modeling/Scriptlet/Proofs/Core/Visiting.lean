import Scriptlet.Proofs.Check.Reading
import Scriptlet.Proofs.Core.Checking
import Scriptlet.Proofs.Core.Statements

/-!
What the analysis of statements does.  It declares the variables of a program in a scope for each block,
numbered in the order in which blocks start, and where it comes to its end, types are as generation
needs them.
-/

namespace Scriptlet.Core

/-! ### Growing tables -/

/-- New scopes have come behind those of the table, some of them directly inside the current one. -/
structure Widened (table table' : ScopeTable) (size blocks : Nat) : Prop where
  layout : Extends table table'
  path : table'.path = table.path
  entered : table'.entered = table.entered
  size : table'.scopes.size = table.scopes.size + size
  children : (table'.scope table.current).children.length = (table.scope table.current).children.length + blocks
  others : ∀ i, i < table.scopes.size → i ≠ table.current → (table'.scope i).children = (table.scope i).children

section Widened

variable {table table' table₁ table₂ : ScopeTable} {size blocks size' blocks' : Nat}

theorem Widened.of_reshaped (h : Reshaped table table') : Widened table table' 0 0 :=
  ⟨h.layout, h.path, h.entered, h.size, by rw [h.children, Nat.add_zero], fun i _ _ => h.children i⟩

theorem Widened.refl (table : ScopeTable) : Widened table table 0 0 :=
  .of_reshaped (Reshaped.refl table)

theorem Widened.current (h : Widened table table' size blocks) : table'.current = table.current := by
  simp [ScopeTable.current, h.path]

theorem Widened.trans (h : Widened table table₁ size blocks) (h₁ : Widened table₁ table' size' blocks') :
    Widened table table' (size + size') (blocks + blocks') := by
  refine ⟨h.layout.trans h₁.layout, h₁.path.trans h.path, h₁.entered.trans h.entered, ?_, ?_, fun i hi hne => ?_⟩
  · rw [h₁.size, h.size, Nat.add_assoc]
  · rw [← h.current, h₁.children, h.current, h.children, Nat.add_assoc]
  · rw [h₁.others i (by rw [h.size]; omega) (by rwa [h.current]), h.others i hi hne]

/-- A block adds one scope to the current one. -/
theorem Widened.block (hlt : table.current < table.scopes.size) (h : Widened table.createScope table₁ size blocks)
    (hexit : table₁.exitScope = .ok table') :
    Widened table table' (size + 1) 1 ∧
      (table'.scope table.current).children[(table.scope table.current).children.length]? = some table.scopes.size := by
  obtain ⟨inner, outer, rest, hpath, rfl⟩ := ScopeTable.exitScope_eq_ok.1 hexit
  have hcreated := fun i => (table.scope_createScope i).2 hlt
  have hsymbols := fun i => (table.scope_createScope i).1
  have hcurrent : table.createScope.current = table.scopes.size := rfl
  -- The scopes that were there before are not inside the new one.
  have hold : ∀ i, i < table.scopes.size → (table₁.scope i).children = (table.createScope.scope i).children :=
    fun i hi => h.others i (by rw [ScopeTable.size_createScope]; omega) (by rw [hcurrent]; omega)
  have hself : (table₁.scope table.current).children = (table.scope table.current).children ++ [table.scopes.size] := by
    rw [hold _ hlt, hcreated, if_pos rfl]
  have hextends : Extends table table.createScope := by
    refine ⟨fun i name hsome => by rwa [hsymbols], fun i child index hchild => ?_⟩
    rw [hcreated]
    split
    · rw [List.getElem?_append_left (List.getElem?_eq_some_iff.1 hchild).1]
      exact hchild
    · exact hchild
  refine ⟨⟨(hextends.trans h.layout).trans (Extends.of_scopes rfl), ?_, ?_, ?_, ?_, fun i hi hne => ?_⟩, ?_⟩
  · have hrest := h.path
    rw [hpath] at hrest
    exact (List.cons.inj hrest).2
  · rw [h.entered]
    rfl
  · show table₁.scopes.size = _
    rw [h.size, ScopeTable.size_createScope]
    omega
  · show (table₁.scope table.current).children.length = _
    rw [hself, List.length_append, List.length_singleton]
  · show (table₁.scope i).children = _
    rw [hold i hi, hcreated, if_neg hne]
  · show (table₁.scope table.current).children[_]? = _
    rw [hself, List.getElem?_concat_length]

end Widened

/-! ### Steps of the analysis -/

/-- The state of the analysis has moved on by some scopes. -/
structure Moved (typeAt : NodeId → Option Ty) (size blocks : Nat) (a a' : Analysis) : Prop where
  marked : Marked typeAt a.graph a'.graph
  concats : a'.concats = a.concats
  widened : Widened a.table a'.table size blocks

/-- The number of inner scopes of the current scope. -/
def width (table : ScopeTable) : Nat :=
  (table.scope table.current).children.length

theorem width_createScope {table : ScopeTable} (hlt : table.current < table.scopes.size) :
    width table.createScope = 0 := by
  have hnew : table.scope table.scopes.size = default := by simp [ScopeTable.scope]
  show (table.createScope.scope table.scopes.size).children.length = 0
  rw [(table.scope_createScope _).2 hlt, if_neg (by omega), hnew]
  rfl

/-- What is asked of a part of a program before it is analysed. -/
structure Part.Tidy (part : Part) (graph : Graph) : Prop where
  stands : part.Stands graph
  noted : ∀ id ∈ part.ids, Noted graph id

/-- What the analysis finds when it comes to a part of a program. -/
structure Part.Reached (part : Part) (typeAt : NodeId → Option Ty) (types : Types) (a : Analysis) : Prop where
  tidy : part.Tidy a.graph
  known : Known a.graph a.table types
  fair : Fair typeAt (part.reads types) a.graph

/-- What the analysis of a part of a program comes to. -/
structure Part.Checked (part : Part) (typeAt : NodeId → Option Ty) (types after : Types) (a a' : Analysis) : Prop where
  moved : Moved typeAt part.size part.blocks a a'
  known : Known a'.graph a'.table after
  placed : part.Placed a'.table a.table.current (width a.table) a.table.scopes.size
  sound : part.Sound types
  annotated : Annotated (part.reads types) a'.graph

section Moved

variable {typeAt : NodeId → Option Ty} {size blocks size' blocks' : Nat} {a a' a₁ : Analysis}

theorem Moved.trans (h : Moved typeAt size blocks a a₁) (h₁ : Moved typeAt size' blocks' a₁ a') :
    Moved typeAt (size + size') (blocks + blocks') a a' :=
  ⟨h.marked.trans h₁.marked, h₁.concats.trans h.concats, h.widened.trans h₁.widened⟩

theorem Seen.moved (h : Seen typeAt a a') : Moved typeAt 0 0 a a' := by
  refine ⟨h.marked, by rw [h.state], ?_⟩
  rw [h.table]
  exact Widened.refl a.table

theorem moved_of_reshaped {table : ScopeTable} (h : Reshaped a.table table) : Moved typeAt 0 0 a { a with table } :=
  ⟨Marked.refl _ _, rfl, .of_reshaped h⟩

theorem Moved.retyped (h : Moved typeAt size blocks a a') : Retyped a.graph a'.graph :=
  h.marked.retyped

theorem Moved.width (h : Moved typeAt size blocks a a') : width a'.table = width a.table + blocks := by
  unfold Core.width
  rw [h.widened.current, h.widened.children]

end Moved

/-! ### The expressions of a program -/

/-- What holds of the expressions of any part of a program. -/
structure Regular (stands : Graph → Prop) (ids : List NodeId) (reads shows : Types → List (NodeId × Option Ty)) :
    Prop where
  retyped : ∀ {graph graph'}, Retyped graph graph' → stands graph → stands graph'
  plain : ∀ {graph}, stands graph → ∀ id ∈ ids, (graph.node id).kind ≠ .plain
  /-- Variables are read at references. -/
  references : ∀ {graph}, stands graph → ∀ types, ∀ entry ∈ reads types, (graph.node entry.1).kind = .reference
  /-- Every place where a variable is read is a node of the program, and comes up once. -/
  ids_reads : ∀ types, ((reads types).map Prod.fst).Sublist ids
  /-- A variable that is shown is read. -/
  shows_reads : ∀ types, (shows types).Sublist (reads types)

theorem Expr.ids_reads : ∀ (e : Expr) (types : Types), ((e.reads types).map Prod.fst).Sublist e.ids
  | .int .., _ | .bool .., _ => List.nil_sublist _
  | .var .., _ => List.Sublist.refl _
  | .neg _ operand, types | .not _ operand, types => (operand.ids_reads types).cons _
  | .arith _ _ left right, types | .compare _ _ left right, types | .logic _ _ left right, types => by
      rw [Expr.reads, List.map_append]
      exact ((left.ids_reads types).append (right.ids_reads types)).cons _

theorem Expr.Stands.references {graph : Graph} {types : Types} :
    ∀ {e : Expr}, e.Stands graph → ∀ entry ∈ e.reads types, (graph.node entry.1).kind = .reference
  | .int .., _ | .bool .., _ => nofun
  | .var .., hshown => List.forall_mem_singleton.2 hshown.kind
  | .neg .., ⟨_, hoperand⟩ | .not .., ⟨_, hoperand⟩ => hoperand.references
  | .arith .., ⟨_, hleft, hright⟩ | .compare .., ⟨_, hleft, hright⟩ | .logic .., ⟨_, hleft, hright⟩ =>
      List.forall_mem_append.2 ⟨hleft.references, hright.references⟩

theorem Expr.regular (e : Expr) : Regular e.Stands e.ids e.reads e.shows :=
  ⟨fun h hstands => hstands.retyped h, fun hstands => hstands.kind_ne_plain, fun hstands _ => hstands.references,
    e.ids_reads, fun types => by cases e <;> first | exact List.Sublist.refl _ | exact List.nil_sublist _⟩

section Regular

variable {stands stands' : Graph → Prop} {ids ids' : List NodeId} {reads shows reads' shows' : Types → List (NodeId × Option Ty)}

theorem Regular.silent (h : Regular stands ids reads shows) : Regular stands ids reads fun _ => [] :=
  { h with shows_reads := fun _ => List.nil_sublist _ }

theorem Regular.shown {kind : Kind} {fields : List (Field × Value)} (h : Regular stands ids reads shows) (id : NodeId)
    (hplain : kind ≠ .plain := by simp) (hnotes : ∀ entry ∈ fields, ¬ IsNote kind entry.1 := by simp [IsNote]) :
    Regular (fun graph => Shown graph id kind fields ∧ stands graph) ids reads shows :=
  ⟨fun hretyped hstands => ⟨hretyped.shown hstands.1 hplain hnotes, h.retyped hretyped hstands.2⟩,
    fun hstands => h.plain hstands.2, fun hstands => h.references hstands.2, h.ids_reads, h.shows_reads⟩

theorem Regular.inside (h : Regular stands ids reads shows) (inner : Types → Types) :
    Regular stands ids (fun types => reads (inner types)) fun types => shows (inner types) :=
  ⟨h.retyped, h.plain, fun hstands types => h.references hstands (inner types), fun types => h.ids_reads (inner types),
    fun types => h.shows_reads (inner types)⟩

theorem Regular.append (h : Regular stands ids reads shows) (h' : Regular stands' ids' reads' shows') :
    Regular (fun graph => stands graph ∧ stands' graph) (ids ++ ids') (fun types => reads types ++ reads' types)
      fun types => shows types ++ shows' types where
  retyped hretyped hstands := ⟨h.retyped hretyped hstands.1, h'.retyped hretyped hstands.2⟩
  plain hstands := List.forall_mem_append.2 ⟨h.plain hstands.1, h'.plain hstands.2⟩
  references hstands types := List.forall_mem_append.2 ⟨h.references hstands.1 types, h'.references hstands.2 types⟩
  ids_reads types := by
    rw [List.map_append]
    exact (h.ids_reads types).append (h'.ids_reads types)
  shows_reads types := (h.shows_reads types).append (h'.shows_reads types)

theorem regular_nothing : Regular (fun _ => True) [] (fun _ => []) fun _ => [] :=
  ⟨fun _ => id, nofun, nofun, fun _ => List.Sublist.refl _, fun _ => List.Sublist.refl _⟩

theorem regular_branch (condition : Expr) (hbody : Regular stands ids reads shows)
    (hrest : Regular stands' ids' reads' shows') :
    Regular (fun graph => condition.Stands graph ∧ stands graph ∧ stands' graph) (condition.ids ++ ids ++ ids')
      (fun types => condition.reads types ++ reads types ++ reads' types) fun types => shows types ++ shows' types := by
  simpa only [List.append_assoc, List.nil_append] using condition.regular.silent.append (hbody.append hrest)

end Regular

mutual

theorem Stmt.regular : ∀ stmt : Stmt, Regular stmt.Stands stmt.ids stmt.reads stmt.shows
  | .declare id _ value | .assign id _ value => value.regular.silent.shown id
  | .print id argument value => (value.regular.shown argument).shown id
  | .block body => body.regular
  | .cond id condition body rest => (regular_branch condition body.regular rest.regular).shown id
  | .loop id condition body => (condition.regular.silent.append body.regular).shown id
  | .breakOut _ => { regular_nothing with retyped := fun h => h.shown, plain := nofun, references := nofun }

theorem Block.regular : ∀ body : Block, Regular body.Stands body.ids body.reads body.shows
  | .mk id statements => (statements.regular.inside ([] :: ·)).shown id

theorem Stmts.regular : ∀ statements : Stmts, Regular statements.Stands statements.ids statements.reads statements.shows
  | .nil => regular_nothing
  | .cons head tail => head.regular.append (tail.regular.inside head.typesAfter)

theorem Branches.regular : ∀ branches : Branches, Regular branches.Stands branches.ids branches.reads branches.shows
  | .none => regular_nothing
  | .otherwise body => body.regular
  | .elif condition body rest => regular_branch condition body.regular rest.regular

end

section Tidy

variable {part : Part} (hregular : Regular part.Stands part.ids part.reads part.shows)

include hregular

theorem Part.Tidy.retyped {graph graph' : Graph} (h : part.Tidy graph) (hretyped : Retyped graph graph') :
    part.Tidy graph' :=
  ⟨hregular.retyped hretyped h.stands, fun id hid => hretyped.noted id (hregular.plain h.stands id hid) (h.noted id hid)⟩

theorem Part.Reached.seen {typeAt : NodeId → Option Ty} {types : Types} {a a' : Analysis}
    (h : part.Reached typeAt types a) (hseen : Seen typeAt a a') : part.Reached typeAt types a' :=
  ⟨h.tidy.retyped hregular hseen.retyped, hseen.known h.known, h.fair.marked hseen.marked⟩

end Tidy

section Looking

variable {a a' : Analysis} {value : Value}

theorem isStatic_state {found : Value} (h : Check.isStatic value a = .ok found a') : a' = a :=
  (inferInstance : Obeys looking (Check.isStatic value)).step h

theorem lineOf_state {node : Value} {line : Scalar} (h : Check.lineOf node a = .ok line a') : a' = a :=
  (inferInstance : Obeys looking (Check.lineOf node)).step h

end Looking

/-! ### Simple statements -/

def Stmt.Checks (stmt : Stmt) : Prop :=
  ∀ ⦃typeAt depth a a' u types⦄, stmt.part.Reached typeAt types a → Check.visitWithin depth stmt.value a = .ok u a' →
    stmt.part.Checked typeAt types (stmt.typesAfter types) a a'

section Simple

variable {typeAt : NodeId → Option Ty} {types : Types} {e : Expr} {a a' a₁ : Analysis} {u : Unit} {id : NodeId}
  {name : String} {depth : Nat}
variable {type : Value}

/-- The type of a node that holds an expression is that of the expression. -/
theorem typeOf_holder {kind : Kind} {fields : List (Field × Value)} (hshown : Shown a.graph id kind fields)
    (hkind : kind = .declaration ∨ kind = .update) (hvalue : (Field.value, e.value) ∈ fields) (htidy : e.Tidy a.graph)
    (hfitting : e.Fitting types) (hannotated : Annotated (e.reads types) a.graph)
    (h : (liftM (Draft.typeOf (.node id)) : Check Value) a = .ok type a') :
    type = typeValue (e.typeIn types) ∧ ∃ draft, a' = { a with toDraft := draft } ∧ Cached a.toDraft draft := by
  obtain ⟨draft, htype, rfl⟩ := lift_eq_ok.1 h
  have hget : (a.graph.node id).get .value = e.value := Node.get_of_get? (hshown.fields _ hvalue)
  unfold Draft.typeOf at htype
  obtain ⟨n, hdepth⟩ := typeWithin_node htype
  rw [hdepth] at htype
  have hinner : Draft.typeWithin n e.value a.toDraft = .ok type draft := by
    simp only [Draft.typeWithin, bind_eq_ok, Draft.currentGraph_eq_ok, draft_analysis] at htype
    obtain ⟨_, _, ⟨rfl, rfl⟩, htype⟩ := htype
    have hgiven : e.value.isNull = false := rfl
    rcases hkind with rfl | rfl
    · simpa only [hshown.kind, hget, hgiven, Bool.false_eq_true, if_false] using htype
    · simpa only [hshown.kind, hget, hgiven, Bool.false_eq_true, if_false] using htype
  obtain ⟨hcached, read, rfl, hreads⟩ := e.readable _ _ _ _ htidy hinner
  exact ⟨by rw [hreads.eq_reading (hfitting.settled hannotated), hannotated.reading], draft, rfl, hcached⟩

theorem declaredType_ok {name found : Value} {fields : List (Field × Value)}
    (hshown : Shown a.graph id .declaration fields) (hfield : (Field.declaredType, Value.null) ∈ fields)
    (h : Check.declaredType (.node id) name type a = .ok found a') : found = type ∧ a' = a := by
  simp only [Check.declaredType, bind_eq_ok, Check.attribute_eq_ok] at h
  obtain ⟨_, _, ⟨hdeclared, rfl⟩, h⟩ := h
  obtain rfl := hshown.get_eq hdeclared hfield
  obtain ⟨rfl, rfl⟩ := pure_eq_ok.1 h
  exact ⟨rfl, rfl⟩

theorem checks_break (id : NodeId) : (Stmt.breakOut id).Checks := by
  intro typeAt depth a a' u types ⟨htidy, hknown, hfair⟩ hvisit
  obtain ⟨n, h⟩ := Check.visitWithin_kind htidy.stands.kind hvisit
  obtain ⟨-, rfl⟩ := pure_eq_ok.1 h
  exact ⟨(Seen.refl typeAt a).moved, hknown, trivial, trivial, by simp [Stmt.part, Stmt.reads, Annotated]⟩

theorem checks_declare (id : NodeId) (name : String) (value : Expr) : (Stmt.declare id name value).Checks := by
  intro typeAt depth a a' u types ⟨htidy, hknown, hfair⟩ hvisit
  obtain ⟨hshown, hstands⟩ := htidy.stands
  have htidyValue : value.Tidy a.graph := ⟨hstands, htidy.noted⟩
  obtain ⟨n, h⟩ := Check.visitWithin_kind hshown.kind hvisit
  simp only [Check.visitNode, Check.visitDeclaration, bind_eq_ok, Check.attribute_eq_ok, Check.table_eq_ok, Check.refuses_ite] at h
  obtain ⟨_, _, ⟨hname, rfl⟩, _, _, ⟨rfl, rfl⟩, -, _, _, ⟨hvalue, rfl⟩, _, a₁, hvisitValue, type, a₂, htype,
    _, _, hdeclared, _, _, ⟨hvalue₂, rfl⟩, _, _, hstatic, _, _, ⟨hsaid, rfl⟩, hadd⟩ := h
  obtain rfl : _ = Value.text name := hshown.get_eq hname
  obtain rfl : _ = value.value := hshown.get_eq hvalue
  obtain ⟨hseen, hfits, hannotated⟩ := value.checks ⟨htidyValue, hknown, hfair⟩ hvisitValue
  have hshown₁ := hseen.retyped.shown hshown
  have htidy₁ := htidyValue.retyped hseen.retyped
  obtain ⟨rfl, draft, rfl, hcached⟩ := typeOf_holder hshown₁ (Or.inl rfl) (by simp) htidy₁ hfits hannotated htype
  have hshown₂ := hcached.retyped.shown hshown₁
  obtain ⟨rfl, rfl⟩ := declaredType_ok hshown₂ (by simp) hdeclared
  obtain rfl := isStatic_state hstatic
  obtain rfl : _ = value.value := hshown₂.get_eq hvalue₂
  obtain rfl : _ = Value.null := hshown₂.get_eq hsaid
  have hall := hseen.trans (seen_of_cached typeAt hcached)
  obtain ⟨table, hadded, rfl⟩ := Check.changeTable_eq_ok.1 hadd
  obtain ⟨hknown', hreshaped, hhere⟩ := (hall.known hknown).declare hadded
    (fun _ => ⟨rfl, rfl, _, value.value, rfl, rfl, rfl, isOrdinary_value (htidyValue.retyped hall.retyped), rfl⟩) rfl
  rw [hall.table] at hhere
  refine ⟨hall.moved.trans (moved_of_reshaped hreshaped), hknown', hhere, hfits.sound, ?_⟩
  exact fun entry hentry => (hcached.noted entry.1).trans (hannotated entry hentry)

theorem seen_call (hkind : (a.graph.node id).kind = .call)
    (h : (liftM (Draft.setField (.node id) .type type) : Check Unit) a = .ok u a') : Seen typeAt a a' := by
  rw [lift_setField_eq_ok] at h
  obtain rfl := h
  refine ⟨rfl, retyped_setField (by simp [hkind, IsNote]) (by simp [MaySay, hkind]), fun other hother => Or.inl ?_⟩
  have hne : other ≠ id := by
    rintro rfl
    simp [hkind] at hother
  exact noted_setField_of_ne hne

theorem checkArguments_print {call parameter argument : NodeId}
    (hparameter : Shown a.graph parameter .parameter [(.type, .text TypeName.any)])
    (hargument : Shown a.graph argument .argument [(.value, e.value)]) (hreached : e.Reached typeAt types a)
    (h : Check.checkArguments (Check.visitWithin depth) (.node call) [.node argument] [.node parameter] a = .ok u a') :
    Seen typeAt a a' ∧ e.Fitting types ∧ Annotated (e.reads types) a'.graph := by
  simp only [Check.checkArguments, bind_eq_ok, Check.attribute_eq_ok] at h
  obtain ⟨_, a₁, hvisit, _, _, ⟨htype, rfl⟩, h⟩ := h
  obtain ⟨n, hvisit⟩ := Check.visitWithin_kind hargument.kind hvisit
  simp only [Check.visitNode, bind_eq_ok, Check.attribute_eq_ok] at hvisit
  obtain ⟨_, _, ⟨hvalue, rfl⟩, hvisit⟩ := hvisit
  obtain rfl : _ = e.value := hargument.get_eq hvalue
  obtain ⟨hseen, hfits, hannotated⟩ := e.checks hreached hvisit
  have hparameter₁ := hseen.retyped.shown hparameter
  obtain rfl : _ = Value.text TypeName.any := hparameter₁.get_eq htype
  obtain ⟨-, rfl⟩ := pure_eq_ok.1 h
  exact ⟨hseen, hfits, hannotated⟩

theorem checks_print (id argument : NodeId) (value : Expr) : (Stmt.print id argument value).Checks := by
  intro typeAt depth a a' u types ⟨htidy, hknown, hfair⟩ hvisit
  obtain ⟨hshown, hargument, hstands⟩ := htidy.stands
  have htidyValue : value.Tidy a.graph := ⟨hstands, htidy.noted⟩
  obtain ⟨n, h⟩ := Check.visitWithin_kind hshown.kind hvisit
  simp only [Check.visitNode, Check.visitCall, bind_eq_ok, Check.attribute_eq_ok] at h
  obtain ⟨_, _, ⟨hname, rfl⟩, h⟩ := h
  obtain rfl : _ = Value.text "print" := hshown.get_eq hname
  rw [if_neg (by decide)] at h
  simp only [bind_eq_ok, Check.table_eq_ok] at h
  obtain ⟨_, _, ⟨rfl, rfl⟩, h⟩ := h
  rw [show Check.nameText (.text "print") = "print" from rfl] at h
  cases hfound : a.table.lookup? "print" with
  | none =>
      simp only [hfound] at h
      exact absurd h (Refuses.ne_ok _ _ _)
  | some symbol =>
      simp only [hfound, bind_eq_ok, Check.attribute_eq_ok, orFail_eq_ok,
        Check.ite_refuses] at h
      obtain ⟨_, _, ⟨-, rfl⟩, _, _, ⟨harity, rfl⟩, -, _, _, ⟨hargs, rfl⟩, _, _, harguments, _, _, ⟨hentry, rfl⟩, _, _,
        hparameters, _, a₁, hcheck, _, _, ⟨-, rfl⟩, h⟩ := h
      -- A variable of that name is not a function.
      rcases hknown.lookup hfound with ⟨ty, -, hdeclares⟩ | ⟨-, hforeign⟩
      · rw [hdeclares.noFunction] at harity
        cases harity
      · obtain ⟨entries, parameter, hdata, hlist, hparameter⟩ := hforeign.print rfl
        rw [hdata, Symbol.entry_record hlist] at hentry
        obtain rfl := Except.ok.inj hentry
        obtain rfl : _ = Value.list [.node argument] := hshown.get_eq hargs
        simp only [lift_itemsOf_list_eq_ok] at harguments hparameters
        obtain ⟨rfl, rfl⟩ := harguments
        obtain ⟨rfl, rfl⟩ := hparameters
        obtain ⟨hseen, hfits, hannotated⟩ := checkArguments_print hparameter hargument ⟨htidyValue, hknown, hfair⟩ hcheck
        have hkind : (a₁.graph.node id).kind = .call := (hseen.retyped.shown hshown).kind
        have hseen₁ : Seen typeAt a₁ a' := seen_call hkind h
        have hall := hseen.trans hseen₁
        exact ⟨hall.moved, hall.known hknown, trivial, hfits.sound,
          hannotated.marked (hfair.marked hseen.marked) hseen₁.marked⟩

/-- An update records a value, but never another type. -/
theorem recordUpdate_ok (hshown : Shown a.graph id .update [(.name, .text name), (.value, e.value)])
    (htidy : e.Tidy a.graph) (hknown : Known a.graph a.table types)
    (h : Check.recordUpdate (.node id) (.text name) type a = .ok u a') :
    ∃ table, a' = { a with table } ∧ Known a.graph table types ∧ Reshaped a.table table := by
  have hkey : Check.nameText (.text name) = name := rfl
  simp only [Check.recordUpdate, bind_eq_ok, Check.table_eq_ok, hkey] at h
  obtain ⟨_, _, ⟨rfl, rfl⟩, h⟩ := h
  cases hfound : a.table.lookup? name with
  | none =>
      simp only [hfound] at h
      exact absurd h fail_ne_ok
  | some symbol =>
      simp only [hfound] at h
      rcases hknown.lookup hfound with ⟨ty, -, hdeclares⟩ | ⟨-, hforeign⟩
      · have hentry : Symbol.entry symbol.variableData "annotated" = .ok (.bool false) := by
          obtain ⟨-, -, entries, -, hdata, -, -, -, hannotated⟩ := hdeclares
          rw [hdata, Symbol.entry_record hannotated]
        simp only [hdeclares.isVariable, if_true, bind_eq_ok, hentry, orFail_eq_ok, Except.ok.injEq] at h
        obtain ⟨_, _, ⟨rfl, rfl⟩, h⟩ := h
        simp only [bind_eq_ok, Check.attribute_eq_ok] at h
        obtain ⟨_, _, ⟨hvalue, rfl⟩, _, _, hstatic, h⟩ := h
        obtain rfl : _ = e.value := hshown.get_eq hvalue
        obtain rfl := isStatic_state hstatic
        split at h
        · simp only [bind_eq_ok, Check.table_eq_ok, Check.setTable_eq_ok, orFail_eq_ok] at h
          obtain ⟨_, _, ⟨rfl, rfl⟩, _, _, rfl, -, rfl⟩ := h
          obtain ⟨hknown', hreshaped⟩ := hknown.update hfound hdeclares (Or.inr (isOrdinary_value htidy))
          exact ⟨_, rfl, hknown', hreshaped⟩
        · simp only [bind_eq_ok, Check.table_eq_ok, Check.setTable_eq_ok, orFail_eq_ok] at h
          obtain ⟨data, _, ⟨hdata, rfl⟩, _, _, ⟨rfl, rfl⟩, _, _, rfl, _, _, ⟨rfl, rfl⟩, _, _, rfl, -, rfl⟩ := h
          have hchanged := hdeclares.withEntry (Or.inl rfl) hdata symbol.updatedType
          have hknown₁ := hknown.setSymbol hfound hdeclares hchanged
            (show symbol.reference = none from hknown.reference hfound)
          obtain ⟨hknown₂, hreshaped⟩ :=
            hknown₁.update (ScopeTable.lookup?_setSymbol hfound) hchanged (Or.inl rfl)
          exact ⟨_, rfl, hknown₂, (reshaped_setSymbol _ _ _).trans hreshaped⟩
      · rw [hforeign.noVariable, hforeign.noParameter] at h
        obtain ⟨-, rfl⟩ := pure_eq_ok.1 h
        exact ⟨a.table, rfl, hknown, Reshaped.refl _⟩

theorem checks_assign (id : NodeId) (name : String) (value : Expr) : (Stmt.assign id name value).Checks := by
  intro typeAt depth a a' u types ⟨htidy, hknown, hfair⟩ hvisit
  obtain ⟨hshown, hstands⟩ := htidy.stands
  have htidyValue : value.Tidy a.graph := ⟨hstands, htidy.noted⟩
  obtain ⟨n, h⟩ := Check.visitWithin_kind hshown.kind hvisit
  simp only [Check.visitNode, Check.visitUpdate, bind_eq_ok, Check.attribute_eq_ok, Check.table_eq_ok, Check.refuses_ite] at h
  obtain ⟨_, _, ⟨hname, rfl⟩, _, _, ⟨rfl, rfl⟩, -, _, _, ⟨hvalue, rfl⟩, _, a₁, hvisitValue, type, a₂, htype, -,
    _, _, hline, h⟩ := h
  obtain rfl : _ = Value.text name := hshown.get_eq hname
  obtain rfl : _ = value.value := hshown.get_eq hvalue
  obtain ⟨hseen, hfits, hannotated⟩ := value.checks ⟨htidyValue, hknown, hfair⟩ hvisitValue
  have hshown₁ := hseen.retyped.shown hshown
  obtain ⟨rfl, draft, rfl, hcached⟩ :=
    typeOf_holder hshown₁ (Or.inr rfl) (by simp) (htidyValue.retyped hseen.retyped) hfits hannotated htype
  have hall := hseen.trans (seen_of_cached typeAt hcached)
  obtain rfl := lineOf_state hline
  rcases handling_eq_ok.1 h with hrecord | ⟨failure, _, -, -, hannounce⟩
  · obtain ⟨table, rfl, hknown', hreshaped⟩ := recordUpdate_ok (hcached.retyped.shown hshown₁)
      (htidyValue.retyped hall.retyped) (hall.known hknown) hrecord
    refine ⟨hall.moved.trans (moved_of_reshaped hreshaped), hknown', trivial, hfits.sound, ?_⟩
    exact fun entry hentry => (hcached.noted entry.1).trans (hannotated entry hentry)
  · exact absurd hannounce (Refuses.ne_ok _ _ _)

end Simple

/-! ### Lists of statements, and blocks -/

def Stmts.Checks (statements : Stmts) : Prop :=
  ∀ ⦃typeAt depth a a' u types⦄, statements.part.Reached typeAt types a →
    (forIn statements.values PUnit.unit fun statement _ => do
      unless statement.isNull do Check.visitWithin depth statement
      pure (ForInStep.yield PUnit.unit) : Check PUnit) a = .ok u a' →
    ∃ after, after.tail = types.tail ∧ statements.part.Checked typeAt types after a a'

def Block.Checks (body : Block) : Prop :=
  ∀ ⦃typeAt depth a a' u types⦄, body.part.Reached typeAt types a → Check.visitWithin depth body.value a = .ok u a' →
    body.part.Checked typeAt types types a a'

section Lists

theorem Stmts.Tidy.cons {graph : Graph} {head : Stmt} {tail : Stmts} (h : (Stmts.cons head tail).part.Tidy graph) :
    head.part.Tidy graph ∧ tail.part.Tidy graph := by
  obtain ⟨hstands, hnoted⟩ := h
  exact ⟨⟨hstands.1, fun id hid => hnoted id (List.mem_append_left _ hid)⟩,
    ⟨hstands.2, fun id hid => hnoted id (List.mem_append_right _ hid)⟩⟩

theorem Stmt.isNull_value (stmt : Stmt) : stmt.value.isNull = false := by
  cases stmt with
  | block body => cases body; rfl
  | _ => rfl

theorem checks_nil : Stmts.nil.Checks := by
  intro typeAt depth a a' u types ⟨htidy, hknown, hfair⟩ h
  simp only [Stmts.values, List.forIn_nil, pure_eq_ok] at h
  obtain ⟨-, rfl⟩ := h
  exact ⟨types, rfl, (Seen.refl typeAt a).moved, hknown, trivial, trivial, by simp [Stmts.part, Stmts.reads, Annotated]⟩

theorem Stmt.tail_typesAfter (stmt : Stmt) (types : Types) : (stmt.typesAfter types).tail = types.tail := by
  cases stmt with
  | declare => cases types <;> rfl
  | _ => rfl

theorem checks_cons {head : Stmt} {tail : Stmts} (hhead : head.Checks) (htail : tail.Checks) :
    (Stmts.cons head tail).Checks := by
  intro typeAt depth a a' u types ⟨htidy, hknown, hfair⟩ h
  obtain ⟨htidyHead, htidyTail⟩ := Stmts.Tidy.cons htidy
  obtain ⟨hfairHead, hfairTail⟩ := Fair.append hfair
  simp only [Stmts.values, List.forIn_cons, bind_eq_ok, head.isNull_value, Bool.false_eq_true, if_false, pure_eq_ok] at h
  obtain ⟨_, _, ⟨_, a₁, hvisit, rfl, rfl⟩, hrest⟩ := h
  have hchecked := hhead ⟨htidyHead, hknown, hfairHead⟩ hvisit
  obtain ⟨after, hafter, hchecked'⟩ := htail ⟨htidyTail.retyped tail.regular hchecked.moved.retyped,
    hchecked.known, hfairTail.marked hchecked.moved.marked⟩ hrest
  have hplaced := hchecked'.placed
  rw [hchecked.moved.widened.current, hchecked.moved.width, hchecked.moved.widened.size] at hplaced
  refine ⟨after, hafter.trans (head.tail_typesAfter types), hchecked.moved.trans hchecked'.moved, hchecked'.known,
    ⟨Stmt.Placed.extend hchecked'.moved.widened.layout hchecked.placed, hplaced⟩, ⟨hchecked.sound, hchecked'.sound⟩, ?_⟩
  exact (hchecked.annotated.marked (hfairHead.marked hchecked.moved.marked) hchecked'.moved.marked).append
    hchecked'.annotated

theorem checks_block {id : NodeId} {statements : Stmts} (hstatements : statements.Checks) :
    (Block.mk id statements).Checks := by
  intro typeAt depth a a' u types ⟨htidy, hknown, hfair⟩ hvisit
  obtain ⟨hshown, hstands⟩ := htidy.stands
  have hreached : statements.part.Reached typeAt ([] :: types) { a with table := a.table.createScope } :=
    ⟨⟨hstands, htidy.noted⟩, hknown.enter, hfair⟩
  obtain ⟨n, h⟩ := Check.visitWithin_kind hshown.kind hvisit
  simp only [Check.visitNode, Check.visitBlock, bind_eq_ok, Check.attribute_eq_ok, Check.table_eq_ok, Check.setTable_eq_ok, Check.changeTable_eq_ok] at h
  obtain ⟨_, _, ⟨rfl, rfl⟩, _, _, rfl, _, _, ⟨hvalues, rfl⟩, _, _, hitems, _, a₁, hloop, table, hexit, rfl⟩ := h
  obtain rfl : _ = Value.list statements.values := hshown.get_eq hvalues
  rw [lift_itemsOf_list_eq_ok] at hitems
  obtain ⟨rfl, rfl⟩ := hitems
  obtain ⟨after, hafter, hchecked⟩ := hstatements hreached hloop
  obtain ⟨hwidened, hchild⟩ := hchecked.moved.widened.block hknown.current_lt hexit
  have hlayout : Extends a₁.table table := by
    obtain ⟨_, _, _, -, rfl⟩ := ScopeTable.exitScope_eq_ok.1 hexit
    exact Extends.of_scopes rfl
  have hleft := hchecked.known.leave hexit
  rw [hafter] at hleft
  refine ⟨⟨hchecked.moved.marked, hchecked.moved.concats, hwidened⟩, hleft, ⟨hchild, ?_⟩, hchecked.sound,
    hchecked.annotated⟩
  have hplaced : statements.Placed a₁.table a.table.scopes.size (width a.table.createScope)
      a.table.createScope.scopes.size := hchecked.placed
  rw [width_createScope hknown.current_lt, ScopeTable.size_createScope] at hplaced
  exact Stmts.Placed.extend hlayout hplaced

end Lists

/-! ### Conditionals and loops -/

/-- The analysis of the branches of a conditional that have a condition. -/
def visitPairs (depth : Nat) (pairs : List Value) : Check PUnit :=
  forIn pairs PUnit.unit fun branch _ => do
    let (condition, block) ← (Draft.pairOf branch : Check (Value × Value))
    Check.visitWithin depth condition
    Check.checkCondition condition
    Check.visitWithin depth block
    pure (ForInStep.yield PUnit.unit)

/-- What the analysis of branches does.  The branch without a condition is looked up, by `rest`, when all
others have been analysed. -/
def Branches.Checks (branches : Branches) : Prop :=
  ∀ ⦃typeAt depth a a₁ a' u v types⦄ (rest : Check Unit), branches.part.Reached typeAt types a →
    visitPairs depth branches.pairs a = .ok u a₁ → rest a₁ = .ok v a' →
    (∀ b, Retyped a.graph b.graph → rest b = .ok v a' →
      (unless branches.last.isNull do Check.visitWithin depth branches.last : Check Unit) b = .ok v a') →
    branches.part.Checked typeAt types types a a'

section Conditionals

variable {typeAt : NodeId → Option Ty} {types : Types} {condition : Expr} {body : Block} {rest : Branches}
  {a a' a₁ a₂ : Analysis} {u : Unit} {id : NodeId} {depth : Nat}

/-- A condition has been analysed, and it is a truth value. -/
structure Guarded (typeAt : NodeId → Option Ty) (types : Types) (condition : Expr) (a a' : Analysis) : Prop where
  seen : Seen typeAt a a'
  sound : condition.typeIn types ≠ some .int ∧ condition.Sound types
  annotated : Annotated (condition.reads types) a'.graph

theorem checkCondition_ok {v : Unit} (hreached : condition.Reached typeAt types a)
    (hvisit : Check.visitWithin depth condition.value a = .ok v a₁)
    (h : Check.checkCondition condition.value a₁ = .ok u a') : Guarded typeAt types condition a a' := by
  obtain ⟨hseen, hfits, hannotated⟩ := condition.checks hreached hvisit
  simp only [Check.checkCondition, bind_eq_ok] at h
  obtain ⟨_, _, htype, h⟩ := h
  obtain ⟨rfl, draft, rfl, hcached⟩ := typeOf_fitting (hreached.seen hseen).tidy hfits hannotated htype
  rw [isText_boolean, Check.ite_refuses, decide_eq_true_eq] at h
  obtain ⟨hbool, h⟩ := h
  obtain ⟨-, rfl⟩ := pure_eq_ok.1 h
  exact ⟨hseen.trans (seen_of_cached typeAt hcached), ⟨by simp [hbool], hfits.sound⟩,
    fun entry hentry => (hcached.noted entry.1).trans (hannotated entry hentry)⟩

theorem Guarded.block (h : Guarded typeAt types condition a a₁) (hfair : Fair typeAt (condition.reads types) a.graph)
    (hbody : body.part.Checked typeAt types types a₁ a') :
    Moved typeAt body.size 1 a a' ∧ body.Placed a'.table a.table.current (width a.table) a.table.scopes.size ∧
      Annotated (condition.reads types ++ body.reads types) a'.graph := by
  have hplaced := hbody.placed
  have hmoved := h.seen.moved.trans hbody.moved
  rw [h.seen.table] at hplaced
  rw [Nat.zero_add, Nat.zero_add] at hmoved
  exact ⟨hmoved, hplaced,
    (h.annotated.marked (hfair.marked h.seen.marked) hbody.moved.marked).append hbody.annotated⟩

theorem lift_pairOf_tuple {first second : Value} {pair : Value × Value}
    (h : (liftM (Draft.pairOf (.tuple [first, second])) : Check (Value × Value)) a = .ok pair a') :
    pair = (first, second) ∧ a' = a := by
  obtain ⟨draft, hpair, rfl⟩ := lift_eq_ok.1 h
  obtain ⟨rfl, rfl⟩ := pure_eq_ok.1 hpair
  exact ⟨rfl, rfl⟩

theorem checks_none : Branches.none.Checks := by
  intro typeAt depth a a₁ a' u v types rest ⟨htidy, hknown, hfair⟩ hpairs hrest hlast
  simp only [visitPairs, Branches.pairs, List.forIn_nil, pure_eq_ok] at hpairs
  obtain ⟨-, rfl⟩ := hpairs
  obtain ⟨-, rfl⟩ := pure_eq_ok.1 (hlast a (Retyped.refl _) hrest)
  exact ⟨(Seen.refl typeAt a).moved, hknown, trivial, trivial, by simp [Branches.part, Branches.reads, Annotated]⟩

theorem Block.isNull_value (body : Block) : body.value.isNull = false := by
  cases body
  rfl

theorem checks_otherwise (hbody : body.Checks) : (Branches.otherwise body).Checks := by
  intro typeAt depth a a₁ a' u v types rest ⟨htidy, hknown, hfair⟩ hpairs hrest hlast
  simp only [visitPairs, Branches.pairs, List.forIn_nil, pure_eq_ok] at hpairs
  obtain ⟨-, rfl⟩ := hpairs
  have hvisit := hlast a (Retyped.refl _) hrest
  rw [show (Branches.otherwise body).last = body.value from rfl, if_neg (by simp [body.isNull_value])] at hvisit
  obtain ⟨hmoved, hknown', hplaced, hsound, hannotated⟩ := hbody ⟨⟨htidy.stands, htidy.noted⟩, hknown, hfair⟩ hvisit
  exact ⟨hmoved, hknown', hplaced, hsound, hannotated⟩

theorem Branches.Tidy.elif {graph : Graph} (h : (Branches.elif condition body rest).part.Tidy graph) :
    condition.Tidy graph ∧ body.part.Tidy graph ∧ rest.part.Tidy graph := by
  obtain ⟨⟨hcondition, hbody, hrest⟩, hnoted⟩ := h
  simp only [Branches.part, Branches.ids, List.mem_append] at hnoted
  exact ⟨⟨hcondition, fun id hid => hnoted id (Or.inl (Or.inl hid))⟩,
    ⟨hbody, fun id hid => hnoted id (Or.inl (Or.inr hid))⟩, ⟨hrest, fun id hid => hnoted id (Or.inr hid)⟩⟩

theorem checked_elif (hguarded : Guarded typeAt types condition a a₁) (hbody : body.part.Checked typeAt types types a₁ a₂)
    (hrest : rest.part.Checked typeAt types types a₂ a')
    (hfair : Fair typeAt ((Branches.elif condition body rest).reads types) a.graph) :
    (Branches.elif condition body rest).part.Checked typeAt types types a a' := by
  obtain ⟨hfair₁, hfairRest⟩ := Fair.append hfair
  obtain ⟨hfairCondition, hfairBody⟩ := hfair₁.append
  obtain ⟨hmoved, hplaced, hannotated⟩ := hguarded.block hfairCondition hbody
  have hplacedRest := hrest.placed
  rw [hmoved.widened.current, hmoved.width, hmoved.widened.size] at hplacedRest
  exact ⟨hmoved.trans hrest.moved, hrest.known,
    ⟨Block.Placed.extend hrest.moved.widened.layout hplaced, hplacedRest⟩,
    ⟨hguarded.sound, hbody.sound, hrest.sound⟩,
    (hannotated.marked (hfair₁.marked hmoved.marked) hrest.moved.marked).append hrest.annotated⟩

theorem checks_elif (hbody : body.Checks) (hrest : rest.Checks) : (Branches.elif condition body rest).Checks := by
  intro typeAt depth a a₁ a' u v types last ⟨htidy, hknown, hfair⟩ hpairs hlastRun hlast
  obtain ⟨htidyCondition, htidyBody, htidyRest⟩ := Branches.Tidy.elif htidy
  obtain ⟨hfair₁, hfairRest⟩ := Fair.append hfair
  obtain ⟨hfairCondition, hfairBody⟩ := hfair₁.append
  simp only [visitPairs, Branches.pairs, List.forIn_cons, bind_eq_ok] at hpairs
  obtain ⟨_, _, ⟨pair, _, hpair, _, a₂, hvisit, _, a₃, hcheck, _, a₄, hvisitBody, hyield⟩, hpairs⟩ := hpairs
  obtain ⟨rfl, rfl⟩ := lift_pairOf_tuple hpair
  obtain ⟨rfl, rfl⟩ := pure_eq_ok.1 hyield
  have hguarded := checkCondition_ok ⟨htidyCondition, hknown, hfairCondition⟩ hvisit hcheck
  have hbodyChecked := hbody (Part.Reached.seen body.regular ⟨htidyBody, hknown, hfairBody⟩ hguarded.seen) hvisitBody
  have hmarked := hguarded.seen.marked.trans hbodyChecked.moved.marked
  have hrestChecked := hrest last ⟨htidyRest.retyped rest.regular hmarked.retyped, hbodyChecked.known,
    hfairRest.marked hmarked⟩ hpairs hlastRun fun b hb => hlast b (hmarked.retyped.trans hb)
  exact checked_elif hguarded hbodyChecked hrestChecked hfair

theorem checks_cond (hbody : body.Checks) (hrest : rest.Checks) : (Stmt.cond id condition body rest).Checks := by
  intro typeAt depth a a' u types ⟨htidy, hknown, hfair⟩ hvisit
  obtain ⟨hshown, hstands⟩ := htidy.stands
  have htidyBranches : (Branches.elif condition body rest).part.Tidy a.graph := ⟨hstands, htidy.noted⟩
  obtain ⟨htidyCondition, htidyBody, htidyRest⟩ := Branches.Tidy.elif htidyBranches
  obtain ⟨hfair₁, hfairRest⟩ := Fair.append hfair
  obtain ⟨hfairCondition, hfairBody⟩ := hfair₁.append
  obtain ⟨n, h⟩ := Check.visitWithin_kind hshown.kind hvisit
  simp only [Check.visitNode, Check.visitConditional, bind_eq_ok, Check.attribute_eq_ok] at h
  obtain ⟨_, _, ⟨hcondition, rfl⟩, _, a₁, hvisitCondition, _, _, ⟨hcondition₁, rfl⟩, _, a₂, hcheck, _, _, ⟨hblock, rfl⟩,
    _, a₃, hvisitBody, _, _, ⟨hbranches, rfl⟩, h⟩ := h
  obtain rfl : _ = condition.value := hshown.get_eq hcondition
  have hreached : condition.Reached typeAt types a := ⟨htidyCondition, hknown, hfairCondition⟩
  obtain rfl : _ = condition.value :=
    ((condition.checks hreached hvisitCondition).1.retyped.shown hshown).get_eq hcondition₁
  have hguarded := checkCondition_ok hreached hvisitCondition hcheck
  obtain rfl : _ = body.value := (hguarded.seen.retyped.shown hshown).get_eq hblock
  have hbodyChecked := hbody (Part.Reached.seen body.regular ⟨htidyBody, hknown, hfairBody⟩ hguarded.seen) hvisitBody
  have hmarked := hguarded.seen.marked.trans hbodyChecked.moved.marked
  have hshown₃ := hmarked.retyped.shown hshown
  obtain rfl : _ = Value.list rest.pairs := hshown₃.get_eq hbranches
  rw [show (Value.list rest.pairs).isNull = false from rfl, if_neg Bool.false_ne_true] at h
  obtain ⟨_, _, hitems, h⟩ := bind_eq_ok.1 h
  rw [lift_itemsOf_list_eq_ok] at hitems
  obtain ⟨rfl, rfl⟩ := hitems
  obtain ⟨_, a₄, hpairs, hlast⟩ := bind_eq_ok.1 h
  have hrestChecked := hrest _ ⟨htidyRest.retyped rest.regular hmarked.retyped, hbodyChecked.known,
    hfairRest.marked hmarked⟩ hpairs hlast fun b hretyped hb => by
      obtain ⟨_, _, hotherwise, hb⟩ := bind_eq_ok.1 hb
      obtain ⟨hfield, rfl⟩ := Check.attribute_eq_ok.1 hotherwise
      obtain rfl : _ = rest.last := (hretyped.shown hshown₃).get_eq hfield
      exact hb
  obtain ⟨hmoved, hknown', hplaced, hsound, hall⟩ := checked_elif hguarded hbodyChecked hrestChecked hfair
  exact ⟨hmoved, hknown', hplaced, hsound, hall⟩

theorem checks_loop (hbody : body.Checks) : (Stmt.loop id condition body).Checks := by
  intro typeAt depth a a' u types ⟨htidy, hknown, hfair⟩ hvisit
  obtain ⟨hshown, hstandsCondition, hstandsBody⟩ := htidy.stands
  have htidyCondition : condition.Tidy a.graph :=
    ⟨hstandsCondition, fun id hid => htidy.noted id (List.mem_append_left _ hid)⟩
  have htidyBody : body.part.Tidy a.graph := ⟨hstandsBody, fun id hid => htidy.noted id (List.mem_append_right _ hid)⟩
  obtain ⟨hfairCondition, hfairBody⟩ := Fair.append hfair
  obtain ⟨n, h⟩ := Check.visitWithin_kind hshown.kind hvisit
  simp only [Check.visitNode, Check.visitLoop, bind_eq_ok, Check.attribute_eq_ok, modify_eq_ok] at h
  obtain ⟨_, _, ⟨hcondition, rfl⟩, _, a₁, hvisitCondition, _, _, ⟨hcondition₁, rfl⟩, _, a₂, hcheck, _, _, rfl, _, _,
    ⟨hblock, rfl⟩, _, a₃, hvisitBody, rfl⟩ := h
  obtain rfl : _ = condition.value := hshown.get_eq hcondition
  have hreached : condition.Reached typeAt types a := ⟨htidyCondition, hknown, hfairCondition⟩
  obtain rfl : _ = condition.value :=
    ((condition.checks hreached hvisitCondition).1.retyped.shown hshown).get_eq hcondition₁
  have hguarded := checkCondition_ok hreached hvisitCondition hcheck
  obtain rfl : _ = body.value := (hguarded.seen.retyped.shown hshown).get_eq hblock
  obtain ⟨htidy₂, hknown₂, hfair₂⟩ := Part.Reached.seen body.regular ⟨htidyBody, hknown, hfairBody⟩ hguarded.seen
  have hreached₂ : body.part.Reached typeAt types { a₂ with inLoop := true } := ⟨htidy₂, hknown₂, hfair₂⟩
  have hinner := hbody hreached₂ hvisitBody
  have hbodyChecked : body.part.Checked typeAt types types a₂ { a₃ with inLoop := false } :=
    ⟨⟨hinner.moved.marked, hinner.moved.concats, hinner.moved.widened⟩, hinner.known, hinner.placed, hinner.sound,
      hinner.annotated⟩
  obtain ⟨hmoved, hplaced, hall⟩ := hguarded.block hfairCondition hbodyChecked
  exact ⟨hmoved, hbodyChecked.known, hplaced, ⟨hguarded.sound, hbodyChecked.sound⟩, hall⟩

end Conditionals

mutual

theorem Stmt.checks : ∀ stmt : Stmt, stmt.Checks
  | .declare id name value => checks_declare id name value
  | .assign id name value => checks_assign id name value
  | .print id argument value => checks_print id argument value
  | .block body => by
      intro typeAt depth a a' u types ⟨htidy, hknown, hfair⟩ hvisit
      obtain ⟨hmoved, hknown', hplaced, hsound, hannotated⟩ :=
        body.checks ⟨⟨htidy.stands, htidy.noted⟩, hknown, hfair⟩ hvisit
      exact ⟨hmoved, hknown', hplaced, hsound, hannotated⟩
  | .cond _ _ body rest => checks_cond body.checks rest.checks
  | .loop _ _ body => checks_loop body.checks
  | .breakOut id => checks_break id

theorem Block.checks : ∀ body : Block, body.Checks
  | .mk _ statements => checks_block statements.checks

theorem Stmts.checks : ∀ statements : Stmts, statements.Checks
  | .nil => checks_nil
  | .cons head tail => checks_cons head.checks tail.checks

theorem Branches.checks : ∀ branches : Branches, branches.Checks
  | .none => checks_none
  | .otherwise body => checks_otherwise body.checks
  | .elif _ body rest => checks_elif body.checks rest.checks

end

end Scriptlet.Core
