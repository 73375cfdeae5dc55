import Scriptlet.Proofs.Check.Conditions

/-!
Declarations and updates of variables: the types of their values are those that the variables are bound to.
-/

set_option synthInstance.maxSize 1000000

namespace Scriptlet

/-- A variable with an annotation and a parameter are bound to a type. -/
def Symbol.Requires (symbol : Symbol) (type : Value) : Prop :=
  symbol.isVariable ∧ entry symbol.variableData "annotated" = .ok (.bool true) ∧
      entry symbol.variableData "data_type" = .ok type ∨
    symbol.isParameter ∧ entry symbol.parameterData "data_type" = .ok type

namespace Check

variable {origin : Graph} {root id depth : Nat} {s t : Analysis} {value type : Value}
variable {v : Unit} {symbol : Symbol} {word key : String} {node name : Value}

/-! ### Declarations -/

theorem isSame_text : isSame (.text word) value = true ↔ value = .text word := by
  cases value with
  | scalar scalar =>
      cases scalar with
      | text other =>
          show (word == other) = true ↔ _
          rw [beq_iff_eq, eq_comm]
          simp
      | _ => simp [isSame, Scalar.same, Scalar.compareNumbers?, Scalar.toInt?]
  | _ => simp [isSame]

theorem eq_null_of_isSame (h : isSame value .null = true) : value = .null := by
  cases value with
  | scalar scalar =>
      cases scalar with
      | null => rfl
      | _ => simp [isSame, Scalar.same, Scalar.compareNumbers?, Scalar.toInt?] at h
  | _ => cases h

theorem isSame_comm_text : isSame value (.text word) = true ↔ value = .text word := by
  cases value with
  | scalar scalar => cases scalar <;> simp [isSame, Scalar.same, Scalar.compareNumbers?, Scalar.toInt?]
  | _ => simp [isSame]

theorem declaredType_eq_ok {found : Value} (hdeclared : s.graph.fieldOf? node .declaredType = some (.text word))
    (h : declaredType node name type s = .ok found t) : found = .text word := by
  rw [declaredType, getField_bind hdeclared] at h
  split at h
  case isTrue hsame =>
    obtain ⟨rfl, -⟩ := pure_eq_ok.1 h
    exact isSame_text.1 hsame
  case isFalse =>
    obtain ⟨hpromoted, h⟩ := ite_refuses.1 h
    obtain ⟨_, _, -, h⟩ := bind_eq_ok.1 h
    obtain ⟨rfl, -⟩ := pure_eq_ok.1 h
    rw [Bool.and_eq_true] at hpromoted
    exact (isText_iff.1 hpromoted.1).symm

/-- What has been added to a table in order is found in the current scope. -/
theorem inScope?_add {table table' : ScopeTable} {name : String} (htree : table'.IsTree)
    (h : table.add name symbol = .ok table') :
    ∃ mangledName, table'.inScope? name = some { symbol with mangledName } := by
  obtain ⟨hnone, mangledName, rfl, -⟩ := ScopeTable.add_eq_ok.1 h
  have hlt : table.current < table.scopes.size := by
    have := htree.current_lt
    rwa [ScopeTable.size_addTo] at this
  refine ⟨mangledName, ?_⟩
  rw [ScopeTable.inScope?, ScopeTable.currentScope, ScopeTable.lookup_addTo hlt hnone]
  exact if_pos ⟨rfl, rfl⟩

theorem type_of_declaration (hlaid : origin.WellLaid (.node root)) (hid : id < root)
    (hkind : (origin.node id).kind = .declaration) (htame : s.Tame (inner hlaid))
    (h : visitDeclaration (visitWithin depth) (.node id) s = .ok v t)
    (hdeclared : s.graph.fieldOf? (.node id) .declaredType = some (.text word)) :
    ∃ name symbol, s.graph.fieldOf? (.node id) .name = some name ∧ s.table.inScope? (nameText name) = none ∧
      t.table.inScope? (nameText name) = some symbol ∧ symbol.isVariable ∧
      Symbol.entry symbol.variableData "data_type" = .ok (.text word) := by
  have hlt : id < origin.nodes.size := hid.trans (hlaid.root root rfl).1
  have hlast : t.Tame (inner hlaid) :=
    ((conduct_visitDeclaration (conduct_visitWithin depth) ⟨Nat.zero_le id, hid⟩ hkind).step h htame).1
  obtain ⟨name, _, hrun, h⟩ := bind_eq_ok.1 h
  obtain ⟨hname, rfl⟩ := getField_eq_ok.1 hrun
  obtain ⟨_, _, htable, h⟩ := bind_eq_ok.1 h
  obtain ⟨rfl, rfl⟩ := table_eq_ok.1 htable
  dsimp only at h
  obtain ⟨hfresh, h⟩ := refuses_ite.1 h
  obtain ⟨value, _, hrun, h⟩ := bind_eq_ok.1 h
  obtain ⟨hvalue, rfl⟩ := getField_eq_ok.1 hrun
  obtain ⟨_, s₁, hvisit, h⟩ := bind_eq_ok.1 h
  have hhas : (inner hlaid).Has value := Node.get_of_get? hvalue ▸ htame.holds.has ⟨Nat.zero_le id, hid⟩
    (.inl (show Field.value ∈ (origin.node id).kind.links by rw [hkind]; decide))
  have htame₁ : s₁.Tame (inner hlaid) := ((conduct_visitWithin depth value hhas).step hvisit htame).1
  obtain ⟨found, s₂, htype, h⟩ := bind_eq_ok.1 h
  have htame₂ : s₂.Tame (inner hlaid) := ((Obeys.step htype : (conduct (inner hlaid)).step _ _) htame₁).1
  obtain ⟨type, s₃, hdeclare, h⟩ := bind_eq_ok.1 h
  have hsame : s₂.graph.fieldOf? (.node id) .declaredType = some (.text word) := by
    rw [fieldOf?_kept htame₂ hlt rfl, ← fieldOf?_kept htame hlt rfl, hdeclared]
  obtain rfl := declaredType_eq_ok hsame hdeclare
  obtain ⟨value', _, -, h⟩ := bind_eq_ok.1 h
  obtain ⟨isStatic, _, -, h⟩ := bind_eq_ok.1 h
  obtain ⟨_, s₄, -, h⟩ := bind_eq_ok.1 h
  obtain ⟨table', hadd, rfl⟩ := changeTable_eq_ok.1 h
  obtain ⟨mangledName, hfound⟩ := inScope?_add hlast.symbols.tree hadd
  exact ⟨name, _, hname, by simpa using hfresh, hfound, rfl, rfl⟩

/-! ### Values of statements -/

/-- A value that was there stays there, though it may be replaced. -/
theorem value_ne_null {hlaid : origin.WellLaid (.node root)} (hs : s.Tame (inner hlaid)) (ht : t.Tame (inner hlaid))
    (hid : id < origin.nodes.size) (hkind : (origin.node id).kind ≠ .reference)
    (hvalue : (s.graph.node id).get .value ≠ .null) : (t.graph.node id).get .value ≠ .null := by
  have hoperand := Kind.hasOperand_of_ne (by decide : Field.value ∈ Draft.operandFields) (.inl hkind)
  exact fun heq => hvalue ((hs.holds.derived.operand id .value hid hoperand).null.1
    ((ht.holds.derived.operand id .value hid hoperand).null.2 heq))

theorem isNull_eq_false (h : value ≠ .null) : value.isNull = false := by
  cases value with
  | scalar scalar =>
      cases scalar with
      | null => exact absurd rfl h
      | _ => rfl
  | _ => rfl

theorem ne_null_of_visit (h : visitWithin depth value s = .ok v t) : value ≠ .null := by
  rintro rfl
  cases depth with
  | zero => exact absurd h fail_ne_ok
  | succ depth =>
      obtain ⟨_, hkind, -⟩ := visitWithin_eq_ok.1 h
      cases hkind

theorem gives_value (hkind : (s.graph.node id).kind ∈ [Kind.declaration, .update, .returning])
    (hvalue : (s.graph.node id).get .value ≠ .null) (htype : s.graph.typeAt walkDepth (.node id) = some type) :
    ∃ value, s.graph.fieldOf? (.node id) .value = some value ∧ s.Gives value type := by
  have hsource : (s.graph.node id).typeSource = .child ((s.graph.node id).get .value) := by
    unfold Node.typeSource
    simp only [List.mem_cons, List.not_mem_nil, or_false] at hkind
    rcases hkind with hkind | hkind | hkind <;> simp [hkind, isNull_eq_false hvalue]
  obtain ⟨rest, _, hdepth, -⟩ := Graph.exists_of_typeAt htype
  rw [hdepth, Graph.typeAt_node, hsource] at htype
  refine ⟨(s.graph.node id).get .value, ?_, gives_of_typeAt (Graph.typeAt_mono htype (by omega))⟩
  rw [Graph.fieldOf?_node]
  unfold Node.get at hvalue ⊢
  cases hget : (s.graph.node id).get? .value with
  | none =>
      rw [hget] at hvalue
      exact absurd rfl hvalue
  | some found => rfl

/-! ### Updates -/

/-- A symbol of which only its value, or whether it is known, has changed. -/
structure Keeps (old new : Symbol) : Prop where
  kind : new.kind = old.kind
  parameterData : new.parameterData = old.parameterData
  entry : ∀ key, key ≠ "value" → key ≠ "isStatic" → Symbol.entry new.variableData key = Symbol.entry old.variableData key

theorem Keeps.requires {old new : Symbol} (h : Keeps old new) (hrequires : new.Requires type) : old.Requires type := by
  unfold Symbol.Requires Symbol.isVariable Symbol.isParameter at *
  rwa [h.kind, h.parameterData, h.entry "annotated" (by decide) (by decide), h.entry "data_type" (by decide) (by decide)]
    at hrequires

theorem Keeps.trans {first second third : Symbol} (h : Keeps first second) (h' : Keeps second third) : Keeps first third where
  kind := h'.kind.trans h.kind
  parameterData := h'.parameterData.trans h.parameterData
  entry key hvalue hstatic := (h'.entry key hvalue hstatic).trans (h.entry key hvalue hstatic)

theorem keeps_withEntry {updatedType : Option Value} {variableData content : Value}
    (hkey : key = "value" ∨ key = "isStatic") (h : Symbol.withEntry symbol.variableData key content = .ok variableData) :
    Keeps symbol { symbol with variableData, updatedType } := by
  refine ⟨rfl, rfl, fun other hvalue hstatic => ?_⟩
  rw [Symbol.entry_withEntry h, if_neg]
  rintro rfl
  exact hkey.elim hvalue hstatic

/-- An update keeps the symbol that a name stands for, and what it requires. -/
theorem lookup?_update {table : ScopeTable} (h : table.lookup? key = some symbol) :
    ∃ changed, (table.update key type value).1.lookup? key = some changed ∧ Keeps symbol changed := by
  have htyped : Keeps symbol { symbol with updatedType := some type } := ⟨rfl, rfl, fun _ _ _ => rfl⟩
  unfold ScopeTable.update
  simp only [h]
  split
  · exact ⟨_, ScopeTable.lookup?_setSymbol h, htyped⟩
  · split
    · split
      case h_1 variableData hentry => exact ⟨_, ScopeTable.lookup?_setSymbol h, keeps_withEntry (.inl rfl) hentry⟩
      case h_2 => exact ⟨_, ScopeTable.lookup?_setSymbol h, htyped⟩
    · exact ⟨_, ScopeTable.lookup?_setSymbol h, htyped⟩

theorem applyUpdate_eq_ok (h : (do
      let old ← table
      setTable (old.update key type value).1
      orFail (old.update key type value).2 : Check Unit) s = .ok v t) :
    t = { s with table := (s.table.update key type value).1 } := by
  obtain ⟨_, _, htable, h⟩ := bind_eq_ok.1 h
  obtain ⟨rfl, rfl⟩ := table_eq_ok.1 htable
  obtain ⟨_, _, hset, h⟩ := bind_eq_ok.1 h
  obtain ⟨-, rfl⟩ := orFail_eq_ok.1 h
  exact (setTable_eq_ok.1 hset).symm

/-- A variable that is updated stays bound to its type. -/
theorem recordValue_eq_ok (hlookup : s.table.lookup? key = some symbol) (h : (do
      let value ← (liftM (Draft.getField node .value) : Check Value)
      let known ← isStatic value
      if known.isGiven then
        let old ← table
        setTable (old.update key type value).1
        orFail (old.update key type value).2
      else
        let variableData ← orFail (Symbol.withEntry symbol.variableData "isStatic" (.bool false))
        setTable ((← table).setSymbol key { symbol with variableData })
        let old ← table
        setTable (old.update key type .null).1
        orFail (old.update key type .null).2 : Check Unit) s = .ok v t) :
    t.graph = s.graph ∧ ∃ changed, t.table.lookup? key = some changed ∧ Keeps symbol changed := by
  obtain ⟨value, _, hrun, h⟩ := bind_eq_ok.1 h
  obtain ⟨-, rfl⟩ := getField_eq_ok.1 hrun
  obtain ⟨known, _, hrun, h⟩ := bind_eq_ok.1 h
  obtain ⟨journal, rfl⟩ := (Obeys.step hrun : reading.step _ _)
  split at h
  case isTrue =>
    rw [applyUpdate_eq_ok h]
    exact ⟨rfl, lookup?_update hlookup⟩
  case isFalse =>
    obtain ⟨variableData, _, hrun, h⟩ := bind_eq_ok.1 h
    obtain ⟨hentry, rfl⟩ := orFail_eq_ok.1 hrun
    obtain ⟨_, _, htable, h⟩ := bind_eq_ok.1 h
    obtain ⟨rfl, rfl⟩ := table_eq_ok.1 htable
    obtain ⟨_, s', hset, h⟩ := bind_eq_ok.1 h
    rw [← setTable_eq_ok.1 hset] at h
    rw [applyUpdate_eq_ok h]
    obtain ⟨changed, hchanged, hkeeps⟩ := lookup?_update (ScopeTable.lookup?_setSymbol hlookup)
    exact ⟨rfl, changed, hchanged, (keeps_withEntry (.inr rfl) hentry).trans hkeeps⟩

/-- What is recorded of an update that is let through: its type is the one that the symbol requires. -/
theorem recordUpdate_eq_ok (h : recordUpdate node name type s = .ok v t) :
    t.graph = s.graph ∧ ∀ symbol required, t.table.lookup? (nameText name) = some symbol → symbol.Requires required →
      isSame required type := by
  obtain ⟨_, _, htable, h⟩ := bind_eq_ok.1 h
  obtain ⟨rfl, rfl⟩ := table_eq_ok.1 htable
  cases hlookup : s.table.lookup? (nameText name) with
  | none =>
      simp only [hlookup] at h
      exact absurd h fail_ne_ok
  | some symbol =>
      simp only [hlookup] at h
      split at h
      case isTrue hvariable =>
        obtain ⟨annotated, _, hentry, h⟩ := bind_eq_ok.1 h
        obtain ⟨hannotated, rfl⟩ := orFail_eq_ok.1 hentry
        have hparameter : ¬ symbol.isParameter = true := by
          rw [Symbol.isParameter, isText_iff.1 hvariable]
          decide
        split at h
        case h_1 =>
          obtain ⟨expected, _, hentry, h⟩ := bind_eq_ok.1 h
          obtain ⟨hexpected, rfl⟩ := orFail_eq_ok.1 hentry
          obtain ⟨hsame, h⟩ := ite_refuses.1 h
          obtain ⟨hgraph, changed, hchanged, hkeeps⟩ := recordValue_eq_ok hlookup h
          refine ⟨hgraph, fun found required hfound hrequires => ?_⟩
          cases hchanged.symm.trans hfound
          rcases hkeeps.requires hrequires with ⟨-, -, htype⟩ | ⟨hkind, -⟩
          · cases hexpected.symm.trans htype
            exact hsame
          · exact absurd hkind hparameter
        case h_2 hnot =>
          obtain ⟨hgraph, changed, hchanged, hkeeps⟩ := recordValue_eq_ok hlookup h
          refine ⟨hgraph, fun found required hfound hrequires => ?_⟩
          cases hchanged.symm.trans hfound
          rcases hkeeps.requires hrequires with ⟨-, htrue, -⟩ | ⟨hkind, -⟩
          · cases hannotated.symm.trans htrue
            exact absurd rfl hnot
          · exact absurd hkind hparameter
      case isFalse hvariable =>
        -- only the types of parameters are compared, and nothing is recorded
        split at h
        case isTrue hparameter =>
          obtain ⟨expected, _, hentry, h⟩ := bind_eq_ok.1 h
          obtain ⟨hexpected, rfl⟩ := orFail_eq_ok.1 hentry
          obtain ⟨hsame, h⟩ := ite_refuses.1 h
          obtain ⟨-, rfl⟩ := pure_eq_ok.1 h
          refine ⟨rfl, fun found required hfound hrequires => ?_⟩
          cases hlookup.symm.trans hfound
          rcases hrequires with ⟨hkind, -⟩ | ⟨-, htype⟩
          · exact absurd hkind hvariable
          · cases hexpected.symm.trans htype
            exact hsame
        case isFalse hparameter =>
          obtain ⟨-, rfl⟩ := pure_eq_ok.1 h
          refine ⟨rfl, fun found required hfound hrequires => ?_⟩
          cases hlookup.symm.trans hfound
          exact absurd hrequires (by simp [Symbol.Requires, hvariable, hparameter])

/-- An update of a symbol that is bound to a type has a value of that type. -/
theorem type_of_update (hlaid : origin.WellLaid (.node root)) (hid : id < root)
    (hkind : (origin.node id).kind = .update) (htame : s.Tame (inner hlaid))
    (h : visitUpdate (visitWithin depth) (.node id) s = .ok v t) {required : Value}
    (hname : s.graph.fieldOf? (.node id) .name = some name) (hsymbol : t.table.lookup? (nameText name) = some symbol)
    (hrequires : symbol.Requires required) :
    ∃ value type, t.graph.fieldOf? (.node id) .value = some value ∧ t.Gives value type ∧ isSame required type := by
  have hlt : id < origin.nodes.size := hid.trans (hlaid.root root rfl).1
  have hlast : t.Tame (inner hlaid) :=
    ((conduct_visitUpdate (conduct_visitWithin depth) ⟨Nat.zero_le id, hid⟩ hkind).step h htame).1
  rw [visitUpdate, getField_bind hname] at h
  obtain ⟨_, _, htable, h⟩ := bind_eq_ok.1 h
  obtain ⟨rfl, rfl⟩ := table_eq_ok.1 htable
  dsimp only at h
  obtain ⟨-, h⟩ := refuses_ite.1 h
  obtain ⟨value, _, hrun, h⟩ := bind_eq_ok.1 h
  obtain ⟨hvalue, rfl⟩ := getField_eq_ok.1 hrun
  obtain ⟨_, s₁, hvisit, h⟩ := bind_eq_ok.1 h
  obtain ⟨type, s₂, htype, h⟩ := bind_eq_ok.1 h
  obtain ⟨hvalid, h⟩ := refuses_ite.1 h
  obtain ⟨line, s₃, hline, h⟩ := bind_eq_ok.1 h
  obtain ⟨journal, rfl⟩ := (Obeys.step hline : reading.step _ _)
  rcases handling_eq_ok.1 h with hrecord | ⟨failure, s', -, -, hannounce⟩
  · obtain ⟨hgraph, hsame⟩ := recordUpdate_eq_ok hrecord
    have hsource : t.graph.typeAt walkDepth (.node id) = some type := by
      rw [hgraph]
      exact show s₂.graph.typeAt walkDepth (.node id) = some type from typeAt_of_typeOf htype
    have hthere : (t.graph.node id).get .value ≠ .null := by
      refine value_ne_null htame hlast hlt (by simp [hkind]) ?_
      rw [show (s.graph.node id).get .value = value from Node.get_of_get? hvalue]
      exact ne_null_of_visit hvisit
    have hupdate : (t.graph.node id).kind = .update := (hlast.holds.derived.kind id hlt).trans hkind
    obtain ⟨found, hfound, hgives⟩ := gives_value (by simp [hupdate]) hthere hsource
    exact ⟨found, type, hfound, hgives, hsame symbol required hsymbol hrequires⟩
  · exact absurd hannounce (Refuses.ne_ok _ _ _)

end Check

end Scriptlet
