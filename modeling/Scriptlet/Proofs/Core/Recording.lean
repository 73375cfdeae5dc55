import Scriptlet.Proofs.Core.Places
import Scriptlet.Proofs.Core.Typing

/-!
What the table of scopes records of the variables of a program while it is analysed: for each its type,
and a node that stands for its value.
-/

namespace Scriptlet

namespace Core

theorem typeValue_injective {a b : Option Ty} (h : typeValue a = typeValue b) : a = b := by
  rcases a with _ | _ | _ <;> rcases b with _ | _ | _ <;>
    simp_all [typeValue, TypeName.integer, TypeName.boolean, TypeName.invalid]

/-- The symbol of a variable; its type is that of its first value. -/
structure Declares (graph : Graph) (symbol : Symbol) (ty : Option Ty) : Prop where
  isVariable : symbol.isVariable = true
  noFunction : symbol.functionData = .null
  data : ∃ entries value, symbol.variableData = .record entries ∧
    entries.lookup "data_type" = some (typeValue ty) ∧ entries.lookup "value" = some value ∧
    IsOrdinary graph value ∧ entries.lookup "annotated" = some (.bool false)

/-- The symbol of a library function.  The print function takes anything. -/
structure Foreign (graph : Graph) (name : String) (symbol : Symbol) : Prop where
  noVariable : symbol.isVariable = false
  noParameter : symbol.isParameter = false
  print : name = "print" → ∃ entries parameter, symbol.functionData = .record entries ∧
    entries.lookup "parameters" = some (.list [.node parameter]) ∧
    Shown graph parameter .parameter [(.type, .text TypeName.any)]

/-- A scope of the table has the variables declared in it so far.  Only the outermost scope has other
names. -/
structure Describes (graph : Graph) (table : ScopeTable) (index : Nat) (entries : List (String × Option Ty)) :
    Prop where
  declared : ∀ name ty, entries.lookup name = some ty →
    ∃ symbol, (table.scope index).symbols.lookup name = some symbol ∧ Declares graph symbol ty
  others : ∀ name symbol, entries.lookup name = none →
    (table.scope index).symbols.lookup name = some symbol → index = 0 ∧ Foreign graph name symbol

/-- The table has the variables in scope and their types. -/
structure Known (graph : Graph) (table : ScopeTable) (types : Types) : Prop where
  levels : List.Forall₂ (Describes graph table) table.path types
  root : table.path.getLast? = some 0
  nodup : table.path.Nodup
  below : ∀ index ∈ table.path, index < table.scopes.size
  references : ∀ index name symbol, (table.scope index).symbols.lookup name = some symbol →
    symbol.reference = none

/-- The tables have the same scopes, and the second one has all names of the first one. -/
structure Reshaped (table table' : ScopeTable) : Prop where
  names : ∀ i name, ((table.scope i).symbols.lookup name).isSome →
    ((table'.scope i).symbols.lookup name).isSome
  path : table'.path = table.path
  entered : table'.entered = table.entered
  children : ∀ i, (table'.scope i).children = (table.scope i).children
  size : table'.scopes.size = table.scopes.size

section Recording

variable {graph graph' : Graph} {table table' : ScopeTable} {types : Types} {name : String} {symbol changed : Symbol}
  {ty : Option Ty} {type value : Value}

theorem Reshaped.refl (table : ScopeTable) : Reshaped table table :=
  ⟨fun _ _ h => h, rfl, rfl, fun _ => rfl, rfl⟩

theorem Reshaped.trans {a b c : ScopeTable} (hab : Reshaped a b) (hbc : Reshaped b c) : Reshaped a c :=
  ⟨fun i name h => hbc.names i name (hab.names i name h), hbc.path.trans hab.path,
    hbc.entered.trans hab.entered, fun i => (hbc.children i).trans (hab.children i), hbc.size.trans hab.size⟩

theorem Reshaped.layout (h : Reshaped table table') : Extends table table' :=
  ⟨h.names, fun i child index hchild => by rwa [h.children i]⟩

theorem reshaped_setSymbol (table : ScopeTable) (name : String) (symbol : Symbol) :
    Reshaped table (table.setSymbol name symbol) :=
  ⟨(Extends.setSymbol table name symbol).names, ScopeTable.path_setSymbol, ScopeTable.entered_setSymbol,
    fun _ => ScopeTable.children_setSymbol, ScopeTable.size_setSymbol⟩

theorem Declares.retyped (h : Declares graph symbol ty) (hretyped : Retyped graph graph') :
    Declares graph' symbol ty := by
  obtain ⟨hvariable, hfunction, entries, value, hdata, htype, hvalue, hordinary, hannotated⟩ := h
  exact ⟨hvariable, hfunction, entries, value, hdata, htype, hvalue, hretyped.isOrdinary hordinary, hannotated⟩

theorem Foreign.retyped (h : Foreign graph name symbol) (hretyped : Retyped graph graph') :
    Foreign graph' name symbol := by
  refine ⟨h.noVariable, h.noParameter, fun hname => ?_⟩
  obtain ⟨entries, parameter, hdata, hparameters, hshown⟩ := h.print hname
  exact ⟨entries, parameter, hdata, hparameters, hretyped.shown hshown⟩

theorem Known.retyped (h : Known graph table types) (hretyped : Retyped graph graph') :
    Known graph' table types := by
  obtain ⟨hlevels, hroot, hnodup, hbelow, hreferences⟩ := h
  refine ⟨hlevels.imp fun index entries hdescribes => ⟨fun name ty hentry => ?_, fun name symbol hnone hfound => ?_⟩,
    hroot, hnodup, hbelow, hreferences⟩
  · obtain ⟨symbol, hfound, hdeclares⟩ := hdescribes.declared name ty hentry
    exact ⟨symbol, hfound, hdeclares.retyped hretyped⟩
  · exact (hdescribes.others name symbol hnone hfound).imp_right fun hforeign => hforeign.retyped hretyped

/-- What a name stands for: a variable in scope, or a function of the library. -/
theorem Known.lookup (h : Known graph table types) (hfound : table.lookup? name = some symbol) :
    (∃ ty, types.find? name = some ty ∧ Declares graph symbol ty) ∨
      types.find? name = none ∧ Foreign graph name symbol := by
  obtain ⟨hlevels, hroot, hnodup, -, -⟩ := h
  unfold ScopeTable.lookup? at hfound
  generalize table.path = path at hlevels hfound hroot hnodup
  induction hlevels with
  | nil => simp at hfound
  | @cons index entries path types hdescribes hrest ih =>
      rw [List.findSome?_cons] at hfound
      rw [Scopes.find?, List.findSome?_cons]
      cases hentry : entries.lookup name with
      | some ty =>
          obtain ⟨found, hlookup, hdeclares⟩ := hdescribes.declared name ty hentry
          rw [hlookup] at hfound
          obtain rfl := Option.some.inj hfound
          exact Or.inl ⟨ty, rfl, hdeclares⟩
      | none =>
          cases hlookup : (table.scope index).symbols.lookup name with
          | some found =>
              rw [hlookup] at hfound
              obtain rfl := Option.some.inj hfound
              obtain ⟨rfl, hforeign⟩ := hdescribes.others name found hentry hlookup
              -- Nothing is outside of the outermost scope.
              cases hrest with
              | nil => exact Or.inr ⟨rfl, hforeign⟩
              | @cons second _ rest _ _ _ =>
                  rw [List.getLast?_cons_cons] at hroot
                  exact absurd (List.mem_of_getLast? hroot) (List.nodup_cons.1 hnodup).1
          | none =>
              rw [hlookup] at hfound
              cases hrest with
              | nil => simp at hfound
              | cons =>
                  rw [List.getLast?_cons_cons] at hroot
                  exact ih hfound hroot (List.nodup_cons.1 hnodup).2

theorem Known.inside (h : Known graph table types) : table.path ≠ [] := by
  intro hnil
  have hroot := h.root
  simp [hnil] at hroot

theorem Known.current_lt (h : Known graph table types) : table.current < table.scopes.size := by
  obtain ⟨rest, hpath⟩ := ScopeTable.path_eq_cons h.inside
  exact h.below _ (by simp [hpath])

theorem Known.reference (h : Known graph table types) (hfound : table.lookup? name = some symbol) :
    symbol.reference = none := by
  rw [ScopeTable.lookup?_eq] at hfound
  obtain ⟨index, -, hlookup⟩ := Option.bind_eq_some_iff.1 hfound
  exact h.references index name symbol hlookup

theorem Known.setSymbol (h : Known graph table types) (hfound : table.lookup? name = some symbol)
    (hold : Declares graph symbol ty) (hnew : Declares graph changed ty) (hreference : changed.reference = none) :
    Known graph (table.setSymbol name changed) types := by
  have hsymbol : ∀ i, table.scopeOf? name = some i → (table.scope i).symbols.lookup name = some symbol := by
    intro i hi
    rw [ScopeTable.lookup?_eq, hi] at hfound
    exact hfound
  obtain ⟨hlevels, hroot, hnodup, hbelow, hreferences⟩ := h
  refine ⟨?_, by simpa using hroot, by simpa using hnodup, by simpa using hbelow, fun i other found hlookup => ?_⟩
  · rw [ScopeTable.path_setSymbol]
    refine hlevels.imp fun i entries hdescribes => ⟨fun other kept hentry => ?_, fun other found hnone hlookup => ?_⟩
    · obtain ⟨found, hlookup, hdeclares⟩ := hdescribes.declared other kept hentry
      rw [ScopeTable.lookup_setSymbol]
      split
      case isTrue hhere =>
        obtain ⟨hi, rfl⟩ := hhere
        obtain rfl := Option.some.inj (hlookup.symm.trans (hsymbol i hi))
        obtain ⟨-, -, entries, -, hdata, htype, -⟩ := hdeclares
        obtain ⟨-, -, entries', -, hdata', htype', -⟩ := hold
        obtain rfl := Value.record.inj (hdata.symm.trans hdata')
        obtain rfl := typeValue_injective (Option.some.inj (htype.symm.trans htype'))
        exact ⟨changed, rfl, hnew⟩
      case isFalse => exact ⟨found, hlookup, hdeclares⟩
    · rw [ScopeTable.lookup_setSymbol] at hlookup
      split at hlookup
      case isTrue hhere =>
        obtain ⟨hi, rfl⟩ := hhere
        have hvariable := hold.isVariable
        have hforeign := (hdescribes.others other symbol hnone (hsymbol i hi)).2
        rw [hforeign.noVariable] at hvariable
        cases hvariable
      case isFalse => exact hdescribes.others other found hnone hlookup
  · rw [ScopeTable.lookup_setSymbol] at hlookup
    split at hlookup
    · rwa [← Option.some.inj hlookup]
    · exact hreferences i other found hlookup

theorem Known.declare (h : Known graph table types) (hadd : table.add name symbol = .ok table')
    (hdeclares : ∀ mangledName, Declares graph { symbol with mangledName } ty) (hreference : symbol.reference = none) :
    Known graph table' (types.declare name ty) ∧ Reshaped table table' ∧
      ((table'.scope table.current).symbols.lookup name).isSome := by
  obtain ⟨hnone, mangledName, rfl, -⟩ := ScopeTable.add_eq_ok.1 hadd
  have hlookup : ∀ i other, ((table.addTo table.current name { symbol with mangledName }).scope i).symbols.lookup other =
      if i = table.current ∧ other = name then some { symbol with mangledName }
      else (table.scope i).symbols.lookup other :=
    fun i other => ScopeTable.lookup_addTo h.current_lt hnone
  obtain ⟨rest, hp⟩ := ScopeTable.path_eq_cons h.inside
  obtain ⟨hlevels, hroot, hnodup, hbelow, hreferences⟩ := h
  have hsame : ∀ i, i ≠ table.current → ∀ entries, Describes graph table i entries →
      Describes graph (table.addTo table.current name { symbol with mangledName }) i entries := by
    intro i hi entries hdescribes
    have heq := fun other => (hlookup i other).trans (if_neg fun hand => hi hand.1)
    exact ⟨fun other kept hentry => by rw [heq]; exact hdescribes.declared other kept hentry,
      fun other found hentry hfound => hdescribes.others other found hentry (by rwa [heq] at hfound)⟩
  refine ⟨⟨?_, hroot, hnodup, fun i hmem => ?_, fun i other found hfound => ?_⟩,
    ⟨fun i other hsome => ?_, rfl, rfl, fun _ => ScopeTable.children_addTo, ScopeTable.size_addTo⟩, ?_⟩
  · rw [hp] at hlevels hnodup
    show List.Forall₂ _ table.path _
    rw [hp]
    cases hlevels with
    | @cons _ entries _ outer hdescribes houter =>
        refine .cons ⟨fun other kept hentry => ?_, fun other found hentry hfound => ?_⟩
          (forall₂_of_ne houter (List.nodup_cons.1 hnodup).1 fun i entries hi => hsame i hi entries)
        · rw [hlookup]
          rw [List.lookup_cons] at hentry
          by_cases hother : other = name
          · subst hother
            simp only [beq_self_eq_true, Option.some.injEq] at hentry
            subst hentry
            exact ⟨_, if_pos ⟨rfl, rfl⟩, hdeclares mangledName⟩
          · rw [if_neg fun hand => hother hand.2]
            exact hdescribes.declared other kept (by simpa [beq_eq_false_iff_ne.2 hother] using hentry)
        · rw [hlookup] at hfound
          rw [List.lookup_cons] at hentry
          by_cases hother : other = name
          · simp [hother] at hentry
          · rw [if_neg fun hand => hother hand.2] at hfound
            exact hdescribes.others other found (by simpa [beq_eq_false_iff_ne.2 hother] using hentry) hfound
  · rw [ScopeTable.size_addTo]
    exact hbelow i hmem
  · rw [hlookup] at hfound
    split at hfound
    · obtain rfl := Option.some.inj hfound
      exact hreference
    · exact hreferences i other found hfound
  · rw [hlookup]
    split
    · rfl
    · exact hsome
  · rw [hlookup, if_pos ⟨rfl, rfl⟩]
    rfl

theorem Declares.withEntry {key : String} {data : Value} (h : Declares graph symbol ty)
    (hkey : key = "isStatic" ∨ key = "value" ∧ IsOrdinary graph value)
    (hdata : Symbol.withEntry symbol.variableData key value = .ok data) (updatedType : Option Value) :
    Declares graph { symbol with variableData := data, updatedType } ty := by
  obtain ⟨hvariable, hfunction, entries, old, hentries, htype, hold, hordinary, hannotated⟩ := h
  rw [hentries, Symbol.withEntry] at hdata
  obtain rfl := Except.ok.inj hdata
  rcases hkey with rfl | ⟨rfl, hvalue⟩
  · exact ⟨hvariable, hfunction, _, old, rfl, by simp [Value.lookup_setEntry, htype], by simp [Value.lookup_setEntry, hold],
      hordinary, by simp [Value.lookup_setEntry, hannotated]⟩
  · exact ⟨hvariable, hfunction, _, value, rfl, by simp [Value.lookup_setEntry, htype], by simp [Value.lookup_setEntry],
      hvalue, by simp [Value.lookup_setEntry, hannotated]⟩

theorem Known.update (h : Known graph table types) (hfound : table.lookup? name = some symbol)
    (hdeclares : Declares graph symbol ty) (hvalue : value = .null ∨ IsOrdinary graph value) :
    Known graph (table.update name type value).1 types ∧ Reshaped table (table.update name type value).1 := by
  have hreference := h.reference hfound
  have htyped : Declares graph { symbol with updatedType := some type } ty :=
    ⟨hdeclares.isVariable, hdeclares.noFunction, hdeclares.data⟩
  unfold ScopeTable.update
  rw [hfound]
  dsimp only
  split
  · exact ⟨h.setSymbol hfound hdeclares htyped hreference, reshaped_setSymbol ..⟩
  case isFalse hgiven =>
    replace hvalue : IsOrdinary graph value := hvalue.resolve_left fun hnull => hgiven (by rw [hnull]; rfl)
    rw [hdeclares.isVariable, Bool.true_or, if_pos rfl]
    split
    case h_1 data hdata =>
      exact ⟨h.setSymbol hfound hdeclares (hdeclares.withEntry (Or.inr ⟨rfl, hvalue⟩) hdata _) hreference,
        reshaped_setSymbol ..⟩
    case h_2 => exact ⟨h.setSymbol hfound hdeclares htyped hreference, reshaped_setSymbol ..⟩

theorem Known.enter (h : Known graph table types) : Known graph table.createScope ([] :: types) := by
  obtain ⟨hlevels, hroot, hnodup, hbelow, hreferences⟩ := h
  have hsymbols := fun i => (table.scope_createScope i).1
  have hnew : table.scope table.scopes.size = default := by simp [ScopeTable.scope]
  obtain ⟨outer, rest, hp⟩ : ∃ outer rest, table.path = outer :: rest := by
    cases hp : table.path with
    | nil => simp [hp] at hroot
    | cons outer rest => exact ⟨outer, rest, rfl⟩
  refine ⟨.cons ⟨by simp, fun name symbol _ hfound => ?_⟩ (hlevels.imp fun i entries hdescribes => ?_), ?_,
    List.nodup_cons.2 ⟨fun hmem => Nat.lt_irrefl _ (hbelow _ hmem), hnodup⟩, fun index hmem => ?_,
    fun index name symbol => by rw [hsymbols]; exact hreferences index name symbol⟩
  · rw [hsymbols, hnew] at hfound
    cases hfound
  · exact ⟨by rw [hsymbols]; exact hdescribes.declared, by rw [hsymbols]; exact hdescribes.others⟩
  · show (table.scopes.size :: table.path).getLast? = some 0
    rw [hp, List.getLast?_cons_cons, ← hp, hroot]
  · rw [ScopeTable.size_createScope]
    rcases List.mem_cons.1 hmem with rfl | hmem
    · omega
    · have := hbelow index hmem
      omega

theorem Known.leave (h : Known graph table types) (hexit : table.exitScope = .ok table') :
    Known graph table' types.tail := by
  obtain ⟨inner, outer, rest, hpath, rfl⟩ := ScopeTable.exitScope_eq_ok.1 hexit
  obtain ⟨hlevels, hroot, hnodup, hbelow, hreferences⟩ := h
  rw [hpath] at hlevels hroot hnodup hbelow
  refine ⟨?_, ?_, (List.nodup_cons.1 hnodup).2, fun index hmem => hbelow index (List.mem_cons_of_mem _ hmem), hreferences⟩
  · cases hlevels with
    | cons _ houter => exact houter.imp fun _ _ hdescribes => ⟨hdescribes.declared, hdescribes.others⟩
  · rwa [List.getLast?_cons_cons] at hroot

end Recording

end Core

end Scriptlet
