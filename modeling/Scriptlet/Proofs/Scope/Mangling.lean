import Scriptlet.Proofs.Scope.Resolution
import Scriptlet.Proofs.Token.Lexing

/-!
Variables of one name in different scopes are told apart by their mangled names.

A mangled name is the name of the variable, a dollar sign and the number of its scope.  Numbers of scopes are never given
twice, and they are written in digits, so that the last dollar sign separates the parts whatever the name is.  Names in a
source text are made of letters, numerals and underscores: they are no mangled names.
-/

namespace Scriptlet

/-- The last dollar sign separates a name from a number. -/
theorem mangled_inj {name other : String} {i j : Nat} (h : name ++ "$" ++ toString i = other ++ "$" ++ toString j) :
    name = other ∧ i = j := by
  have hdigits : ∀ n, ∀ c ∈ (Nat.toDigits 10 n).reverse, (c != '$') = true := by
    intro n c hc
    have hdigit := Nat.isDigit_of_mem_toDigits (by decide) (by decide) (List.mem_reverse.1 hc)
    exact bne_iff_ne.2 fun hdollar => absurd (hdollar ▸ hdigit) (by decide)
  have hlist : name.toList ++ '$' :: Nat.toDigits 10 i = other.toList ++ '$' :: Nat.toDigits 10 j := by
    simpa [Nat.toString_eq_ofList_toDigits] using congrArg String.toList h
  -- read from the end, the number goes as far as the first dollar sign
  have hnumber : Nat.toDigits 10 i = Nat.toDigits 10 j := by
    have hstop : ∀ text, Scanner.Stops (· != '$') ('$' :: text) := fun _ => rfl
    have hreverse := congrArg (fun text => text.reverse.takeWhile (· != '$')) hlist
    simp only [List.reverse_append, List.reverse_cons, List.append_assoc, List.singleton_append] at hreverse
    rw [Scanner.takeWhile_run (hdigits i) (hstop _), Scanner.takeWhile_run (hdigits j) (hstop _)] at hreverse
    exact List.reverse_injective hreverse
  refine ⟨String.toList_inj.1 (List.append_inj' hlist (by rw [hnumber])).1, ?_⟩
  rw [← Lexeme.ofDigits_toDigits i, hnumber, Lexeme.ofDigits_toDigits]

/-- A name in a source text has no dollar sign in it. -/
theorem Scanner.Lexes.identifier {text rest : List Char} {found : Except Fault (Option Token)} {silent : Bool} {token : Token}
    (h : Lexes text rest found silent) (hfound : found = .ok (some token)) (hkind : token.kind = .identifier) :
    ∃ word, token.value = .text (String.ofList word) ∧ '$' ∉ word := by
  have hsigns : ∀ entry ∈ Lexeme.signs, entry.1 ≠ .identifier := by decide
  cases h with
  | word hstart _ hparts =>
      cases hfound
      refine ⟨_, rfl, fun hmem => ?_⟩
      rcases List.mem_cons.1 hmem with rfl | hmem
      · exact absurd hstart (by decide)
      · exact absurd (hparts _ hmem) (by decide)
  | sign hsign =>
      cases hfound
      exact absurd hkind (hsigns _ hsign)
  | integer | double =>
      obtain ⟨value, hvalue⟩ := numberToken_eq_ok hfound
      cases hvalue
      cases hkind
  | ampersand | stray => cases hfound
  | _ =>
      cases hfound
      cases hkind

namespace ScopeTable

/-- All symbols of a table are mangled with the numbers of their scopes. -/
def IsMangled (table : ScopeTable) : Prop :=
  ∀ i name symbol, (table.scope i).symbols.lookup name = some symbol → symbol.IsMangled name (table.scope i).id

theorem IsMangled.lasting : Lasting IsMangled where
  createScope {table} h i name symbol hlookup := by
    rw [(scope_createScope table i).1] at hlookup
    rw [scope_createScope_old (lt_size_of_lookup (Option.isSome_iff_exists.2 ⟨symbol, hlookup⟩))]
    exact h i name symbol hlookup
  enterScope h henter := by
    obtain ⟨_, -, rfl⟩ := enterScope_eq_ok.1 henter
    exact h
  exitScope h hexit := by
    obtain ⟨_, _, _, -, rfl⟩ := exitScope_eq_ok.1 hexit
    exact h
  addTo {table index name symbol} h hsymbol i other found hlookup := by
    have hid : ((table.addTo index name symbol).scope i).id = (table.scope i).id := by
      rw [scope, ScopeTable.addTo, getD_modify]
      split <;> rfl
    rw [hid]
    rcases of_lookup_addTo hlookup with hold | ⟨rfl, rfl, rfl⟩
    · exact h i other found hold
    · exact hsymbol
  setSymbol {table name symbol old} h hold hkind hname i other found hlookup := by
    have hid : ((table.setSymbol name symbol).scope i).id = (table.scope i).id := by
      rw [scope_setSymbol]
      split <;> rfl
    rw [hid]
    rw [lookup_setSymbol] at hlookup
    split at hlookup
    case isFalse => exact h i other found hlookup
    case isTrue hscope =>
      obtain ⟨hscope, rfl⟩ := hscope
      cases hlookup
      rw [lookup?_eq, hscope] at hold
      have hmangled := h i other old hold
      rwa [Symbol.IsMangled, Symbol.isVariable, ← hkind, ← hname] at hmangled

/-- Variables under different names or in different scopes have different mangled names, whatever was asked of the table,
and no mangled name can be a name in a source text. -/
theorem mangled_names_distinct {table : ScopeTable} (h : table.Reachable) :
    (∀ i j name other symbol another, (table.scope i).symbols.lookup name = some symbol →
      (table.scope j).symbols.lookup other = some another → symbol.isVariable → another.isVariable →
      (i, name) ≠ (j, other) → symbol.mangledName ≠ another.mangledName) ∧
    ∀ i name symbol mangled, (table.scope i).symbols.lookup name = some symbol → symbol.mangledName = some mangled →
      ∀ (scanner : Scanner) (token : Token), scanner.scan.token = .ok (some token) → token.kind = .identifier →
        token.value ≠ .text mangled := by
  obtain ⟨draft, requests, rfl⟩ := h
  have htree := Scoping.isRooted_serveAll draft requests
  have hmangled := Scoping.keeps_serveAll IsMangled.lasting (s := { toDraft := draft }) requests
    fun i name symbol hlookup => by
      rcases i with _ | i <;> cases hlookup
  refine ⟨fun i j name other symbol another hsymbol hanother hvariable hvariable' hne hsame => hne ?_,
    fun i name symbol mangled hsymbol hname scanner token htoken hkind hvalue => ?_⟩
  · have hlt : ∀ {index name symbol}, ((Scoping.serveAll { toDraft := draft } requests).table.scope index).symbols.lookup
        name = some symbol → index < (Scoping.serveAll { toDraft := draft } requests).table.scopes.size :=
      fun hlookup => lt_size_of_lookup (Option.isSome_iff_exists.2 ⟨_, hlookup⟩)
    have hfirst := hmangled i name symbol hsymbol
    have hsecond := hmangled j other another hanother
    rw [Symbol.IsMangled, if_pos hvariable, htree.id i (hlt hsymbol)] at hfirst
    rw [Symbol.IsMangled, if_pos hvariable', htree.id j (hlt hanother), ← hsame, hfirst] at hsecond
    obtain ⟨rfl, rfl⟩ := mangled_inj (Option.some.inj hsecond)
    rfl
  · have hsymbol := hmangled i name symbol hsymbol
    rw [Symbol.IsMangled, hname] at hsymbol
    obtain ⟨count, -, hread⟩ := Scanner.isRead_scanHere scanner.skipBlanks.skipComment
    obtain ⟨word, hword, hdollar⟩ := hread.identifier (scanner.scan_token ▸ htoken) hkind
    split at hsymbol
    case isFalse => cases hsymbol
    case isTrue =>
      obtain rfl := Option.some.inj hsymbol
      have hlist := congrArg String.toList (Scalar.text.inj (hword.symm.trans hvalue))
      rw [String.toList_ofList] at hlist
      exact hdollar (hlist ▸ by simp)

/-- A name that looks mangled, beside the variable whose mangled name it looks like. -/
theorem mangled_names_distinct_dollar :
    ∃ table : ScopeTable, table.Reachable ∧ ∃ symbol another, (table.scope 0).symbols.lookup "x$1" = some symbol ∧
      (table.scope 1).symbols.lookup "x" = some another ∧ another.mangledName = some "x$1" ∧
      symbol.mangledName ≠ another.mangledName ∧ (Scanner.ofSource "x").scan.token = .ok (some (.ofText .identifier "x")) ∧
      (Token.ofText .identifier "x").value ≠ .text "x$1" := by
  have hreachable : (Scoping.serveAll {} [.add "x$1" { kind := .text Symbol.variableKind }, .createScope,
    .add "x" { kind := .text Symbol.variableKind }]).table.Reachable := ⟨{}, _, rfl⟩
  obtain ⟨hdistinct, hsource⟩ := mangled_names_distinct hreachable
  refine ⟨_, hreachable, _, _, rfl, rfl, by rfl, hdistinct 0 1 "x$1" "x" _ _ rfl rfl rfl rfl (by decide), by rfl,
    hsource 1 "x" _ _ rfl (by rfl) (.ofSource "x") _ (by rfl) rfl⟩

end ScopeTable

end Scriptlet
