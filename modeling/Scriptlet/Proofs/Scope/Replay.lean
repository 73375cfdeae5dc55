import Scriptlet.Proofs.Scope.Tree

/-!
Building scopes and walking through them again.

A table is built by creating scopes inside each other and declaring names on the way.  The walk that enters the same
scopes later has nothing to go by but a counter for each scope around it, and these counters are given up whenever a
scope is left.  Still it comes through the very scopes that were created, in the same order, and through all of them.
-/

namespace Scriptlet

/-- An ordered forest of scopes, each with what is done inside it and what is done after it has been left, and with
the names that are declared on the way. -/
inductive Nesting where
  | done
  | declare (name : String) (symbol : Symbol) (rest : Nesting)
  | block (inner rest : Nesting)

namespace Nesting

/-- Builds the scopes of a forest.  The places are the current scopes after each creation and after each exit. -/
def build : Nesting → ScopeTable → Except Fault (List Nat × ScopeTable)
  | .done, table => .ok ([], table)
  | .declare name symbol rest, table => do
      rest.build (← table.add name symbol)
  | .block inner rest, table => do
      let (inside, last) ← inner.build table.createScope
      let outside ← last.exitScope
      let (after, final) ← rest.build outside
      return (table.createScope.current :: inside ++ outside.current :: after, final)

/-- Walks through the scopes of a forest that has been built. -/
def replay : Nesting → ScopeTable → Except Fault (List Nat × ScopeTable)
  | .done, table => .ok ([], table)
  | .declare _ _ rest, table => rest.replay table
  | .block inner rest, table => do
      let entered ← table.enterScope
      let (inside, last) ← inner.replay entered
      let outside ← last.exitScope
      let (after, final) ← rest.replay outside
      return (entered.current :: inside ++ outside.current :: after, final)

variable {name : String} {symbol : Symbol} {inner rest nesting : Nesting} {table built : ScopeTable} {places : List Nat}

theorem build_declare_eq_ok : (declare name symbol rest).build table = .ok (places, built) ↔
    ∃ declared, table.add name symbol = .ok declared ∧ rest.build declared = .ok (places, built) := by
  rw [build]
  cases table.add name symbol <;> simp [bind, Except.bind]

theorem build_block_eq_ok : (block inner rest).build table = .ok (places, built) ↔
    ∃ inside last outside after, inner.build table.createScope = .ok (inside, last) ∧ last.exitScope = .ok outside ∧
      rest.build outside = .ok (after, built) ∧
      places = table.createScope.current :: inside ++ outside.current :: after := by
  rw [build]
  cases inner.build table.createScope with
  | error fault => simp [bind, Except.bind]
  | ok found =>
      obtain ⟨inside, last⟩ := found
      cases hexit : last.exitScope with
      | error fault => simp [bind, Except.bind, hexit]
      | ok outside =>
          cases hrest : rest.build outside with
          | error fault => simp [bind, Except.bind, hexit, hrest]
          | ok result => simp [bind, Except.bind, pure, Except.pure, hexit, hrest, Prod.ext_iff, eq_comm, and_comm]

/-- A forest as it stands in a table, among the scopes from `low` up to `high`: the scopes at its top are `children`,
and a walk over it comes through `places`. -/
inductive Stands (childrenOf : Nat → List Nat) (low high : Nat) : Nat → Nesting → List Nat → List Nat → Prop
  | done {outer : Nat} : Stands childrenOf low high outer .done [] []
  | declare {outer : Nat} {children places : List Nat} {rest : Nesting} (name : String) (symbol : Symbol) :
      Stands childrenOf low high outer rest children places →
      Stands childrenOf low high outer (.declare name symbol rest) children places
  | block {outer index : Nat} {children inside after : List Nat} {inner rest : Nesting} :
      low ≤ index → index < high → Stands childrenOf low high index inner (childrenOf index) inside →
      Stands childrenOf low high outer rest children after →
      Stands childrenOf low high outer (.block inner rest) (index :: children) (index :: inside ++ outer :: after)

/-- A forest stands as it stood if its own scopes have the same children. -/
theorem Stands.congr {childrenOf childrenOf' : Nat → List Nat} {low low' high high' outer : Nat} {children : List Nat}
    (h : Stands childrenOf low high outer nesting children places)
    (hsame : ∀ index, low ≤ index → index < high → childrenOf' index = childrenOf index)
    (hlow : low' ≤ low) (hhigh : high ≤ high') : Stands childrenOf' low' high' outer nesting children places := by
  induction h with
  | done => exact .done
  | declare name symbol _ ih => exact .declare name symbol ih
  | block hle hlt _ _ ihInner ihRest =>
      refine .block (hlow.trans hle) (hlt.trans_le hhigh) ?_ ihRest
      rw [hsame _ hle hlt]
      exact ihInner

/-! ### Building -/

/-- What building does to a table: the scopes around the place stay, new scopes follow the old ones, and the new
children of the current scope are the top of the forest. -/
structure Grows (nesting : Nesting) (table : ScopeTable) (places : List Nat) (built : ScopeTable) : Prop where
  tree : built.IsTree
  path : built.path = table.path
  entered : built.entered = table.entered
  size_le : table.scopes.size ≤ built.scopes.size
  /-- Names are declared in the current scope and in the new ones only. -/
  symbols : ∀ index, index < table.scopes.size → index ≠ table.current →
    (built.scope index).symbols = (table.scope index).symbols
  stands : ∃ children, (∀ index, index < table.scopes.size →
      (built.scope index).children = (table.scope index).children ++ if index = table.current then children else []) ∧
    Stands (fun index => (built.scope index).children) table.scopes.size built.scopes.size table.current nesting children
      places

theorem Grows.declare (htree : table.IsTree) {declared : ScopeTable} (hadd : table.add name symbol = .ok declared)
    (hrest : declared.IsTree → rest.Grows declared places built) : (Nesting.declare name symbol rest).Grows table places built := by
  obtain ⟨-, mangledName, rfl, -⟩ := ScopeTable.add_eq_ok.1 hadd
  obtain ⟨hbuilt, hpath, hentered, hsize, hsymbols, children, hchildren, hstands⟩ := hrest (htree.addTo ..)
  rw [ScopeTable.size_addTo] at hsize hstands
  simp only [ScopeTable.size_addTo, ScopeTable.children_addTo] at hsymbols hchildren
  refine ⟨hbuilt, hpath, hentered, hsize, fun index hlt hne => ?_, children, hchildren, .declare name symbol hstands⟩
  rw [hsymbols index hlt hne, ScopeTable.scope, ScopeTable.addTo, ScopeTable.getD_modify, if_neg fun h => hne h.1]
  rfl

theorem Grows.block (htree : table.IsTree) {inside after : List Nat} {last outside : ScopeTable}
    (hinner : inner.Grows table.createScope inside last) (hexit : last.exitScope = .ok outside)
    (hrest : outside.IsTree → rest.Grows outside after built) :
    (Nesting.block inner rest).Grows table (table.createScope.current :: inside ++ outside.current :: after) built := by
  obtain ⟨hlast, hpath, hentered, hsize, hsymbols, below, hbelow, hinside⟩ := hinner
  obtain ⟨left, outer, others, hleft, rfl⟩ := ScopeTable.exitScope_eq_ok.1 hexit
  -- The scope that is left is the new one, so the place is the old one again.
  obtain ⟨rfl, hback⟩ : left = table.scopes.size ∧ outer :: others = table.path := by
    have hcons : left :: outer :: others = table.scopes.size :: table.path := hleft.symm.trans hpath
    exact ⟨(List.cons.inj hcons).1, (List.cons.inj hcons).2⟩
  have houter : outer = table.current := by rw [ScopeTable.current, ← hback]; rfl
  have hcurrent : table.createScope.current = table.scopes.size := rfl
  subst houter
  have hlt := htree.current_lt
  simp only [ScopeTable.size_createScope, hcurrent, htree.children_createScope] at hsize hsymbols hbelow hinside
  obtain ⟨hbuilt, hpath', hentered', hsize', hsymbols', children, hchildren, hstands⟩ :=
    hrest (hlast.exitScope hexit)
  have hsize'' : last.scopes.size ≤ built.scopes.size := hsize'
  replace hchildren : ∀ index, index < last.scopes.size → (built.scope index).children =
      (last.scope index).children ++ if index = table.current then children else [] := hchildren
  refine ⟨hbuilt, hpath'.trans hback, hentered'.trans (by rw [hentered]; rfl), by omega, fun index hindex hne => ?_,
    table.scopes.size :: children, fun index hindex => ?_, ?_⟩
  · rw [hsymbols' index (show index < last.scopes.size by omega) hne]
    exact (hsymbols index (by omega) (by omega)).trans (ScopeTable.scope_createScope table index).1
  · rw [hchildren index (by omega), hbelow index (by omega), if_neg (Nat.ne_of_lt hindex)]
    split <;> simp
  · refine .block (Nat.le_refl _) (by omega) ?_ (hstands.congr (fun _ _ _ => rfl) (show _ ≤ last.scopes.size by omega) (Nat.le_refl _))
    rw [hchildren _ (by omega), if_neg (by omega), hbelow _ (by omega), if_pos rfl]
    simp only [ScopeTable.IsTree.children_of_ge (Nat.le_refl _), if_neg (Nat.ne_of_gt hlt), List.append_nil, List.nil_append]
    refine hinside.congr (fun index hlow hhigh => ?_) (by omega) hsize''
    rw [hchildren index hhigh, if_neg (by omega), List.append_nil]

theorem grows_build (htree : table.IsTree) (h : nesting.build table = .ok (places, built)) :
    nesting.Grows table places built := by
  induction nesting generalizing table places built with
  | done =>
      cases h
      exact ⟨htree, rfl, rfl, Nat.le_refl _, fun _ _ _ => rfl, [], fun _ _ => by simp, .done⟩
  | declare name symbol rest ih =>
      obtain ⟨declared, hadd, hrest⟩ := build_declare_eq_ok.1 h
      exact .declare htree hadd fun hdeclared => ih hdeclared hrest
  | block inner rest ihInner ihRest =>
      obtain ⟨inside, last, outside, after, hinner, hexit, hrest, rfl⟩ := build_block_eq_ok.1 h
      exact .block htree (ihInner htree.createScope hinner) hexit fun houtside => ihRest houtside hrest

/-! ### Walking -/

/-- A walk over a forest that stands in the table, from the place where its scopes come next. -/
theorem replay_of_stands {childrenOf : Nat → List Nat} {low high outer : Nat} {children walked path counts : List Nat}
    (h : Stands childrenOf low high outer nesting children places)
    (htable : ∀ index, (table.scope index).children = childrenOf index) (hpath : table.path = outer :: path)
    (hentered : table.entered = walked.length :: counts) (hchildren : childrenOf outer = walked ++ children) :
    nesting.replay table =
      .ok (places, { table with entered := (walked ++ children).length :: counts }) := by
  induction h generalizing table walked path counts with
  | done => simp [replay, ← hentered]
  | declare name symbol _ ih => exact ih htable hpath hentered hchildren
  | @block outer index children inside after inner rest _ _ _ _ ihInner ihRest =>
      have hcurrent : table.currentScope.children = walked ++ index :: children := by
        rw [ScopeTable.currentScope, ScopeTable.current, hpath, List.headD_cons, htable, hchildren]
      have henter : table.enterScope = .ok { table with
          path := index :: outer :: path, entered := 0 :: (walked ++ [index]).length :: counts } := by
        refine ScopeTable.enterScope_eq_ok.2 ⟨index, ?_, ?_⟩
        · rw [hcurrent, hentered]
          simp
        · simp [hpath, hentered]
      have hinside : inner.replay { table with
            path := index :: outer :: path, entered := 0 :: (walked ++ [index]).length :: counts } = .ok (inside, { table with
          path := index :: outer :: path
          entered := ([] ++ childrenOf index).length :: (walked ++ [index]).length :: counts }) :=
        ihInner htable rfl rfl rfl
      have hrest : rest.replay { table with path := outer :: path, entered := (walked ++ [index]).length :: counts } =
          .ok (after, { table with
            path := outer :: path, entered := (walked ++ [index] ++ children).length :: counts }) :=
        ihRest htable rfl rfl (by rw [hchildren, List.append_assoc]; rfl)
      rw [replay, henter]
      simp only [bind, Except.bind, hinside]
      show (do
        let (after, final) ← rest.replay { table with
          path := outer :: path, entered := (walked ++ [index]).length :: counts }
        return (index :: inside ++ outer :: after, final)) = _
      rw [hrest, ← hpath, List.append_assoc]
      rfl

/-- Walking through the scopes of a forest that was built comes through the scopes that were created, at every step,
and leaves none of them out. -/
theorem replay_build (h : nesting.build {} = .ok (places, built)) :
    ∃ walked, nesting.replay built = .ok (places, walked) ∧ walked.path = [0] ∧
      walked.enterScope = .error .noUnvisitedScope := by
  obtain ⟨-, hpath, hentered, -, -, children, hchildren, hstands⟩ := grows_build ScopeTable.IsTree.new h
  have hroot : (built.scope 0).children = children := hchildren 0 Nat.zero_lt_one
  have hreplay : nesting.replay built = .ok (places, { built with entered := ([] ++ children).length :: [] }) :=
    replay_of_stands hstands (fun _ => rfl) hpath hentered hroot
  refine ⟨_, hreplay, hpath, ?_⟩
  have hcurrent : built.currentScope.children[children.length]? = none := by
    rw [ScopeTable.currentScope, ScopeTable.current, hpath]
    exact hroot ▸ List.getElem?_eq_none (Nat.le_refl _)
  unfold ScopeTable.enterScope
  dsimp only
  split
  case h_1 hchild => exact absurd (hchild.symm.trans hcurrent) (by simp)
  case h_2 => rfl

/-- A scope in a scope, and another one behind them; the name is declared anew inside. -/
def sample : Nesting :=
  .declare "x" {} (.block (.declare "x" {} (.block .done .done)) (.block (.declare "y" {} .done) .done))

theorem replay_build_sample : ∃ built walked, sample.build {} = .ok ([1, 2, 1, 0, 3, 0], built) ∧
    sample.replay built = .ok ([1, 2, 1, 0, 3, 0], walked) ∧ walked.path = [0] ∧
    walked.enterScope = .error .noUnvisitedScope := by
  obtain ⟨built, hbuild⟩ : ∃ built, sample.build {} = .ok ([1, 2, 1, 0, 3, 0], built) := ⟨_, rfl⟩
  obtain ⟨walked, hwalked⟩ := replay_build hbuild
  exact ⟨built, walked, hbuild, hwalked⟩

end Nesting

end Scriptlet
