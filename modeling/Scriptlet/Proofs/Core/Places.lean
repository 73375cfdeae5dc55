import Scriptlet.Proofs.Core.Cells
import Scriptlet.Proofs.Scoping

/-!
Where the table of scopes has the variables of a program.

The scopes of a program are numbered in the order in which its blocks start.  A statement is placed in
the table if the names that it declares are in the scope around it, and its blocks are the next inner
scopes.
-/

namespace Scriptlet.Core

mutual

def Stmt.size : Stmt → Nat
  | .block body | .loop _ _ body => body.size
  | .cond _ _ body rest => body.size + rest.size
  | _ => 0

def Block.size : Block → Nat
  | .mk _ statements => statements.size + 1

def Stmts.size : Stmts → Nat
  | .nil => 0
  | .cons head tail => head.size + tail.size

def Branches.size : Branches → Nat
  | .none => 0
  | .otherwise body => body.size
  | .elif _ body rest => body.size + rest.size

end

def Branches.blocks : Branches → Nat
  | .none => 0
  | .otherwise _ => 1
  | .elif _ _ rest => 1 + rest.blocks

def Stmt.blocks : Stmt → Nat
  | .block _ | .loop .. => 1
  | .cond _ _ _ rest => 1 + rest.blocks
  | _ => 0

def Stmts.blocks : Stmts → Nat
  | .nil => 0
  | .cons head tail => head.blocks + tail.blocks

mutual

/-- The scopes of a statement are those from `next` on; the first of them is the inner scope of `scope`
that has the number `child` there. -/
def Stmt.Placed (table : ScopeTable) (scope child next : Nat) : Stmt → Prop
  | .declare _ name _ => ((table.scope scope).symbols.lookup name).isSome
  | .block body | .loop _ _ body => body.Placed table scope child next
  | .cond _ _ body rest =>
      body.Placed table scope child next ∧ rest.Placed table scope (child + 1) (next + body.size)
  | _ => True

def Block.Placed (table : ScopeTable) (scope child next : Nat) : Block → Prop
  | .mk _ statements =>
      (table.scope scope).children[child]? = some next ∧ statements.Placed table next 0 (next + 1)

def Stmts.Placed (table : ScopeTable) (scope child next : Nat) : Stmts → Prop
  | .nil => True
  | .cons head tail =>
      head.Placed table scope child next ∧
        tail.Placed table scope (child + head.blocks) (next + head.size)

def Branches.Placed (table : ScopeTable) (scope child next : Nat) : Branches → Prop
  | .none => True
  | .otherwise body => body.Placed table scope child next
  | .elif _ body rest =>
      body.Placed table scope child next ∧ rest.Placed table scope (child + 1) (next + body.size)

end

/-- The second table has all names and inner scopes of the first one. -/
structure Extends (table table' : ScopeTable) : Prop where
  names : ∀ i name, ((table.scope i).symbols.lookup name).isSome →
    ((table'.scope i).symbols.lookup name).isSome
  children : ∀ i (child index : Nat), (table.scope i).children[child]? = some index →
    (table'.scope i).children[child]? = some index

section Extends

variable {table table' : ScopeTable} {scope child next : Nat}

theorem Extends.refl (table : ScopeTable) : Extends table table :=
  ⟨fun _ _ h => h, fun _ _ _ h => h⟩

theorem Extends.trans {a b c : ScopeTable} (hab : Extends a b) (hbc : Extends b c) : Extends a c :=
  ⟨fun i name h => hbc.names i name (hab.names i name h),
    fun i child index h => hbc.children i child index (hab.children i child index h)⟩

theorem Extends.of_scopes (h : table'.scopes = table.scopes) : Extends table table' := by
  have hscope : ∀ i, table'.scope i = table.scope i := fun i => by simp [ScopeTable.scope, h]
  exact ⟨fun i name => by simp [hscope], fun i child index => by simp [hscope]⟩

theorem Extends.setSymbol (table : ScopeTable) (name : String) (symbol : Symbol) :
    Extends table (table.setSymbol name symbol) := by
  refine ⟨fun i other h => ?_, fun i child index h => by simpa using h⟩
  rw [ScopeTable.lookup_setSymbol]
  split
  · rfl
  · exact h

mutual

theorem Stmt.Placed.extend (h : Extends table table') :
    ∀ {stmt : Stmt} {scope child next : Nat}, stmt.Placed table scope child next →
      stmt.Placed table' scope child next
  | .declare .., _, _, _, hplaced => h.names _ _ hplaced
  | .block _, _, _, _, hplaced | .loop .., _, _, _, hplaced => Block.Placed.extend h hplaced
  | .cond .., _, _, _, ⟨hbody, hrest⟩ => ⟨Block.Placed.extend h hbody, Branches.Placed.extend h hrest⟩
  | .assign .., _, _, _, _ | .print .., _, _, _, _ | .breakOut _, _, _, _, _ => trivial

theorem Block.Placed.extend (h : Extends table table') :
    ∀ {body : Block} {scope child next : Nat}, body.Placed table scope child next →
      body.Placed table' scope child next
  | .mk .., _, _, _, ⟨hchild, hstatements⟩ =>
      ⟨h.children _ _ _ hchild, Stmts.Placed.extend h hstatements⟩

theorem Stmts.Placed.extend (h : Extends table table') :
    ∀ {statements : Stmts} {scope child next : Nat}, statements.Placed table scope child next →
      statements.Placed table' scope child next
  | .nil, _, _, _, _ => trivial
  | .cons .., _, _, _, ⟨hhead, htail⟩ => ⟨Stmt.Placed.extend h hhead, Stmts.Placed.extend h htail⟩

theorem Branches.Placed.extend (h : Extends table table') :
    ∀ {branches : Branches} {scope child next : Nat}, branches.Placed table scope child next →
      branches.Placed table' scope child next
  | .none, _, _, _, _ => trivial
  | .otherwise _, _, _, _, hbody => Block.Placed.extend h hbody
  | .elif .., _, _, _, ⟨hbody, hrest⟩ => ⟨Block.Placed.extend h hbody, Branches.Placed.extend h hrest⟩

end

end Extends

/-! ### Slots of variables -/

/-- A scope of the table refers to the slots of the variables declared in it so far. -/
structure Refers (table : ScopeTable) (index : Nat) (entries : List (String × Slot)) : Prop where
  slots : ∀ name slot, entries.lookup name = some slot →
    ∃ symbol, (table.scope index).symbols.lookup name = some symbol ∧
      symbol.reference = some (.slot slot.register slot.ty.ir)
  others : ∀ name symbol, entries.lookup name = none →
    (table.scope index).symbols.lookup name = some symbol → symbol.reference = none

/-- The table refers to the slots of all variables in scope, and to none in the scopes to come. -/
structure Walked (table : ScopeTable) (slots : Scopes Slot) (next : Nat) : Prop where
  levels : List.Forall₂ (Refers table) table.path slots
  nodup : table.path.Nodup
  below : ∀ index ∈ table.path, index < next
  later : ∀ index, next ≤ index → Refers table index []

section Walked

variable {table table' : ScopeTable} {slots : Scopes Slot} {next : Nat} {name : String}

theorem Refers.of_scope {index : Nat} {entries : List (String × Slot)}
    (h : Refers table index entries) (hscope : table'.scope index = table.scope index) :
    Refers table' index entries := by
  obtain ⟨hslots, hothers⟩ := h
  exact ⟨by rwa [hscope], by rwa [hscope]⟩

theorem refers_findSome? {path : List Nat} (h : List.Forall₂ (Refers table) path slots)
    {symbol : Symbol} {reference : Reference}
    (hfound : path.findSome? (fun index => (table.scope index).symbols.lookup name) = some symbol)
    (hreference : symbol.reference = some reference) :
    ∃ slot, slots.find? name = some slot ∧ reference = .slot slot.register slot.ty.ir := by
  induction h with
  | nil => simp at hfound
  | @cons index entries path slots hrefers _ ih =>
      rw [List.findSome?_cons] at hfound
      rw [Scopes.find?, List.findSome?_cons]
      cases hentry : entries.lookup name with
      | some slot =>
          obtain ⟨found, hlookup, hslot⟩ := hrefers.slots name slot hentry
          rw [hlookup] at hfound
          obtain rfl := Option.some.inj hfound
          exact ⟨slot, rfl, Option.some.inj (hreference.symm.trans hslot)⟩
      | none =>
          cases hlookup : (table.scope index).symbols.lookup name with
          | some found =>
              rw [hlookup] at hfound
              obtain rfl := Option.some.inj hfound
              rw [hrefers.others name found hentry hlookup] at hreference
              cases hreference
          | none =>
              rw [hlookup] at hfound
              exact ih hfound

/-- The reference of a name is the slot of the variable that it stands for. -/
theorem Walked.reference (h : Walked table slots next) {reference : Reference}
    (hreference : table.reference name = .ok (some reference)) :
    ∃ slot, slots.find? name = some slot ∧ reference = .slot slot.register slot.ty.ir := by
  obtain ⟨symbol, hlookup, href⟩ := ScopeTable.reference_eq_ok.1 hreference
  exact refers_findSome? h.levels hlookup href

/-- What changes in one scope is not seen in the others. -/
theorem forall₂_of_ne {β : Type} {R R' : Nat → β → Prop} {path : List Nat} {levels : List β} {index : Nat}
    (h : List.Forall₂ R path levels) (hindex : index ∉ path)
    (himp : ∀ i entries, i ≠ index → R i entries → R' i entries) : List.Forall₂ R' path levels := by
  induction h with
  | nil => exact .nil
  | cons hhead _ ih =>
      rw [List.mem_cons, not_or] at hindex
      exact .cons (himp _ _ (Ne.symm hindex.1) hhead) (ih hindex.2)

/-- A declaration is recorded in the innermost scope, which has the name. -/
theorem Walked.declare (h : Walked table slots next) (slot : Slot)
    (hplaced : ((table.scope table.current).symbols.lookup name).isSome) (hpath : table.path ≠ [])
    (hset : table.setReference name (some (.slot slot.register slot.ty.ir)) = .ok table') :
    Walked table' (slots.declare name slot) next ∧ Extends table table' ∧
      table'.path = table.path ∧ table'.entered = table.entered := by
  obtain ⟨symbol, -, rfl⟩ := ScopeTable.setReference_eq_ok.1 hset
  have hscope := ScopeTable.scopeOf?_of_current hplaced hpath
  -- Only the innermost scope changes.
  have hsame : ∀ i, i ≠ table.current → ∀ changed : Symbol,
      (table.setSymbol name changed).scope i = table.scope i := by
    intro i hi changed
    rw [ScopeTable.scope_setSymbol, hscope, if_neg fun heq => hi (Option.some.inj heq).symm]
  refine ⟨?_, Extends.setSymbol _ _ _, ScopeTable.path_setSymbol, ScopeTable.entered_setSymbol⟩
  obtain ⟨hlevels, hnodup, hbelow, hlater⟩ := h
  obtain ⟨rest, hp⟩ := ScopeTable.path_eq_cons hpath
  rw [hp] at hlevels hnodup hbelow
  refine ⟨?_, by rwa [ScopeTable.path_setSymbol, hp], by rwa [ScopeTable.path_setSymbol, hp],
    fun index hindex => (hlater index hindex).of_scope (hsame index ?_ _)⟩
  · rw [ScopeTable.path_setSymbol, hp]
    cases hlevels with
    | @cons _ entries _ outer hrefers houter =>
        refine .cons ⟨fun other found hfound => ?_, fun other found hnone hfound => ?_⟩ ?_
        · rw [ScopeTable.lookup_setSymbol, hscope]
          rw [List.lookup_cons] at hfound
          by_cases hother : other = name
          · subst hother
            simp only [beq_self_eq_true, Option.some.injEq] at hfound
            subst hfound
            exact ⟨_, if_pos ⟨rfl, rfl⟩, rfl⟩
          · rw [if_neg fun hand => hother hand.2]
            exact hrefers.slots other found (by simpa [beq_eq_false_iff_ne.2 hother] using hfound)
        · rw [ScopeTable.lookup_setSymbol, hscope] at hfound
          rw [List.lookup_cons] at hnone
          by_cases hother : other = name
          · simp [hother] at hnone
          · rw [if_neg fun hand => hother hand.2] at hfound
            exact hrefers.others other found (by simpa [beq_eq_false_iff_ne.2 hother] using hnone) hfound
        · exact forall₂_of_ne houter (List.nodup_cons.1 hnodup).1 fun i entries hi hrefers =>
            hrefers.of_scope (hsame i hi _)
  · have := hbelow table.current (by simp)
    omega

theorem Walked.enter (h : Walked table slots next) (henter : table.enterScope = .ok table')
    (hchild : table.currentScope.children[table.entered.headD 0]? = some next) :
    Walked table' ([] :: slots) (next + 1) ∧ Extends table table' ∧ table'.path = next :: table.path ∧
      table'.entered = 0 :: (table.entered.headD 0 + 1) :: table.entered.tail := by
  obtain ⟨child, hfound, rfl⟩ := ScopeTable.enterScope_eq_ok.1 henter
  obtain rfl := Option.some.inj (hchild.symm.trans hfound)
  refine ⟨⟨.cons ((h.later next (Nat.le_refl next)).of_scope rfl) (h.levels.imp fun _ _ hrefers => hrefers.of_scope rfl),
    ?_, ?_,
    fun index hindex => (h.later index (by omega)).of_scope rfl⟩, Extends.of_scopes rfl, rfl, rfl⟩
  · exact List.nodup_cons.2 ⟨fun hmem => Nat.lt_irrefl next (h.below next hmem), h.nodup⟩
  · intro index hmem
    rcases List.mem_cons.1 hmem with rfl | hmem
    · omega
    · have := h.below index hmem
      omega

theorem Walked.leave (h : Walked table slots next) (hexit : table.exitScope = .ok table') :
    Walked table' slots.tail next ∧ Extends table table' ∧ table'.path = table.path.tail ∧
      table'.entered = table.entered.tail := by
  obtain ⟨inner, outer, rest, hpath, rfl⟩ := ScopeTable.exitScope_eq_ok.1 hexit
  obtain ⟨hlevels, hnodup, hbelow, hlater⟩ := h
  rw [hpath] at hlevels hnodup hbelow
  refine ⟨⟨?_, (List.nodup_cons.1 hnodup).2, fun index hmem => hbelow index (by simp [hmem]),
    fun index hindex => (hlater index hindex).of_scope rfl⟩, Extends.of_scopes rfl, by simp [hpath], rfl⟩
  cases hlevels with
  | cons _ houter => exact houter.imp fun _ _ hrefers => hrefers.of_scope rfl

end Walked

end Scriptlet.Core
