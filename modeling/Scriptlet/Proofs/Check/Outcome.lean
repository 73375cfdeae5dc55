import Scriptlet.Proofs.Node

/-!
When an action of the analysis succeeds, and with what.
-/

namespace Scriptlet

variable {u : Unit} {a a' : Analysis}

/-- An action that never succeeds. -/
class Refuses {α : Type} (x : Check α) : Prop where
  ne_ok : ∀ a found a', ¬ x a = .ok found a'

section Refuses

variable {α β : Type} {a a' : Analysis}
variable {x y : Check α} {line : Scalar} {c : Prop}

instance (kind : ComplaintKind) (message : String) : Refuses (Check.refuse kind message line : Check α) :=
  ⟨by simp [Check.refuse]⟩

instance (f : α → Check β) [h : ∀ found, Refuses (f found)] : Refuses (x >>= f) :=
  ⟨fun a found a' hbind => by
    obtain ⟨middle, a₁, -, hf⟩ := bind_eq_ok.1 hbind
    exact (h middle).ne_ok a₁ found a' hf⟩

instance (f : α → Check β) [h : Refuses x] : Refuses (x >>= f) :=
  ⟨fun a found a' hbind => by
    obtain ⟨middle, a₁, hx, -⟩ := bind_eq_ok.1 hbind
    exact h.ne_ok a middle a₁ hx⟩

instance (fault : Fault) : Refuses (fail fault : Check α) :=
  ⟨by simp⟩

theorem Journal.announce_ne_ok {failure : Failure} {journal journal' : Journal} {u : Unit} :
    ¬ Journal.announce failure true line journal = .ok u journal' := by
  unfold Journal.announce
  cases failure <;> simp [Journal.announceAs, bind_eq_ok]

instance (failure : Failure) :
    Refuses (liftM (liftM (Journal.announce failure true line) : Draft.Action Unit) : Check Unit) := by
  refine ⟨fun a u a' h => ?_⟩
  obtain ⟨journal, hannounce, -⟩ := lift_writer_eq_ok.1 h
  exact Journal.announce_ne_ok hannounce

instance [Decidable c] [hx : Refuses x] [hy : Refuses y] : Refuses (if c then x else y) := by
  split
  · exact hx
  · exact hy

theorem Check.ite_refuses [Decidable c] [h : Refuses y] {found : α} :
    (if c then x else y) a = .ok found a' ↔ c ∧ x a = .ok found a' := by
  by_cases hc : c <;> simp [hc, h.ne_ok]

theorem Check.refuses_ite [Decidable c] [h : Refuses x] {found : α} :
    (if c then x else y) a = .ok found a' ↔ ¬ c ∧ y a = .ok found a' := by
  by_cases hc : c <;> simp [hc, h.ne_ok]

end Refuses

theorem Check.table_eq_ok {table : ScopeTable} : Check.table a = .ok table a' ↔ a.table = table ∧ a = a' := by
  simp [Check.table, and_comm]

theorem Check.setTable_eq_ok {table : ScopeTable} : Check.setTable table a = .ok u a' ↔ { a with table } = a' := by
  simp [Check.setTable]

theorem Check.changeTable_eq_ok {change : ScopeTable → Except Fault ScopeTable} :
    Check.changeTable change a = .ok u a' ↔ ∃ table, change a.table = .ok table ∧ { a with table } = a' := by
  simp only [Check.changeTable, bind_eq_ok, Check.table_eq_ok, Check.setTable_eq_ok, orFail_eq_ok]
  constructor
  · rintro ⟨_, _, ⟨rfl, rfl⟩, table, _, ⟨hchange, rfl⟩, rfl⟩
    exact ⟨table, hchange, rfl⟩
  · rintro ⟨table, hchange, rfl⟩
    exact ⟨_, _, ⟨rfl, rfl⟩, table, _, ⟨hchange, rfl⟩, rfl⟩

theorem Check.visitWithin_kind {depth : Nat} {id : NodeId} {kind : Kind} (hkind : (a.graph.node id).kind = kind)
    (h : Check.visitWithin depth (.node id) a = .ok u a') :
    ∃ n, Check.visitNode (Check.visitWithin n) (.node id) kind a = .ok u a' := by
  cases depth with
  | zero => simp [Check.visitWithin] at h
  | succ n =>
      simp only [Check.visitWithin, bind_eq_ok, lift_currentGraph_eq_ok] at h
      obtain ⟨_, _, ⟨rfl, rfl⟩, h⟩ := h
      subst hkind
      exact ⟨n, h⟩

theorem Symbol.entry_record {entries : List (String × Value)} {key : String} {value absent : Value}
    (h : entries.lookup key = some value) : Symbol.entry (.record entries) key absent = .ok value := by
  simp [Symbol.entry, h]

end Scriptlet
