import Mathlib
import Scriptlet.Ir.Module

/-!
A new name is new: among as many numbers as there are names, one is free, because the name without a
number is taken as well.
-/

namespace Scriptlet.Ir.NameScope

theorem numbered_injective (base : String) : Function.Injective (numbered base) := by
  intro m n h
  have hrepr : toString m = toString n := (String.append_right_inj _).1 h
  exact Nat.repr_injective hrepr

theorem numbered_ne (base : String) (number : Nat) : numbered base number ≠ base := by
  intro h
  have hlength := congrArg String.length h
  simp only [numbered, String.length_append] at hlength
  have : ".".length = 1 := rfl
  omega

theorem freeNumber_not_used {scope : NameScope} {base : String} {tries number : Nat}
    (h : ∃ k < tries, numbered base (number + k) ∉ scope.used) :
    numbered base (scope.freeNumber base tries number) ∉ scope.used := by
  induction tries generalizing number with
  | zero =>
      obtain ⟨k, hk, -⟩ := h
      omega
  | succ tries ih =>
      rw [freeNumber]
      split
      case isTrue hused =>
        obtain ⟨k, hk, hfree⟩ := h
        have hpositive : k ≠ 0 := by
          rintro rfl
          exact hfree (by simpa [isUsed] using hused)
        refine ih ⟨k - 1, by omega, ?_⟩
        rwa [show number + 1 + (k - 1) = number + k by omega]
      case isFalse hunused => simpa [isUsed] using hunused

/-- The names with a number and the one without are too many to be all taken. -/
theorem exists_free (scope : NameScope) {base : String} (hbase : base ∈ scope.used) (number : Nat) :
    ∃ k < scope.used.length, numbered base (number + k) ∉ scope.used := by
  by_contra hnone
  push Not at hnone
  have hinjective : Function.Injective fun k => numbered base (number + k) := by
    intro a b h
    have := numbered_injective base h
    omega
  have hnodup : (base :: (List.range scope.used.length).map fun k =>
      numbered base (number + k)).Nodup := by
    refine List.nodup_cons.2 ⟨?_, List.nodup_range.map hinjective⟩
    rw [List.mem_map]
    rintro ⟨k, -, hk⟩
    exact numbered_ne base (number + k) hk
  have hsubset : (base :: (List.range scope.used.length).map fun k =>
      numbered base (number + k)) ⊆ scope.used := by
    refine List.cons_subset.2 ⟨hbase, ?_⟩
    intro name hname
    obtain ⟨k, hk, rfl⟩ := List.mem_map.1 hname
    exact hnone k (List.mem_range.1 hk)
  have hlength := (hnodup.subperm hsubset).length_le
  simp at hlength

theorem fresh_not_used (scope : NameScope) (base : String) : (scope.fresh base).1 ∉ scope.used := by
  unfold fresh
  split
  case isTrue hused =>
    exact freeNumber_not_used (scope.exists_free (by simpa [isUsed] using hused) _)
  case isFalse hunused => simpa [isUsed] using hunused

theorem used_fresh (scope : NameScope) (base : String) :
    (scope.fresh base).2.used = (scope.fresh base).1 :: scope.used := by
  unfold fresh
  split <;> rfl

theorem fresh_mem_used (scope : NameScope) (base : String) :
    (scope.fresh base).1 ∈ (scope.fresh base).2.used := by
  rw [used_fresh]
  exact List.mem_cons_self

theorem used_subset_fresh (scope : NameScope) (base : String) :
    scope.used ⊆ (scope.fresh base).2.used := by
  rw [used_fresh]
  exact List.subset_cons_self _ _

end Scriptlet.Ir.NameScope
