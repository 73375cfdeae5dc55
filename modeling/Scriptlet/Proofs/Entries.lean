import Mathlib.Tactic.Common

/-!
Lists of entries, where an entry is put in the place of the first one with its key, or at the end.
-/

namespace Scriptlet

variable {κ ν : Type} [DecidableEq κ] {key : κ} {value : ν}

theorem lookup_put (put : List (κ × ν) → List (κ × ν)) (hnil : put [] = [(key, value)])
    (hcons : ∀ name old rest, put ((name, old) :: rest) =
      if name = key then (name, value) :: rest else (name, old) :: put rest) (entries : List (κ × ν)) (other : κ) :
    (put entries).lookup other = if other = key then some value else entries.lookup other := by
  induction entries with
  | nil =>
      by_cases h : other = key
      · simp [hnil, h]
      · simp [hnil, List.lookup_cons, h, beq_eq_false_iff_ne.2 h]
  | cons entry rest ih =>
      obtain ⟨name, old⟩ := entry
      by_cases hname : name = key
      · subst hname
        by_cases h : other = name
        · simp [hcons, h]
        · simp [hcons, List.lookup_cons, h, beq_eq_false_iff_ne.2 h]
      · rw [hcons, if_neg hname, List.lookup_cons, ih, List.lookup_cons]
        by_cases h : other = key
        · subst h
          simp [beq_eq_false_iff_ne.2 (Ne.symm hname)]
        · simp [h]

end Scriptlet
