import Scriptlet.Proofs.Core.Code
import Scriptlet.Proofs.Core.Control

/-!
How the main function grows while code is generated.

Instructions are added at the end of blocks, and a block that holds a terminator only may get an
instruction without effect in front of it.  So what the finished function has at a place is known as
soon as it has been written.
-/

namespace Scriptlet.Core

open Ir (Instruction Operand)

/-- What can become of the instructions of a block; `used` are the registers in use. -/
def Grown (used : List String) (old new : List Instruction) : Prop :=
  old <+: new ∨ ∃ terminator name rest, old = [terminator] ∧ terminator.isTerminator = true ∧
    name ∉ used ∧ new = nop name :: terminator :: rest

theorem Grown.refl (used : List String) (code : List Instruction) : Grown used code code :=
  Or.inl (List.prefix_refl code)

theorem Grown.trans {used used' : List String} {a b c : List Instruction} (hused : used ⊆ used')
    (hab : Grown used a b) (hbc : Grown used' b c) : Grown used a c := by
  rcases hab with hab | ⟨terminator, name, rest, rfl, hend, hname, rfl⟩
  · rcases hbc with hbc | ⟨terminator, name, rest, rfl, hend, hname, rfl⟩
    · exact Or.inl (hab.trans hbc)
    · rcases List.prefix_cons_iff.1 hab with rfl | ⟨t, rfl, ht⟩
      · exact Or.inl (List.nil_prefix)
      · obtain rfl := List.prefix_nil.1 ht
        exact Or.inr ⟨terminator, name, rest, rfl, hend, fun hmem => hname (hused hmem), rfl⟩
  · rcases hbc with ⟨more, rfl⟩ | ⟨_, _, _, hsingle, _⟩
    · exact Or.inr ⟨terminator, name, rest ++ more, rfl, hend, hname, rfl⟩
    · simp at hsingle

/-- A function has grown: one block by new instructions, and by new blocks. -/
structure Develops (f : Ir.Function) (place : String) (f' : Ir.Function) : Prop where
  name : f'.name = f.name
  first : f.first?.isSome → f'.first? = f.first?
  used : f.names.used ⊆ f'.names.used
  here : ∀ block, f.block? place = some block → ∃ block', f'.block? place = some block' ∧
    Grown f.names.used block.instructions block'.instructions
  others : ∀ other, other ≠ place → (f.block? other).isSome → f'.block? other = f.block? other

section Develops

variable {f f' f₁ f₂ : Ir.Function} {place other : String} {code : List Instruction}

theorem Develops.refl (f : Ir.Function) (place : String) : Develops f place f :=
  ⟨rfl, fun _ => rfl, List.Subset.refl _, fun block h => ⟨block, h, Grown.refl _ _⟩, fun _ _ _ => rfl⟩

theorem Develops.of_wrote (h : f.Wrote place code f') : Develops f place f' := by
  refine ⟨h.name, fun _ => h.first, h.used, fun block hblock => ?_, fun other hother _ => h.there other hother⟩
  rw [h.here, hblock]
  exact ⟨_, rfl, Or.inl (List.prefix_append _ _)⟩

theorem Develops.of_appended (h : f.Appended other f') (hnamed : f.Named) (place : String) :
    Develops f place f' := by
  have hsame : ∀ place, (f.block? place).isSome → f'.block? place = f.block? place := by
    intro place hsome
    refine h.there place ?_
    rintro rfl
    exact h.new (hnamed _ hsome)
  refine ⟨h.name, h.first, h.used, fun block hblock => ⟨block, ?_, Grown.refl _ _⟩,
    fun other _ hsome => hsame other hsome⟩
  rw [hsame place (by rw [hblock]; rfl), hblock]

theorem Develops.isSome (h : Develops f place f') {name : String} (hsome : (f.block? name).isSome) :
    (f'.block? name).isSome := by
  by_cases hname : name = place
  · subst hname
    obtain ⟨block, hblock⟩ := Option.isSome_iff_exists.1 hsome
    obtain ⟨block', hblock', -⟩ := h.here block hblock
    rw [hblock']
    rfl
  · rwa [h.others name hname hsome]

theorem Develops.trans (h : Develops f place f₁) (h₁ : Develops f₁ other f₂)
    (hother : other = place ∨ f.block? other = none) : Develops f place f₂ := by
  have hfirst : f.first?.isSome → f₂.first? = f.first? := by
    intro hsome
    rw [h₁.first (by rwa [h.first hsome]), h.first hsome]
  refine ⟨h₁.name.trans h.name, hfirst, List.Subset.trans h.used h₁.used, fun block hblock => ?_,
    fun name hname hsome => ?_⟩
  · obtain ⟨block₁, hblock₁, hgrown₁⟩ := h.here block hblock
    by_cases hsame : place = other
    · subst hsame
      obtain ⟨block₂, hblock₂, hgrown₂⟩ := h₁.here block₁ hblock₁
      exact ⟨block₂, hblock₂, hgrown₁.trans h.used hgrown₂⟩
    · refine ⟨block₁, ?_, hgrown₁⟩
      rw [h₁.others place hsame (by rw [hblock₁]; rfl), hblock₁]
  · have hne : name ≠ other := by
      rintro rfl
      rcases hother with rfl | hnone
      · exact hname rfl
      · rw [hnone] at hsome
        cases hsome
    rw [h₁.others name hne (h.isSome hsome), h.others name hname hsome]

theorem Develops.none (h : Develops f place f') {name : String} (hnone : f'.block? name = none) :
    f.block? name = none := by
  by_contra hsome
  have := h.isSome (Option.isSome_iff_ne_none.2 hsome)
  rw [hnone] at this
  cases this

end Develops

/-- A setting in which a function has come to its final form. -/
structure Final (w : Machine.Setting) (f : Ir.Function) : Prop where
  blocks : ∀ place block, f.block? place = some block → ∃ block', w.function.block? place = some block' ∧
    Grown f.names.used block.instructions block'.instructions

section Final

variable {w : Machine.Setting} {f f' : Ir.Function} {place target : String} {instructions : List Instruction}

theorem Develops.final (h : Develops f place f') (hfinal : Final w f') : Final w f := by
  refine ⟨fun name block hblock => ?_⟩
  by_cases hname : name = place
  · subst hname
    obtain ⟨block', hblock', hgrown⟩ := h.here block hblock
    obtain ⟨last, hlast, hgrown'⟩ := hfinal.blocks name block' hblock'
    exact ⟨last, hlast, hgrown.trans h.used hgrown'⟩
  · obtain ⟨last, hlast, hgrown⟩ :=
      hfinal.blocks name block (by rw [h.others name hname (by rw [hblock]; rfl), hblock])
    exact ⟨last, hlast, (Grown.refl _ _).trans h.used hgrown⟩

theorem Final.isSome (h : Final w f) (hsome : (f.block? place).isSome) :
    (w.function.block? place).isSome := by
  obtain ⟨block, hblock⟩ := Option.isSome_iff_exists.1 hsome
  obtain ⟨block', hblock', -⟩ := h.blocks place block hblock
  rw [hblock']
  rfl

/-- Code that has been written stays where it is, unless it is a lone terminator. -/
theorem Final.code {code : List Instruction} (h : Final w f) (hblock : f.block? place = some ⟨place, instructions ++ code⟩)
    (hcode : (instructions ++ code).length ≠ 1 ∨ ∀ instruction ∈ code, instruction.isTerminator = false) :
    codeAt w ⟨place, instructions.length⟩ =
      code ++ codeAt w ⟨place, (instructions ++ code).length⟩ := by
  obtain ⟨block, hlast, hgrown⟩ := h.blocks place _ hblock
  simp only [codeAt, hlast, Option.map_some, Option.getD_some]
  rcases hgrown with ⟨rest, hrest⟩ | ⟨terminator, name, rest, hsingle, hend, -, -⟩
  · rw [← hrest]
    simp
  · rcases hcode with hlength | hplain
    · exact absurd (by rw [show instructions ++ code = [terminator] from hsingle]; rfl) hlength
    · -- The lone terminator is not part of the code, so the code is empty.
      cases code with
      | nil => simp
      | cons instruction rest =>
          obtain rfl : instructions = [] := by
            cases instructions with
            | nil => rfl
            | cons => simp at hsingle
          obtain ⟨rfl, -⟩ : instruction = terminator ∧ rest = [] := by simpa using hsingle
          rw [hplain instruction (by simp)] at hend
          cases hend

/-- A jump at the end of a block stays the end of it. -/
theorem Final.jumpsTo (h : Final w f)
    (hblock : f.block? place = some ⟨place, instructions ++ [.branch (some target)]⟩)
    (htarget : (f.block? target).isSome) : JumpsTo w f.names.used ⟨place, instructions.length⟩ target := by
  refine ⟨h.isSome htarget, ?_⟩
  obtain ⟨block, hlast, hgrown⟩ := h.blocks place _ hblock
  simp only [codeAt, hlast, Option.map_some, Option.getD_some]
  rcases hgrown with ⟨rest, hrest⟩ | ⟨terminator, name, rest, hsingle, -, hname, hnew⟩
  · rw [← hrest]
    exact Or.inl ⟨rest, by simp⟩
  · obtain rfl : instructions = [] := by
      cases instructions with
      | nil => rfl
      | cons => simp at hsingle
    obtain rfl : Instruction.branch (some target) = terminator := by simpa using hsingle
    exact Or.inr ⟨name, rest, hname, by simp [hnew]⟩

end Final

/-! ### States of generation -/

/-- What is being generated: the main function, what stands in the current block, and whether something
has been printed. -/
structure Site where
  function : Ir.Function
  code : List Instruction
  printing : Bool

/-- What stands in the module besides the main function. -/
def extras (printing : Bool) : List Ir.Global :=
  if printing then Emit.requirements "printf" else []

/-- The main function is being written. -/
structure Stage (g : Generation) (s : Site) : Prop where
  place : g.place.function = "main"
  name : s.function.name = "main"
  globals : g.module.globals = .function s.function :: extras s.printing

/-- From one state of generation to a later one the function has grown.  The current block is the same
or a new one. -/
structure Grows (g : Generation) (s : Site) (g' : Generation) (s' : Site) : Prop where
  stage : Stage g' s'
  develops : Develops s.function g.place.block s'.function
  place : g'.place.block = g.place.block ∨ s.function.block? g'.place.block = none
  printing : s.printing = true → s'.printing = true
  cached : Cached g.toDraft g'.toDraft

section Stage

variable {g g' g₁ g₂ : Generation} {s s' s₁ s₂ : Site} {f f' : Ir.Function} {code : List Instruction}
  {anchor : Nat} {place : String}

theorem Stage.current (h : Stage g s) : g.current? = some s.function := by
  unfold Generation.current?
  rw [show g.module = ⟨.function s.function :: extras s.printing⟩ from congrArg Ir.Module.mk h.globals,
    Ir.Module.function?_cons_function, h.place, if_pos h.name]

theorem Stage.put (h : Stage g s) (hname : f'.name = s.function.name) (anchor : Nat)
    (code : List Instruction) : Stage (g.put f' anchor) ⟨f', code, s.printing⟩ := by
  refine ⟨h.place, hname.trans h.name, ?_⟩
  have hextras : ∀ printing, (Ir.Module.modifyFunction ⟨extras printing⟩ "main" fun _ => f').globals =
      extras printing := by
    intro printing
    cases printing <;> rfl
  show (Ir.Module.modifyFunction g.module g.place.function fun _ => f').globals = _
  rw [show g.module = ⟨.function s.function :: extras s.printing⟩ from congrArg Ir.Module.mk h.globals,
    h.place]
  simp only [Ir.Module.modifyFunction, List.map_cons, h.name, beq_self_eq_true, if_true]
  exact congrArg _ (hextras s.printing)

theorem Stage.congr (h : Stage g s) (hmodule : g'.module = g.module) (hplace : g'.place = g.place) :
    Stage g' s :=
  ⟨by rw [hplace, h.place], h.name, by rw [hmodule, h.globals]⟩

theorem Grows.refl (h : Stage g s) : Grows g s g s :=
  ⟨h, Develops.refl _ _, Or.inl rfl, id, Cached.refl _⟩

theorem Grows.trans (h : Grows g s g₁ s₁) (h₁ : Grows g₁ s₁ g₂ s₂) : Grows g s g₂ s₂ := by
  refine ⟨h₁.stage, h.develops.trans h₁.develops h.place, ?_, fun hprinting => h₁.printing (h.printing hprinting),
    h.cached.trans h₁.cached⟩
  rcases h₁.place with hplace | hnone
  · rw [hplace]
    exact h.place
  · exact Or.inr (h.develops.none hnone)

theorem Grows.move (h : Grows g s g₁ s₁) {name : String} (hnew : s.function.block? name = none)
    (anchor : Nat) (code : List Instruction) :
    Grows g s { g₁ with place := ⟨"main", name⟩, anchor } { s₁ with code } :=
  ⟨⟨rfl, h.stage.name, h.stage.globals⟩, h.develops, Or.inr hnew, h.printing, h.cached⟩

theorem Grows.congr (h : Grows g s g₁ s₁) (hmodule : g₂.module = g₁.module) (hplace : g₂.place = g₁.place)
    (hdraft : g₂.toDraft = g₁.toDraft) : Grows g s g₂ s₁ := by
  refine ⟨h.stage.congr hmodule hplace, h.develops, ?_, h.printing, ?_⟩
  · rw [hplace]
    exact h.place
  · rw [hdraft]
    exact h.cached

theorem Grows.withCode (h : Grows g s g₁ s₁) (code : List Instruction) : Grows g s g₁ { s₁ with code } :=
  ⟨⟨h.stage.place, h.stage.name, h.stage.globals⟩, h.develops, h.place, h.printing, h.cached⟩

theorem grows_writes (hstage : Stage g s) (h : Writes g s.function code g' f') :
    Grows g s g' ⟨f', s.code ++ code, s.printing⟩ := by
  have hput := hstage.put h.wrote.name (g.anchor + code.length) (s.code ++ code)
  refine ⟨?_, Develops.of_wrote h.wrote, Or.inl (by rw [h.place]), id, h.cached⟩
  rw [h.state]
  exact ⟨hput.place, hput.name, hput.globals⟩

theorem grows_wrote (hstage : Stage g s) (h : s.function.Wrote g.place.block code f') (anchor : Nat)
    (code' : List Instruction) : Grows g s (g.put f' anchor) ⟨f', code', s.printing⟩ :=
  ⟨hstage.put h.name anchor code', Develops.of_wrote h, Or.inl rfl, id, Cached.refl _⟩

theorem grows_appended (hstage : Stage g s) (hnamed : s.function.Named) (h : s.function.Appended place f')
    (anchor : Nat) : Grows g s (g.put f' anchor) ⟨f', s.code, s.printing⟩ :=
  ⟨hstage.put h.name anchor s.code, Develops.of_appended h hnamed g.place.block, Or.inl rfl, id,
    Cached.refl _⟩

end Stage

end Scriptlet.Core
