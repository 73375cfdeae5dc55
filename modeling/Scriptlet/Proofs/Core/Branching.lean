import Scriptlet.Proofs.Core.Growth

/-!
The steps of code generation that make blocks, end them and go from one to another.
-/

namespace Scriptlet.Core

open Ir (Instruction Operand)

/-- Nothing but the module has changed, and notes. -/
structure Steady (g g' : Generation) : Prop where
  place : g'.place = g.place
  table : g'.table = g.table
  loopExit : g'.loopExit = g.loopExit

theorem Writes.steady {g g' : Generation} {f f' : Ir.Function} {code : List Instruction}
    (h : Writes g f code g' f') : Steady g g' :=
  ⟨h.place, h.table, by rw [h.state]; rfl⟩

theorem Steady.trans {a b c : Generation} (hab : Steady a b) (hbc : Steady b c) : Steady a c :=
  ⟨hbc.place.trans hab.place, hbc.table.trans hab.table, hbc.loopExit.trans hab.loopExit⟩

/-- If there is a merge block yet, it is empty, and it is not the one being written. -/
def Awaits (f : Ir.Function) (merge : Option BlockRef) (place : String) : Prop :=
  ∀ ref, merge = some ref → ref.function = "main" ∧ f.block? ref.block = some ⟨ref.block, []⟩ ∧
    ref.block ≠ place

section Steps

variable {g g' : Generation} {s : Site} {u : Unit} {ref : BlockRef} {base name : String}
  {instruction : Instruction} {merge merge' : Option BlockRef}

theorem eq_of_eq_ok {α : Type} {x : EStateM.Result Failure Generation α} {a b : α} (h : x = .ok a g)
    (h' : x = .ok b g') : a = b ∧ g = g' := by
  rw [h] at h'
  simpa using h'

theorem appendBlock_ok (hstage : Stage g s) (hopen : g.Open s.function s.code)
    (h : Emit.appendBlock base g = .ok ref g') :
    ∃ name f', ref = ⟨"main", name⟩ ∧ g' = g.put f' g.anchor ∧ s.function.Appended name f' ∧
      Grows g s g' { s with function := f' } ∧ g'.Open f' s.code := by
  obtain ⟨name, f', heq, happended⟩ := Emit.appendBlock_open hopen base
  obtain ⟨rfl, rfl⟩ := eq_of_eq_ok heq h
  rw [hstage.place]
  exact ⟨name, f', rfl, rfl, happended, grows_appended hstage hopen.named happended g.anchor,
    hopen.appended happended⟩

theorem appendBlocks_ok {g₁ g₂ : Generation} {base₁ base₂ base₃ : String} {ref₁ ref₂ ref₃ : BlockRef}
    (hstage : Stage g s) (hopen : g.Open s.function s.code)
    (h₁ : Emit.appendBlock base₁ g = .ok ref₁ g₁) (h₂ : Emit.appendBlock base₂ g₁ = .ok ref₂ g₂)
    (h₃ : Emit.appendBlock base₃ g₂ = .ok ref₃ g') :
    ∃ a b c f', ref₁ = ⟨"main", a⟩ ∧ ref₂ = ⟨"main", b⟩ ∧ ref₃ = ⟨"main", c⟩ ∧ g' = g.put f' g.anchor ∧
      Grows g s g' { s with function := f' } ∧ g'.Open f' s.code ∧ [a, b, c].Nodup ∧
      ∀ name ∈ [a, b, c], s.function.block? name = none ∧ f'.block? name = some ⟨name, []⟩ := by
  obtain ⟨a, f₁, rfl, rfl, happended₁, hgrows₁, hopen₁⟩ := appendBlock_ok hstage hopen h₁
  obtain ⟨b, f₂, rfl, rfl, happended₂, hgrows₂, hopen₂⟩ := appendBlock_ok hgrows₁.stage hopen₁ h₂
  obtain ⟨c, f₃, rfl, rfl, happended₃, hgrows₃, hopen₃⟩ := appendBlock_ok hgrows₂.stage hopen₂ h₃
  have hnone₁ := happended₁.none hopen.named
  have hnone₂ := happended₂.none hopen₁.named
  have hnone₃ := happended₃.none hopen₂.named
  have hne : ∀ {f : Ir.Function} {new old : String}, f.block? new = none → f.block? old = some ⟨old, []⟩ →
      old ≠ new := by
    rintro f new _ hnone hsome rfl
    simp [hnone] at hsome
  have hab : a ≠ b := hne hnone₂ happended₁.here
  have hac : a ≠ c := hne hnone₃ ((happended₂.there a hab).trans happended₁.here)
  have hbc : b ≠ c := hne hnone₃ happended₂.here
  have hput : ((g.put f₁ g.anchor).put f₂ g.anchor).put f₃ g.anchor = g.put f₃ g.anchor := by
    rw [Generation.put_put (g := g) (f := f₁) (happended₁.name.trans hopen.name),
      Generation.put_put (g := g) (f := f₂) (happended₂.name.trans (happended₁.name.trans hopen.name))]
  refine ⟨a, b, c, f₃, rfl, rfl, rfl, hput, (hgrows₁.trans hgrows₂).trans hgrows₃, hopen₃, by simp [hab, hac, hbc], ?_⟩
  simp only [List.mem_cons, List.not_mem_nil, or_false, forall_eq_or_imp, forall_eq]
  refine ⟨⟨hnone₁, ?_⟩, ⟨hgrows₁.develops.none hnone₂, ?_⟩, (hgrows₁.trans hgrows₂).develops.none hnone₃, happended₃.here⟩
  · rw [happended₃.there a hac, happended₂.there a hab, happended₁.here]
  · rw [happended₃.there b hbc, happended₂.here]

theorem terminate_ok (hstage : Stage g s) (hopen : g.Open s.function s.code)
    (hend : instruction.isTerminator = true) (h : Emit.terminate instruction g = .ok u g') :
    ∃ f', g' = g.put f' (g.anchor + 1) ∧ s.function.Wrote g.place.block [instruction] f' ∧
      Grows g s g' ⟨f', s.code ++ [instruction], s.printing⟩ ∧
      g'.Closed f' (s.code ++ [instruction]) := by
  obtain ⟨f', heq, hwrote⟩ := Emit.terminate_open hopen instruction
  obtain ⟨-, rfl⟩ := eq_of_eq_ok heq h
  exact ⟨f', rfl, hwrote, grows_wrote hstage hwrote _ _, hopen.closed hwrote hend⟩

theorem goToEnd_ok (hstage : Stage g s) (hnamed : s.function.Named)
    (hblock : s.function.block? name = some ⟨name, []⟩)
    (h : Emit.goToEnd ⟨"main", name⟩ g = .ok u g') :
    g' = { g with place := ⟨"main", name⟩, anchor := 0 } ∧ g'.Open s.function [] := by
  rw [← hstage.place] at h
  obtain ⟨-, rfl⟩ := eq_of_eq_ok (Emit.goToEnd_eq hstage.current hblock) h
  rw [← hstage.place]
  exact ⟨rfl, ⟨hstage.current, hblock, hnamed⟩, rfl, by simp⟩

/-! ### Padding -/

theorem padBlock_open (hopen : g.Open s.function s.code) : Emit.padBlock g = .ok () g := by
  have hended : (Ir.Block.mk g.place.block s.code).isTerminated = false := by
    simpa [Ir.Block.isTerminated] using hopen.plain
  simp [Emit.padBlock, Emit.currentBlock_eq hopen.current hopen.block, hended]

/-- A function with a comment behind the first instruction of a block. -/
def commented (f : Ir.Function) (place : String) : Ir.Function :=
  (f.take "").modifyBlock place fun block => block.insert 1 (.comment "Nop")

/-- A function with an instruction without effect at the start of a block, and a comment. -/
def padded (f : Ir.Function) (place : String) : Ir.Function :=
  ((commented f place).take "").modifyBlock place fun block =>
    block.insert 0 (nop ((commented f place).names.fresh "").1)

theorem padBlock_lone (hclosed : g.Closed s.function s.code) (hlone : s.code.length = 1) :
    Emit.padBlock g = .ok () (g.put (padded s.function g.place.block) 1) := by
  have hended : (Ir.Block.mk g.place.block s.code).isTerminated = true := by
    simpa [Ir.Block.isTerminated] using hclosed.ended
  have hcomment := Emit.emitVoid_eq hclosed.current (.comment "Nop")
  rw [hclosed.anchor hlone] at hcomment
  have hnop : Emit.binary .add (.int 0) (.int 0) (g.put (commented s.function g.place.block) 0) =
      .ok (.register ((commented s.function g.place.block).names.fresh "").1 Ir.Ty.i64)
        (g.put (padded s.function g.place.block) 1) :=
    Emit.emit_put hclosed.current (commented s.function g.place.block) 0 rfl Ir.Ty.i64
      (fun name => .binary name .add Ir.Ty.i64 (.int 0) (.int 0)) ""
  simp only [Emit.padBlock, bind_eq_ok]
  refine ⟨_, _, Emit.currentBlock_eq hclosed.current hclosed.block, ?_⟩
  rw [if_pos (by simp [hended, hlone])]
  simp only [bind_eq_ok, modify_eq_ok, pure_eq_ok]
  exact ⟨(), _, hcomment, (), _, rfl, _, _, hnop, trivial, rfl⟩

theorem block?_padded (f : Ir.Function) (place other : String) :
    (padded f place).block? other = (f.block? other).map fun block =>
      if other = place then (block.insert 1 (.comment "Nop")).insert 0
        (nop ((commented f place).names.fresh "").1) else block := by
  rw [padded, Ir.Function.block?_insert, commented, Ir.Function.block?_insert, Option.map_map]
  congr 1
  funext block
  by_cases h : other = place <;> simp [h]

theorem develops_padded {f : Ir.Function} {place : String} {terminator : Instruction}
    (hblock : f.block? place = some ⟨place, [terminator]⟩) (hend : terminator.isTerminator = true) :
    Develops f place (padded f place) := by
  have hused : f.names.used ⊆ (commented f place).names.used := f.names.used_subset_fresh ""
  refine ⟨rfl, fun _ => ?_, List.Subset.trans hused ((commented f place).names.used_subset_fresh ""),
    fun block hsome => ?_, fun other hother _ => ?_⟩
  · rw [padded, Ir.Function.first?_insert, commented, Ir.Function.first?_insert]
  · obtain rfl := Option.some.inj (hblock.symm.trans hsome)
    rw [block?_padded, hblock]
    refine ⟨_, rfl, Or.inr ⟨terminator, _, [.comment "Nop"], rfl, hend, fun hmem => ?_, by simp; rfl⟩⟩
    exact (commented f place).names.fresh_not_used "" (hused hmem)
  · rw [block?_padded]
    cases f.block? other <;> simp [hother]

/-- A lone terminator gets company; nothing else changes. -/
theorem padBlock_ok (hstage : Stage g s) (hclosed : g.Closed s.function s.code)
    (h : Emit.padBlock g = .ok u g') :
    ∃ s', g'.Closed s'.function s'.code ∧ Grows g s g' s' ∧ Steady g g' := by
  have hended : (Ir.Block.mk g.place.block s.code).isTerminated = true := by
    simpa [Ir.Block.isTerminated] using hclosed.ended
  by_cases hlone : s.code.length = 1
  · obtain ⟨-, rfl⟩ := eq_of_eq_ok (padBlock_lone hclosed hlone) h
    obtain ⟨terminator, hcode⟩ := List.length_eq_one_iff.1 hlone
    have hend : terminator.isTerminator = true := by simpa [hcode] using hclosed.ended
    have hblock := hclosed.block
    rw [hcode] at hblock
    have hdevelops := develops_padded hblock hend
    have hnamed : (padded s.function g.place.block).Named := by
      intro other hother
      rw [block?_padded, Option.isSome_map] at hother
      exact hdevelops.used (hclosed.named other hother)
    have hpadded : (padded s.function g.place.block).block? g.place.block =
        some ⟨g.place.block, nop ((commented s.function g.place.block).names.fresh "").1 ::
          terminator :: [.comment "Nop"]⟩ := by
      rw [block?_padded, hblock]
      simp [Ir.Block.insert]
    exact ⟨⟨padded s.function g.place.block, _, s.printing⟩,
      ⟨⟨Generation.current?_put hclosed.current rfl, hpadded, hnamed⟩, by simp, terminator, by simp, hend⟩,
      ⟨hstage.put (show (padded _ _).name = _ from rfl) 1 _, hdevelops, Or.inl rfl, id, Cached.refl _⟩, rfl, rfl, rfl⟩
  · have hsame : Emit.padBlock g = .ok () g := by
      simp [Emit.padBlock, Emit.currentBlock_eq hclosed.current hclosed.block, hlone]
    obtain ⟨-, rfl⟩ := eq_of_eq_ok hsame h
    exact ⟨s, hclosed, Grows.refl hstage, rfl, rfl, rfl⟩

/-! ### The end of a branch -/

theorem endBranch_closed (hstage : Stage g s) (hclosed : g.Closed s.function s.code)
    (h : Emit.endBranch merge g = .ok merge' g') :
    merge' = merge ∧ ∃ s', g'.Closed s'.function s'.code ∧ Grows g s g' s' ∧ Steady g g' := by
  simp only [Emit.endBranch, bind_eq_ok] at h
  obtain ⟨_, g₁, hpad, ended, _, hended, h⟩ := h
  obtain ⟨s₁, hclosed₁, hgrows₁, hsteady⟩ := padBlock_ok hstage hclosed hpad
  obtain ⟨rfl, rfl⟩ := eq_of_eq_ok (Emit.isTerminated_closed hclosed₁) hended
  obtain ⟨rfl, rfl⟩ : merge = merge' ∧ g₁ = g' := by simpa using h
  exact ⟨rfl, s₁, hclosed₁, hgrows₁, hsteady⟩

/-- A branch that has not ended yet jumps to the merge block, which is there from now on. -/
theorem endBranch_open (hstage : Stage g s) (hopen : g.Open s.function s.code)
    (hawaits : Awaits s.function merge g.place.block) (h : Emit.endBranch merge g = .ok merge' g') :
    ∃ m f', merge' = some ⟨"main", m⟩ ∧
      (merge = some ⟨"main", m⟩ ∨ merge = none ∧ s.function.block? m = none) ∧
      f'.block? m = some ⟨m, []⟩ ∧ m ≠ g.place.block ∧
      Grows g s g' ⟨f', s.code ++ [.branch (some m)], s.printing⟩ ∧
      g'.Closed f' (s.code ++ [.branch (some m)]) ∧ Steady g g' := by
  simp only [Emit.endBranch, bind_eq_ok, padBlock_open hopen] at h
  obtain ⟨_, _, hpad, ended, _, hended, h⟩ := h
  obtain ⟨-, rfl⟩ := (EStateM.Result.ok.injEq ..).mp hpad
  obtain ⟨rfl, rfl⟩ := eq_of_eq_ok (Emit.isTerminated_open hopen) hended
  simp only [Bool.false_eq_true, if_false] at h
  cases merge with
  | some ref =>
      simp only [bind_eq_ok, pure_eq_ok] at h
      obtain ⟨hmain, hempty, hne⟩ := hawaits ref rfl
      obtain ⟨_, _, ⟨rfl, rfl⟩, _, g₁, hbranch, rfl, rfl⟩ := h
      obtain ⟨f', rfl, hwrote, hgrows, hclosed⟩ := terminate_ok hstage hopen rfl hbranch
      obtain ⟨function, m⟩ := ref
      obtain rfl : function = "main" := hmain
      exact ⟨m, f', rfl, Or.inl rfl, by rw [hwrote.there m hne, hempty], hne, hgrows, hclosed, rfl, rfl, rfl⟩
  | none =>
      simp only [bind_eq_ok, pure_eq_ok] at h
      obtain ⟨ref, g₁, happend, _, g₂, hbranch, rfl, rfl⟩ := h
      obtain ⟨m, f₁, rfl, rfl, happended, hgrows₁, hopen₁⟩ := appendBlock_ok hstage hopen happend
      obtain ⟨f', rfl, hwrote, hgrows, hclosed⟩ :=
        terminate_ok (s := { s with function := f₁ }) hgrows₁.stage hopen₁ rfl hbranch
      have hnone := happended.none hopen.named
      have hne := hopen.place_ne hnone
      exact ⟨m, f', rfl, Or.inr ⟨rfl, hnone⟩, by rw [hwrote.there m hne, happended.here], hne,
        hgrows₁.trans hgrows, hclosed, rfl, rfl, rfl⟩

end Steps

end Scriptlet.Core
