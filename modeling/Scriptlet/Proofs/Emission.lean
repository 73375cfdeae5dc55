import Scriptlet.Proofs.Naming
import Scriptlet.Proofs.Node

/-!
What the operations that emit code do to the module: each replaces the current function, and moves the
place of the next instruction on.
-/

namespace Scriptlet

namespace Ir

theorem Module.name_of_function? {module : Module} {name : String} {f : Function}
    (h : module.function? name = some f) : f.name = name := by
  unfold function? at h
  split at h
  case h_1 found hfound =>
    obtain rfl : found = f := Option.some.inj h
    have := List.find?_some hfound
    simpa [Global.name] using this
  case h_2 => cases h

theorem Module.function?_cons_function (f : Function) (globals : List Global) (name : String) :
    (Module.mk (.function f :: globals)).function? name =
      if f.name = name then some f else (Module.mk globals).function? name := by
  unfold function? global?
  rw [List.find?_cons]
  by_cases h : f.name = name
  · simp [Global.name, h]
  · simp [Global.name, h, beq_eq_false_iff_ne.2 h]

theorem Module.function?_cons_datum (datum : Datum) (globals : List Global) (name : String) :
    (Module.mk (.datum datum :: globals)).function? name =
      if datum.name = name then none else (Module.mk globals).function? name := by
  unfold function? global?
  rw [List.find?_cons]
  by_cases h : datum.name = name
  · simp [Global.name, h]
  · simp [Global.name, h, beq_eq_false_iff_ne.2 h]

theorem Module.function?_modifyFunction (module : Module) (name other : String)
    {change : Function → Function} (hname : ∀ f, f.name = name → (change f).name = name) :
    (module.modifyFunction name change).function? other =
      (module.function? other).map fun f => if other = name then change f else f := by
  obtain ⟨globals⟩ := module
  induction globals with
  | nil => rfl
  | cons global rest ih =>
      cases global with
      | datum datum =>
          show (Module.mk (.datum datum :: (modifyFunction ⟨rest⟩ name change).globals)).function? other = _
          rw [function?_cons_datum, function?_cons_datum]
          split
          · rfl
          · exact ih
      | function f =>
          rw [function?_cons_function]
          by_cases hf : f.name = name
          · have hchanged : modifyFunction ⟨.function f :: rest⟩ name change =
                ⟨.function (change f) :: (modifyFunction ⟨rest⟩ name change).globals⟩ := by
              simp [modifyFunction, hf]
            rw [hchanged, function?_cons_function, hname f hf, hf]
            by_cases hother : name = other
            · simp [hother]
            · rw [if_neg hother, if_neg hother]
              exact ih
          · have hchanged : modifyFunction ⟨.function f :: rest⟩ name change =
                ⟨.function f :: (modifyFunction ⟨rest⟩ name change).globals⟩ := by
              simp [modifyFunction, hf]
            rw [hchanged, function?_cons_function]
            by_cases hother : f.name = other
            · have : other ≠ name := fun h => hf (hother.trans h)
              simp [hother, this]
            · rw [if_neg hother, if_neg hother]
              exact ih

namespace Function

theorem block?_modifyBlock (f : Function) (name other : String) {change : Block → Block}
    (hname : ∀ block, (change block).name = block.name) :
    (f.modifyBlock name change).block? other =
      (f.block? other).map fun block => if other = name then change block else block := by
  unfold block? modifyBlock
  rw [List.find?_map]
  have hsame : (fun block : Block => block.name == other) ∘
      (fun block => if (block.name == name) = true then change block else block) =
        fun block => block.name == other := by
    funext block
    by_cases h : block.name = name <;> simp [h, hname]
  rw [hsame]
  cases hfound : f.blocks.find? fun block => block.name == other with
  | none => rfl
  | some block =>
      have hother : block.name = other := by simpa using List.find?_some hfound
      by_cases h : other = name <;> simp [hother, h]

theorem block?_appendBlock_self (f : Function) {base : String}
    (h : f.block? (f.appendBlock base).1 = none) :
    (f.appendBlock base).2.block? (f.appendBlock base).1 = some { name := (f.appendBlock base).1 } := by
  unfold block? at h ⊢
  rw [appendBlock, List.find?_append]
  simp only [appendBlock] at h
  rw [h]
  simp

def first? (f : Function) : Option String :=
  f.blocks.head?.map Block.name

theorem first?_modifyBlock (f : Function) (name : String) {change : Block → Block}
    (hname : ∀ block, (change block).name = block.name) : (f.modifyBlock name change).first? = f.first? := by
  unfold first? modifyBlock
  cases f.blocks with
  | nil => rfl
  | cons block rest => by_cases h : block.name = name <;> simp [h, hname]

def take (f : Function) (base : String) : Function :=
  { f with names := (f.names.fresh base).2 }

theorem block?_insert (f : Function) (base name other : String) (position : Nat)
    (instruction : Instruction) :
    ((f.take base).modifyBlock name fun block => block.insert position instruction).block? other =
      (f.block? other).map fun block =>
        if other = name then block.insert position instruction else block :=
  (f.take base).block?_modifyBlock name other fun _ => rfl

theorem first?_insert (f : Function) (base name : String) (position : Nat) (instruction : Instruction) :
    ((f.take base).modifyBlock name fun block => block.insert position instruction).first? = f.first? :=
  (f.take base).first?_modifyBlock name fun _ => rfl

/-- The second function is the first one with more instructions at the end of a block, and perhaps more
names taken. -/
structure Wrote (f : Function) (place : String) (code : List Instruction) (f' : Function) : Prop where
  name : f'.name = f.name
  first : f'.first? = f.first?
  used : f.names.used ⊆ f'.names.used
  here : f'.block? place =
    (f.block? place).map fun block => { block with instructions := block.instructions ++ code }
  there : ∀ other, other ≠ place → f'.block? other = f.block? other

section Wrote

variable {f f' f₁ f₂ : Function} {place : String} {code code₁ : List Instruction}

theorem Wrote.trans (h : f.Wrote place code f₁) (h₁ : f₁.Wrote place code₁ f₂) :
    f.Wrote place (code ++ code₁) f₂ := by
  refine ⟨h₁.name.trans h.name, h₁.first.trans h.first, List.Subset.trans h.used h₁.used, ?_,
    fun other hother => (h₁.there other hother).trans (h.there other hother)⟩
  rw [h₁.here, h.here]
  cases f.block? place <;> simp

theorem wrote_take (f : Function) (place base : String) : f.Wrote place [] (f.take base) := by
  refine ⟨rfl, rfl, f.names.used_subset_fresh base, ?_, fun _ _ => rfl⟩
  show f.block? place = _
  cases f.block? place <;> simp

theorem wrote_insert {instructions : List Instruction}
    (h : f.block? place = some ⟨place, instructions⟩) (instruction : Instruction) :
    f.Wrote place [instruction]
      (f.modifyBlock place fun block => block.insert instructions.length instruction) := by
  have hblock := fun other => f.block?_modifyBlock place other
    (show ∀ block : Block, (block.insert instructions.length instruction).name = block.name from
      fun _ => rfl)
  refine ⟨rfl, f.first?_modifyBlock place fun _ => rfl, List.Subset.refl _, ?_, fun other hother => ?_⟩
  · rw [hblock, h]
    simp [Block.insert]
  · rw [hblock]
    cases f.block? other <;> simp [hother]

/-- All blocks have names that count as taken. -/
def Named (f : Function) : Prop :=
  ∀ name, (f.block? name).isSome → name ∈ f.names.used

theorem Wrote.named (h : f.Wrote place code f') (hnamed : f.Named) : f'.Named := by
  intro other hblock
  apply h.used
  by_cases hother : other = place
  · subst hother
    rw [h.here, Option.isSome_map] at hblock
    exact hnamed other hblock
  · rw [h.there other hother] at hblock
    exact hnamed other hblock

/-- The second function is the first one with one more block, which is empty. -/
structure Appended (f : Function) (place : String) (f' : Function) : Prop where
  name : f'.name = f.name
  first : f.first?.isSome → f'.first? = f.first?
  used : f.names.used ⊆ f'.names.used
  new : place ∉ f.names.used
  taken : place ∈ f'.names.used
  here : f'.block? place = some ⟨place, []⟩
  there : ∀ other, other ≠ place → f'.block? other = f.block? other

theorem Appended.none (h : f.Appended place f') (hnamed : f.Named) : f.block? place = none := by
  by_contra hsome
  exact h.new (hnamed place (Option.isSome_iff_ne_none.2 hsome))

theorem Appended.named (h : f.Appended place f') (hnamed : f.Named) : f'.Named := by
  intro other hblock
  by_cases hother : other = place
  · exact hother ▸ h.taken
  · rw [h.there other hother] at hblock
    exact h.used (hnamed other hblock)

theorem appended_appendBlock (hnamed : f.Named) (base : String) :
    f.Appended (f.appendBlock base).1 (f.appendBlock base).2 := by
  have hnew : (f.appendBlock base).1 ∉ f.names.used := f.names.fresh_not_used base
  have hnone : f.block? (f.appendBlock base).1 = none := by
    by_contra hsome
    exact hnew (hnamed _ (Option.isSome_iff_ne_none.2 hsome))
  refine ⟨rfl, fun hfirst => ?_, f.names.used_subset_fresh base, hnew, f.names.fresh_mem_used base,
    f.block?_appendBlock_self hnone, fun other hother => ?_⟩
  · unfold first? at hfirst ⊢
    rw [appendBlock]
    cases hblocks : f.blocks with
    | nil => simp [hblocks] at hfirst
    | cons block rest => rfl
  have hne : (f.names.fresh base).1 ≠ other := fun h => hother h.symm
  simp [block?, appendBlock, List.find?_append, hne]

end Wrote

end Function

end Ir

/-! ### The current function -/

namespace Generation

/-- Replaces the current function and moves the place of the next instruction. -/
def put (g : Generation) (f : Ir.Function) (anchor : Nat) : Generation :=
  { g with module := g.module.modifyFunction g.place.function fun _ => f, anchor }

def current? (g : Generation) : Option Ir.Function :=
  g.module.function? g.place.function

variable {g : Generation} {f f' : Ir.Function} {anchor anchor' : Nat}

theorem name_of_current? (h : g.current? = some f) : f.name = g.place.function :=
  Ir.Module.name_of_function? h

theorem current?_put (h : g.current? = some f) (hname : f'.name = f.name) :
    (g.put f' anchor).current? = some f' := by
  have hplace := name_of_current? h
  show (g.module.modifyFunction g.place.function fun _ => f').function? g.place.function = some f'
  rw [Ir.Module.function?_modifyFunction _ _ _ fun _ _ => hname.trans hplace]
  rw [show g.module.function? g.place.function = some f from h]
  simp

/-- Of two changes of the current function the last one counts. -/
theorem modifyFunction_put (change : Ir.Function → Ir.Function) (hname : f'.name = g.place.function) :
    (g.put f' anchor).module.modifyFunction g.place.function change =
      g.module.modifyFunction g.place.function fun _ => change f' := by
  simp only [put, Ir.Module.modifyFunction, List.map_map]
  congr 1
  apply List.map_congr_left
  intro global _
  cases global with
  | datum datum => rfl
  | function h => by_cases hh : h.name = g.place.function <;> simp [hh, hname]

theorem put_put (hname : f.name = g.place.function) :
    (g.put f anchor).put f' anchor' = g.put f' anchor' := by
  show { g.put f anchor with
    module := (g.put f anchor).module.modifyFunction g.place.function fun _ => f', anchor := anchor' } = _
  rw [modifyFunction_put _ hname]
  rfl

@[simp] theorem put_anchor : (g.put f anchor).anchor = anchor := rfl
end Generation

namespace Emit

open Generation (current? put)
open Ir (Ty Operand Instruction)

variable {g g' : Generation} {f : Ir.Function}

theorem modifyFunction_eq {α : Type} {change : Ir.Function → α × Ir.Function} {default : α}
    (h : g.current? = some f) :
    modifyFunction g.place.function change default g =
      .ok (change f).1 (g.put (change f).2 g.anchor) := by
  have hfound : g.module.function? g.place.function = some f := h
  simp only [modifyFunction, modifyGet_eq_ok, hfound]
  exact ⟨trivial, rfl⟩

theorem freshName_eq (h : g.current? = some f) (base : String) :
    freshName base g = .ok (f.names.fresh base).1 (g.put (f.take base) g.anchor) := by
  simp only [freshName, bind_eq_ok, get_eq_ok]
  exact ⟨g, g, ⟨rfl, rfl⟩, modifyFunction_eq h⟩

theorem insert_put {anchor : Nat} (hname : f.name = g.place.function) (instruction : Instruction) :
    insert instruction (g.put f anchor) =
      .ok () (g.put (f.modifyBlock g.place.block fun block => block.insert anchor instruction)
        (anchor + 1)) := by
  show EStateM.Result.ok () { g.put f anchor with
    module := (g.put f anchor).module.modifyFunction g.place.function fun f =>
      f.modifyBlock g.place.block fun block => block.insert anchor instruction
    anchor := anchor + 1 } = _
  rw [Generation.modifyFunction_put _ hname]
  rfl

theorem emit_put (hcurrent : g.current? = some f) (f' : Ir.Function) (anchor : Nat)
    (hname : f'.name = f.name) (type : Ty) (make : String → Instruction) (base : String) :
    emit type make base (g.put f' anchor) =
      .ok (.register (f'.names.fresh base).1 type)
        (g.put ((f'.take base).modifyBlock g.place.block fun block =>
          block.insert anchor (make (f'.names.fresh base).1)) (anchor + 1)) := by
  have hplace : f'.name = g.place.function := hname.trans (Generation.name_of_current? hcurrent)
  have hput : (g.put f' anchor).current? = some f' := Generation.current?_put hcurrent hname
  have hfresh := freshName_eq hput base
  rw [Generation.put_put hplace] at hfresh
  simp only [emit, bind_eq_ok, pure_eq_ok]
  exact ⟨_, _, hfresh, (), _, insert_put (f := f'.take base) hplace _, rfl, rfl⟩

theorem emitVoid_eq (hcurrent : g.current? = some f) (instruction : Instruction) :
    emitVoid instruction g =
      .ok () (g.put ((f.take "").modifyBlock g.place.block fun block =>
        block.insert g.anchor instruction) (g.anchor + 1)) := by
  have hname : f.name = g.place.function := Generation.name_of_current? hcurrent
  simp only [emitVoid, bind_eq_ok]
  exact ⟨_, _, freshName_eq hcurrent "", insert_put (f := f.take "") hname instruction⟩

end Emit

/-! ### The current block -/

/-- Where the next instruction goes: a block of a function, and what stands in it. -/
structure Generation.At (g : Generation) (f : Ir.Function) (instructions : List Ir.Instruction) :
    Prop where
  current : g.current? = some f
  block : f.block? g.place.block = some ⟨g.place.block, instructions⟩
  named : f.Named

/-- Code for a block can go on at its end: the block has not been terminated. -/
structure Generation.Open (g : Generation) (f : Ir.Function) (instructions : List Ir.Instruction) :
    Prop extends Generation.At g f instructions where
  anchor : g.anchor = instructions.length
  plain : ∀ instruction ∈ instructions, instruction.isTerminator = false

/-- The block has been terminated.  If it has no more than its terminator, the place is behind it. -/
structure Generation.Closed (g : Generation) (f : Ir.Function) (instructions : List Ir.Instruction) :
    Prop extends Generation.At g f instructions where
  anchor : instructions.length = 1 → g.anchor = 1
  ended : ∃ instruction ∈ instructions, instruction.isTerminator = true

namespace Generation

open Ir (Instruction)

variable {g : Generation} {f f' : Ir.Function} {instructions code : List Instruction}
variable {g' : Generation}

theorem At.name (h : g.At f instructions) : f.name = g.place.function :=
  name_of_current? h.current

theorem At.place_ne (h : g.At f instructions) {name : String} (hnone : f.block? name = none) :
    name ≠ g.place.block := by
  rintro rfl
  simp [h.block] at hnone

theorem At.wrote (h : g.At f instructions) (hwrote : f.Wrote g.place.block code f') (anchor : Nat) :
    (g.put f' anchor).At f' (instructions ++ code) := by
  refine ⟨current?_put h.current hwrote.name, ?_, hwrote.named h.named⟩
  show f'.block? g.place.block = _
  rw [hwrote.here, h.block]
  rfl

/-- Nothing but the module and the place in it counts. -/
theorem At.congr (h : g.At f instructions) (hmodule : g'.module = g.module) (hplace : g'.place = g.place) :
    g'.At f instructions := by
  refine ⟨?_, ?_, h.named⟩
  · rw [current?, hmodule, hplace]
    exact h.current
  · rw [hplace]
    exact h.block

theorem Open.congr (h : g.Open f instructions) (hmodule : g'.module = g.module) (hplace : g'.place = g.place)
    (hanchor : g'.anchor = g.anchor) : g'.Open f instructions :=
  ⟨h.toAt.congr hmodule hplace, hanchor.trans h.anchor, h.plain⟩

theorem Closed.congr (h : g.Closed f instructions) (hmodule : g'.module = g.module) (hplace : g'.place = g.place)
    (hanchor : g'.anchor = g.anchor) : g'.Closed f instructions :=
  ⟨h.toAt.congr hmodule hplace, fun hlone => hanchor.trans (h.anchor hlone), h.ended⟩

theorem Open.wrote (h : g.Open f instructions) (hwrote : f.Wrote g.place.block code f')
    (hcode : ∀ instruction ∈ code, instruction.isTerminator = false) :
    (g.put f' (g.anchor + code.length)).Open f' (instructions ++ code) := by
  refine ⟨h.toAt.wrote hwrote _, by simp [h.anchor], fun instruction hmem => ?_⟩
  rw [List.mem_append] at hmem
  exact hmem.elim (h.plain instruction) (hcode instruction)

theorem Open.closed {instruction : Instruction} (h : g.Open f instructions)
    (hwrote : f.Wrote g.place.block [instruction] f') (hend : instruction.isTerminator = true) :
    (g.put f' (g.anchor + 1)).Closed f' (instructions ++ [instruction]) := by
  refine ⟨h.toAt.wrote hwrote _, fun hlength => ?_, instruction, by simp, hend⟩
  rw [put_anchor, h.anchor]
  simpa using hlength

theorem Open.appended {place : String} (h : g.Open f instructions) (happended : f.Appended place f') :
    (g.put f' g.anchor).Open f' instructions := by
  refine ⟨⟨current?_put h.current happended.name, ?_, happended.named h.named⟩, h.anchor, h.plain⟩
  show f'.block? g.place.block = _
  have hne : g.place.block ≠ place := by
    rintro rfl
    exact happended.new (h.named _ (by rw [h.block]; rfl))
  rw [happended.there _ hne, h.block]
  rfl

end Generation

namespace Emit

open Ir (Ty Operand Instruction)

variable {g : Generation} {f : Ir.Function} {instructions : List Instruction}

theorem currentBlock_eq (hcurrent : g.current? = some f) {block : Ir.Block}
    (hblock : f.block? g.place.block = some block) : currentBlock g = .ok block g := by
  have hfound : g.module.function? g.place.function = some f := hcurrent
  simp only [currentBlock, bind_eq_ok, get_eq_ok]
  refine ⟨g, g, ⟨rfl, rfl⟩, ?_⟩
  simp [hfound, hblock]

theorem isTerminated_eq (hcurrent : g.current? = some f) {block : Ir.Block}
    (hblock : f.block? g.place.block = some block) : isTerminated g = .ok block.isTerminated g := by
  simp only [isTerminated, bind_eq_ok, currentBlock_eq hcurrent hblock, pure_eq_ok]
  exact ⟨block, g, rfl, rfl, rfl⟩

theorem isTerminated_open (h : g.Open f instructions) : isTerminated g = .ok false g := by
  rw [isTerminated_eq h.current h.block]
  congr 1
  simpa [Ir.Block.isTerminated] using h.plain

theorem isTerminated_closed (h : g.Closed f instructions) : isTerminated g = .ok true g := by
  rw [isTerminated_eq h.current h.block]
  congr 1
  simpa [Ir.Block.isTerminated] using h.ended

theorem insert_open (h : g.Open f instructions) (base : String) (instruction : Instruction) :
    ∃ f', insert instruction (g.put (f.take base) g.anchor) = .ok () (g.put f' (g.anchor + 1)) ∧
      f.Wrote g.place.block [instruction] f' ∧ (f.names.fresh base).1 ∈ f'.names.used := by
  have hblock : (f.take base).block? g.place.block = some ⟨g.place.block, instructions⟩ := h.block
  have hname : (f.take base).name = g.place.function := h.name
  refine ⟨_, insert_put hname instruction, ?_, f.names.fresh_mem_used base⟩
  rw [h.anchor]
  exact (f.wrote_take g.place.block base).trans (Ir.Function.wrote_insert hblock instruction)

theorem emit_open (h : g.Open f instructions) (type : Ty) (make : String → Instruction)
    (base : String) :
    ∃ f', emit type make base g =
        .ok (.register (f.names.fresh base).1 type) (g.put f' (g.anchor + 1)) ∧
      f.Wrote g.place.block [make (f.names.fresh base).1] f' ∧
      (f.names.fresh base).1 ∈ f'.names.used := by
  obtain ⟨f', hinsert, hwrote, hmem⟩ := insert_open h base (make (f.names.fresh base).1)
  refine ⟨f', ?_, hwrote, hmem⟩
  simp only [emit, bind_eq_ok, pure_eq_ok]
  exact ⟨_, _, freshName_eq h.current base, (), _, hinsert, rfl, rfl⟩

theorem emitVoid_open (h : g.Open f instructions) (instruction : Instruction) :
    ∃ f', emitVoid instruction g = .ok () (g.put f' (g.anchor + 1)) ∧
      f.Wrote g.place.block [instruction] f' := by
  obtain ⟨f', hinsert, hwrote, -⟩ := insert_open h "" instruction
  refine ⟨f', ?_, hwrote⟩
  simp only [emitVoid, bind_eq_ok]
  exact ⟨_, _, freshName_eq h.current "", hinsert⟩

theorem terminate_open (h : g.Open f instructions) (instruction : Instruction) :
    ∃ f', terminate instruction g = .ok () (g.put f' (g.anchor + 1)) ∧
      f.Wrote g.place.block [instruction] f' := by
  obtain ⟨f', hinsert, hwrote, -⟩ := insert_open h "" instruction
  refine ⟨f', ?_, hwrote⟩
  have htaken : (g.put (f.take "") g.anchor).Open (f.take "") instructions := by
    simpa using h.wrote (f.wrote_take g.place.block "") (by simp)
  simp only [terminate, bind_eq_ok]
  refine ⟨_, _, freshName_eq h.current "", false, _, isTerminated_open htaken, ?_⟩
  simpa using hinsert

theorem appendBlock_open (h : g.Open f instructions) (base : String) :
    ∃ name f', appendBlock base g = .ok ⟨g.place.function, name⟩ (g.put f' g.anchor) ∧
      f.Appended name f' := by
  refine ⟨_, _, ?_, Ir.Function.appended_appendBlock h.named base⟩
  simp only [appendBlock, bind_eq_ok, get_eq_ok, pure_eq_ok]
  exact ⟨g, g, ⟨rfl, rfl⟩, _, _, modifyFunction_eq h.current, rfl, rfl⟩

theorem goToEnd_eq (hcurrent : g.current? = some f) {name : String} {block : Ir.Block}
    (hblock : f.block? name = some block) :
    goToEnd ⟨g.place.function, name⟩ g = .ok ()
      { g with place := ⟨g.place.function, name⟩, anchor := block.instructions.length } := by
  have hmoved : Generation.current? { g with place := ⟨g.place.function, name⟩ } = some f := hcurrent
  simp only [goToEnd, bind_eq_ok, modify_eq_ok]
  exact ⟨(), _, rfl, block, _, currentBlock_eq hmoved hblock, rfl⟩

end Emit

end Scriptlet
