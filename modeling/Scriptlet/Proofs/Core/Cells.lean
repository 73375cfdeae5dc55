import Mathlib.Data.List.Forall2
import Mathlib.Data.List.Nodup
import Scriptlet.Proofs.Core.Program
import Scriptlet.Proofs.Running

/-!
Variables of a program as cells of the machine's memory.

Every variable has a slot: a register that holds the address of the object where its value is kept.
Different slots hold different addresses, so an assignment is seen through one slot only.
-/

namespace Scriptlet.Core

open Machine (Word Address Memory Registers Setting Object)

/-- The register that holds the address of a variable, and the type of the variable. -/
structure Slot where
  register : String
  ty : Ty
  deriving Inhabited

def Val.word : Val → Word
  | int value => .int value
  | bool value => .truth value

def Ty.ir : Ty → Ir.Ty
  | int => Ir.Ty.i64
  | bool => Ir.Ty.i1

/-- The constant texts that prints use, by the names of the globals that hold them. -/
def printTexts : List (String × List UInt8) :=
  [("print_fmt_int", [37, 108, 108, 100, 10]), ("print_fmt_bool", [37, 115, 10]),
    ("true_str", [116, 114, 117, 101]), ("false_str", [102, 97, 108, 115, 101])]

/-- The value of a variable is in the cell of its slot. -/
def Cell (registers : Registers) (memory : Memory) (entry : String × Slot) (binding : String × Val) :
    Prop :=
  entry.1 = binding.1 ∧ binding.2.ty = entry.2.ty ∧
    ∃ index, registers.lookup entry.2.register = some (.address ⟨index, 0⟩) ∧
      memory.objects[index]? = some (.word (some binding.2.word))

def held (registers : Registers) (entry : String × Slot) : Option Word :=
  registers.lookup entry.2.register

/-- Memory and registers hold the values of all variables, and the texts that prints use. -/
structure Covers (w : Setting) (slots : Scopes Slot) (scopes : Scopes Val) (registers : Registers)
    (memory : Memory) : Prop where
  cells : List.Forall₂ (List.Forall₂ (Cell registers memory)) slots scopes
  apart : (slots.flatten.map (held registers)).Nodup
  texts : ∀ entry ∈ printTexts, ∀ address, w.globals.lookup entry.1 = some address →
    memory.textAt? address = some entry.2

def Kept (slots : Scopes Slot) (used : List String) : Prop :=
  ∀ entry ∈ slots.flatten, entry.2.register ∈ used

theorem Kept.mono {slots : Scopes Slot} {used used' : List String} (h : Kept slots used) (hused : used ⊆ used') :
    Kept slots used' :=
  fun entry hentry => hused (h entry hentry)

section Cells

variable {w : Setting} {slots : Scopes Slot} {scopes : Scopes Val} {registers registers' : Registers}
  {memory memory' : Memory} {entries : List (String × Slot)} {bindings : List (String × Val)}
variable {object : Object} {address : Address} {text : List UInt8} {used : List String}

theorem textAt?_of_within (hwithin : memory.Within memory') (h : memory.textAt? address = some text) :
    memory'.textAt? address = some text := by
  unfold Memory.textAt? Memory.bytesAt? at h ⊢
  cases hobject : memory.objects[address.object]? with
  | none => simp [hobject] at h
  | some object =>
      rw [hobject] at h
      rw [hwithin _ _ hobject]
      exact h

/-- Bytes are not seen to change when a word is written. -/
theorem textAt?_setObject {index : Nat} {old : Option Word} (hold : memory.objects[index]? = some (.word old))
    (h : memory.textAt? address = some text) : (memory.setObject index object).textAt? address = some text := by
  unfold Memory.textAt? Memory.bytesAt? at h ⊢
  have hne : index ≠ address.object := by
    rintro rfl
    simp [hold] at h
  rw [Memory.getElem?_setObject, if_neg hne]
  exact h

theorem Cell.grow {entry : String × Slot} {binding : String × Val}
    (h : Cell registers memory entry binding) (hheld : held registers' entry = held registers entry)
    (hwithin : memory.Within memory') : Cell registers' memory' entry binding := by
  obtain ⟨hname, hty, index, hregister, hobject⟩ := h
  exact ⟨hname, hty, index, hheld.trans hregister, hwithin _ _ hobject⟩

/-- What a computation adds to registers and memory leaves the cells as they are. -/
theorem Covers.grow (h : Covers w slots scopes registers memory) (hkept : Kept slots used)
    (hregisters : ∀ name ∈ used, registers'.lookup name = registers.lookup name) (hwithin : memory.Within memory') :
    Covers w slots scopes registers' memory' := by
  have hheld : ∀ entry ∈ slots.flatten, held registers' entry = held registers entry :=
    fun entry hentry => hregisters _ (hkept entry hentry)
  refine ⟨?_, ?_, fun entry hentry address haddress =>
    textAt?_of_within hwithin (h.texts entry hentry address haddress)⟩
  · have hcells := h.cells
    clear h hkept
    induction hcells with
    | nil => exact .nil
    | cons hlevel _ ih =>
        refine .cons ?_ (ih fun entry hentry => hheld entry ?_)
        · clear ih
          rw [List.flatten_cons] at hheld
          induction hlevel with
          | nil => exact .nil
          | cons hcell _ ih =>
              refine .cons (hcell.grow (hheld _ ?_) hwithin) (ih fun entry hentry => hheld entry ?_)
              · simp
              · simp only [List.cons_append, List.mem_cons]
                exact Or.inr hentry
        · rw [List.flatten_cons, List.mem_append]
          exact Or.inr hentry
  · rw [List.map_congr_left hheld]
    exact h.apart

theorem Covers.enter (h : Covers w slots scopes registers memory) :
    Covers w ([] :: slots) ([] :: scopes) registers memory :=
  ⟨.cons .nil h.cells, by simpa using h.apart, h.texts⟩

theorem Covers.leave (h : Covers w slots scopes registers memory) :
    Covers w slots.tail scopes.tail registers memory := by
  obtain ⟨hcells, hapart, htexts⟩ := h
  cases hcells with
  | nil => exact ⟨.nil, by simp, htexts⟩
  | cons _ houter =>
      refine ⟨houter, ?_, htexts⟩
      rw [List.flatten_cons, List.map_append] at hapart
      exact hapart.of_append_right

theorem cells_find? (h : List.Forall₂ (Cell registers memory) entries bindings) (name : String) :
    (entries.lookup name = none ∧ bindings.lookup name = none) ∨
      ∃ slot value, entries.lookup name = some slot ∧ bindings.lookup name = some value ∧
        Cell registers memory (name, slot) (name, value) := by
  induction h with
  | nil => exact Or.inl ⟨rfl, rfl⟩
  | @cons entry binding _ _ hcell _ ih =>
      obtain ⟨key, slot⟩ := entry
      obtain ⟨key', value⟩ := binding
      obtain rfl : key = key' := hcell.1
      rw [List.lookup_cons, List.lookup_cons]
      by_cases hname : name = key
      · subst hname
        refine Or.inr ⟨slot, value, ?_⟩
        simpa using hcell
      · simpa [beq_eq_false_iff_ne.2 hname] using ih

theorem covers_find? (h : List.Forall₂ (List.Forall₂ (Cell registers memory)) slots scopes)
    {name : String} {slot : Slot} (hslot : slots.find? name = some slot) :
    ∃ value, scopes.find? name = some value ∧ Cell registers memory (name, slot) (name, value) := by
  induction h with
  | nil => simp [Scopes.find?] at hslot
  | cons hlevel _ ih =>
      rw [Scopes.find?, List.findSome?_cons] at hslot ⊢
      obtain ⟨hnone, hnone'⟩ | ⟨slot', value, hsome, hsome', hcell⟩ := cells_find? hlevel name
      · rw [hnone] at hslot
        rw [hnone']
        exact ih hslot
      · rw [hsome] at hslot
        obtain rfl : slot' = slot := Option.some.inj hslot
        exact ⟨value, by rw [hsome'], hcell⟩

/-! ### Assignments -/

theorem cells_setObject (h : List.Forall₂ (Cell registers memory) entries bindings) {index : Nat}
    (hapart : some (.address ⟨index, 0⟩) ∉ entries.map (held registers)) :
    List.Forall₂ (Cell registers (memory.setObject index object)) entries bindings := by
  induction h with
  | nil => exact .nil
  | cons hcell _ ih =>
      rw [List.map_cons, List.mem_cons, not_or] at hapart
      refine .cons ?_ (ih hapart.2)
      obtain ⟨hname, hty, other, hregister, hobject⟩ := hcell
      refine ⟨hname, hty, other, hregister, ?_⟩
      have hne : index ≠ other := by
        rintro rfl
        exact hapart.1 hregister.symm
      rw [Memory.getElem?_setObject, if_neg hne, hobject]

theorem levels_setObject (h : List.Forall₂ (List.Forall₂ (Cell registers memory)) slots scopes) {index : Nat}
    (hapart : some (.address ⟨index, 0⟩) ∉ slots.flatten.map (held registers)) :
    List.Forall₂ (List.Forall₂ (Cell registers (memory.setObject index object))) slots scopes := by
  induction h with
  | nil => exact .nil
  | cons hlevel _ ih =>
      rw [List.flatten_cons, List.map_append, List.mem_append, not_or] at hapart
      exact .cons (cells_setObject hlevel hapart.1) (ih hapart.2)

variable {name : String} {slot : Slot} {value : Val} {index : Nat}

theorem held_mem_of_lookup (h : entries.lookup name = some slot) :
    registers.lookup slot.register ∈ entries.map (held registers) := by
  induction entries with
  | nil => simp at h
  | cons entry rest ih =>
      rw [List.lookup_cons] at h
      rw [List.map_cons, List.mem_cons]
      split at h
      · cases h
        exact Or.inl rfl
      · exact Or.inr (ih h)

theorem cells_setIn (h : List.Forall₂ (Cell registers memory) entries bindings)
    (hslot : entries.lookup name = some slot) (hty : value.ty = slot.ty)
    (hregister : registers.lookup slot.register = some (.address ⟨index, 0⟩))
    (hapart : (entries.map (held registers)).Nodup) :
    List.Forall₂ (Cell registers (memory.setObject index (.word (some value.word)))) entries
      (Scopes.setIn name value bindings) := by
  induction h with
  | nil => simp at hslot
  | @cons entry binding rest _ hcell hrest ih =>
      obtain ⟨key, slot'⟩ := entry
      obtain ⟨key', old⟩ := binding
      obtain ⟨rfl, hold, index', hregister', hobject⟩ := hcell
      rw [List.map_cons, List.nodup_cons] at hapart
      rw [List.lookup_cons] at hslot
      simp only [Scopes.setIn]
      by_cases hname : key = name
      · subst hname
        obtain rfl : slot' = slot := by simpa using hslot
        obtain rfl : index' = index := by
          have := hregister'.symm.trans hregister
          simpa using this
        rw [if_pos rfl]
        refine .cons ⟨rfl, hty, index', hregister', ?_⟩ (cells_setObject hrest ?_)
        · rw [Memory.getElem?_setObject, if_pos rfl, hobject]
          rfl
        · rw [← hregister]
          exact hapart.1
      · rw [beq_eq_false_iff_ne.2 (Ne.symm hname)] at hslot
        rw [if_neg hname]
        refine .cons ⟨rfl, hold, index', hregister', ?_⟩ (ih hslot hapart.2)
        have hne : index ≠ index' := by
          rintro rfl
          apply hapart.1
          show registers.lookup slot'.register ∈ _
          rw [hregister', ← hregister]
          exact held_mem_of_lookup hslot
        rw [Memory.getElem?_setObject, if_neg hne, hobject]

/-- An assignment changes one cell, and with it the value of one variable. -/
theorem Covers.assign (h : Covers w slots scopes registers memory)
    (hslot : slots.find? name = some slot) (hty : value.ty = slot.ty)
    (hregister : registers.lookup slot.register = some (.address ⟨index, 0⟩)) :
    Covers w slots (scopes.assign name value) registers
      (memory.setObject index (.word (some value.word))) := by
  obtain ⟨old, -, -, -, index', hregister', hobject⟩ := covers_find? h.cells hslot
  obtain rfl : index' = index := by
    have := hregister'.symm.trans hregister
    simpa using this
  refine ⟨?_, h.apart, fun entry hentry address haddress =>
    textAt?_setObject hobject (h.texts entry hentry address haddress)⟩
  have hcells := h.cells
  have hapart := h.apart
  clear h
  induction hcells with
  | nil => simp [Scopes.find?] at hslot
  | @cons entries bindings outer _ hlevel houter ih =>
      rw [List.flatten_cons, List.map_append, List.nodup_append] at hapart
      rw [Scopes.find?, List.findSome?_cons] at hslot
      rw [Scopes.assign]
      obtain ⟨hnone, hnone'⟩ | ⟨slot', old', hsome, hsome', _⟩ := cells_find? hlevel name
      · rw [hnone] at hslot
        rw [hnone', if_neg (by simp)]
        refine .cons (cells_setObject hlevel ?_) (ih hslot hapart.2.1)
        intro hmem
        refine hapart.2.2 _ hmem _ ?_ rfl
        rw [← hregister]
        -- The slot is one of the outer ones, so its address stands there.
        obtain ⟨level, hlevel', hlookup⟩ := List.exists_of_findSome?_eq_some hslot
        rw [List.map_flatten]
        exact List.mem_flatten.2 ⟨_, List.mem_map_of_mem hlevel', held_mem_of_lookup hlookup⟩
      · rw [hsome] at hslot
        obtain rfl : slot' = slot := Option.some.inj hslot
        rw [hsome', if_pos (by simp)]
        refine .cons (cells_setIn hlevel hsome hty hregister hapart.1) (levels_setObject houter ?_)
        intro hmem
        refine hapart.2.2 _ ?_ _ hmem rfl
        rw [← hregister]
        exact held_mem_of_lookup hsome

/-! ### Declarations -/

theorem held_lt {option : Option Word} (h : List.Forall₂ (List.Forall₂ (Cell registers memory)) slots scopes)
    (hmem : option ∈ slots.flatten.map (held registers)) :
    ∃ index, option = some (.address ⟨index, 0⟩) ∧ index < memory.objects.size := by
  induction h with
  | nil => simp at hmem
  | cons hlevel _ ih =>
      rw [List.flatten_cons, List.map_append, List.mem_append] at hmem
      refine hmem.elim (fun hfirst => ?_) ih
      clear ih hmem
      induction hlevel with
      | nil => simp at hfirst
      | cons hcell _ ih =>
          rw [List.map_cons, List.mem_cons] at hfirst
          refine hfirst.elim (fun heq => ?_) ih
          obtain ⟨_, _, index, hregister, hobject⟩ := hcell
          exact ⟨index, heq.trans hregister, (Array.getElem?_eq_some_iff.1 hobject).1⟩

/-- A new variable gets a cell of its own. -/
theorem Covers.declare {register : String} (h : Covers w slots scopes registers memory) (hkept : Kept slots used)
    (hlevels : slots ≠ []) (hheld : registers'.lookup register = some (.address ⟨memory.objects.size, 0⟩))
    (hregisters : ∀ name ∈ used, registers'.lookup name = registers.lookup name)
    (hobject : memory'.objects[memory.objects.size]? = some (.word (some value.word))) (hwithin : memory.Within memory') :
    Covers w (slots.declare name ⟨register, value.ty⟩) (scopes.declare name value) registers' memory' := by
  have hgrown := h.grow hkept hregisters hwithin
  have hcells := h.cells
  obtain ⟨hcells', hapart', htexts'⟩ := hgrown
  cases hcells' with
  | nil => exact absurd rfl hlevels
  | @cons level _ outer _ hlevel houter =>
      refine ⟨.cons (.cons ⟨rfl, rfl, _, hheld, hobject⟩ hlevel) houter, ?_, htexts'⟩
      rw [Scopes.declare, List.flatten_cons, List.cons_append, List.map_cons, List.nodup_cons]
      refine ⟨?_, hapart'⟩
      intro hmem
      have hheldEq : ((level :: outer).flatten.map (held registers')) =
          (level :: outer).flatten.map (held registers) :=
        List.map_congr_left fun entry hentry => hregisters _ (hkept entry hentry)
      rw [← List.flatten_cons, hheldEq] at hmem
      obtain ⟨index, hindex, hlt⟩ := held_lt hcells hmem
      have : memory.objects.size = index := by
        have := hheld.symm.trans hindex
        simpa using this
      omega

end Cells

end Scriptlet.Core
