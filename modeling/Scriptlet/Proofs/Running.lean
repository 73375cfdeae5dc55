import Scriptlet.Machine.Run
import Scriptlet.Proofs.Entries

/-!
Runs of a module, composed from steps, and the effect of each instruction while one function is at work
and nothing waits for it.
-/

namespace Scriptlet.Machine

open Ir (Instruction Operand Opcode Relation Conversion)

variable {n m : Nat} {a b last : State} {ending : Ending}

/-- Running from the first state comes to the second one after a number of steps. -/
def Leads (first : State) (count : Nat) (second : State) : Prop :=
  ∀ more, first.run (count + more) = second.run more

theorem Leads.refl (state : State) : Leads state 0 state := by
  intro more
  rw [Nat.zero_add]

theorem Leads.trans {c : State} (hab : Leads a m b) (hbc : Leads b n c) : Leads a (m + n) c := by
  intro more
  rw [Nat.add_assoc, hab, hbc]

theorem Leads.of_step (h : a.step = .next b) : Leads a 1 b := by
  intro more
  rw [Nat.add_comm, State.run, h]

theorem Leads.step {c : State} (h : a.step = .next b) (hbc : Leads b n c) : Leads a (n + 1) c := by
  rw [Nat.add_comm]
  exact (Leads.of_step h).trans hbc

/-- More steps do not change how a run has ended. -/
theorem run_eq_of_le {state : State} (h : state.run m = (ending, last)) (hending : ending ≠ .outOfSteps) (hle : m ≤ n) :
    state.run n = (ending, last) := by
  induction m generalizing state n with
  | zero =>
      rw [State.run, Prod.mk.injEq] at h
      exact absurd h.1.symm hending
  | succ m ih =>
      obtain ⟨n, rfl⟩ : ∃ k, n = k + 1 := ⟨n - 1, by omega⟩
      rw [State.run] at h ⊢
      cases hstep : state.step with
      | next next =>
          rw [hstep] at h
          exact ih h (by omega)
      | done ending' last' =>
          rw [hstep] at h
          exact h

/-- A run that has gone a number of steps has not ended before. -/
theorem lt_of_leads_of_run (hab : Leads a m b) (hrun : a.run n = (ending, last)) (hending : ending ≠ .outOfSteps) :
    m < n := by
  by_contra hle
  have hlong := run_eq_of_le hrun hending (Nat.le_of_not_lt hle)
  have hstop := hab 0
  rw [Nat.add_zero, hlong, State.run, Prod.mk.injEq] at hstop
  exact hending hstop.1

/-- A run ends in one way only. -/
theorem last_eq {state last' : State} {ending' : Ending} (h : state.run m = (ending, last))
    (h' : state.run n = (ending', last')) (hending : ending ≠ .outOfSteps) (hending' : ending' ≠ .outOfSteps) :
    last = last' := by
  have hlong := run_eq_of_le h hending (Nat.le_max_left m n)
  rw [run_eq_of_le h' hending' (Nat.le_max_right m n)] at hlong
  exact (Prod.mk.inj hlong).2.symm

theorem run_of_leads (hab : Leads a m b) (hrun : b.run n = (ending, last)) : a.run (m + n) = (ending, last) := by
  rw [hab, hrun]

/-! ### Registers -/

theorem lookup_setRegister (name other : String) (word : Word) (registers : Registers) :
    (setRegister name word registers).lookup other =
      if other = name then some word else registers.lookup other :=
  lookup_put (setRegister name word) rfl (fun _ _ _ => rfl) registers other

@[simp] theorem lookup_setRegister_self (name : String) (word : Word) (registers : Registers) :
    (setRegister name word registers).lookup name = some word := by
  rw [lookup_setRegister, if_pos rfl]

theorem lookup_setRegister_of_ne {name other : String} (h : other ≠ name) (word : Word)
    (registers : Registers) :
    (setRegister name word registers).lookup other = registers.lookup other := by
  rw [lookup_setRegister, if_neg h]

/-! ### Memory -/

namespace Memory

/-- Every object of the first memory is in the second one as it was. -/
def Within (first second : Memory) : Prop :=
  ∀ (index : Nat) (object : Object), first.objects[index]? = some object → second.objects[index]? = some object

theorem Within.refl (memory : Memory) : memory.Within memory :=
  fun _ _ h => h

theorem Within.trans {a b c : Memory} (hab : a.Within b) (hbc : b.Within c) : a.Within c :=
  fun index object h => hbc index object (hab index object h)

theorem getElem?_setObject (memory : Memory) (index other : Nat) (object : Object) :
    (memory.setObject index object).objects[other]? =
      if index = other then memory.objects[other]?.map fun _ => object else memory.objects[other]? := by
  unfold setObject
  rw [Array.getElem?_modify]

theorem getElem?_allocate (memory : Memory) (type : Ir.Ty) (other : Nat) (object : Object)
    (h : memory.objects[other]? = some object) :
    (memory.allocate type).2.objects[other]? = some object := by
  unfold allocate
  rw [Array.getElem?_push]
  have hlt : other < memory.objects.size := (Array.getElem?_eq_some_iff.1 h).1
  rw [if_neg (by omega), h]

theorem getElem?_allocate_size (memory : Memory) (width : Nat) :
    (memory.allocate (.int width)).2.objects[memory.objects.size]? = some (.word none) := by
  simp [allocate]

theorem load?_word {memory : Memory} {index : Nat} {word : Word}
    (h : memory.objects[index]? = some (.word (some word))) : memory.load? ⟨index, 0⟩ = some word := by
  simp [load?, h]

theorem store?_word {memory : Memory} {index : Nat} {old : Option Word} {word : Word}
    (h : memory.objects[index]? = some (.word old)) (hword : ∀ data, word ≠ .bytes data) :
    memory.store? ⟨index, 0⟩ word = some (memory.setObject index (.word (some word))) := by
  unfold store?
  cases word <;> simp_all

/-- What is written into a new object is seen nowhere else. -/
theorem within_setObject_size (memory : Memory) (type : Ir.Ty) (object : Object) :
    memory.Within ((memory.allocate type).2.setObject memory.objects.size object) := by
  intro index old h
  have hlt : index < memory.objects.size := (Array.getElem?_eq_some_iff.1 h).1
  rw [getElem?_setObject, if_neg (by omega)]
  exact getElem?_allocate memory type index old h

end Memory

/-! ### One function at work -/

/-- What does not change while the main function is at work. -/
structure Setting where
  module : Ir.Module
  globals : List (String × Address)
  input : List UInt8
  function : Ir.Function

namespace Setting

variable (w : Setting)
variable {word a : Word} {name : String} {address : Address} {type : Ir.Ty}

/-- The state in which given instructions are left of the current block. -/
def stateAt (rest : List Instruction) (registers : Registers) (memory : Memory)
    (printed : List (List UInt8)) : State :=
  { module := w.module, globals := w.globals, world := { memory, input := w.input, printed },
    frames := [{ function := w.function, rest, registers }] }

def value? (registers : Registers) : Operand → Option Word
  | .constant type value => Word.ofConstant? type value
  | .global name _ => (w.globals.lookup name).map .address
  | .register name _ => registers.lookup name
  | .nothing | .label _ => none

variable {w} {rest : List Instruction} {registers : Registers} {memory : Memory}
  {printed : List (List UInt8)}

@[simp] theorem value?_stateAt (left : List Instruction) (inner : Registers) (result : String)
    (operand : Operand) :
    (w.stateAt rest registers memory printed).value? ⟨w.function, left, inner, result⟩ operand =
      w.value? inner operand := by
  cases operand <;> rfl

@[simp] theorem world_stateAt :
    (w.stateAt rest registers memory printed).world = { memory, input := w.input, printed } := rfl

@[simp] theorem module_stateAt : (w.stateAt rest registers memory printed).module = w.module := rfl

theorem step_stateAt (instruction : Instruction) :
    (w.stateAt (instruction :: rest) registers memory printed).step =
      ((w.stateAt (instruction :: rest) registers memory printed).perform?
        ⟨w.function, rest, registers, ""⟩ [] instruction).getD
          (.done .stuck (w.stateAt (instruction :: rest) registers memory printed)) := rfl

theorem step_alloca (name : String) (type : Ir.Ty) :
    (w.stateAt (.alloca name type :: rest) registers memory printed).step =
      .next (w.stateAt rest (setRegister name (.address ⟨memory.objects.size, 0⟩) registers)
        (memory.allocate type).2 printed) := rfl

theorem step_store {value target : Operand} {stored : Memory} (hvalue : w.value? registers value = some word)
    (htarget : w.value? registers target = some (.address address)) (hstored : memory.store? address word = some stored) :
    (w.stateAt (.store value target :: rest) registers memory printed).step =
      .next (w.stateAt rest registers stored printed) := by
  simp only [step_stateAt, State.perform?, State.address?, value?_stateAt, world_stateAt, hvalue,
    htarget, hstored, Option.bind_eq_bind, Option.bind_some, Option.pure_def, Option.getD_some]
  rfl

theorem step_computed {instruction : Instruction}
    (hcomputed : (w.stateAt (instruction :: rest) registers memory printed).computed?
      ⟨w.function, rest, registers, ""⟩ instruction = some (name, word)) :
    (w.stateAt (instruction :: rest) registers memory printed).step =
      .next (w.stateAt rest (setRegister name word registers) memory printed) := by
  rw [step_stateAt]
  cases instruction <;>
    first
    | simp only [State.perform?, hcomputed, Option.bind_eq_bind, Option.bind_some, Option.pure_def,
        Option.getD_some]
      rfl
    | simp [State.computed?] at hcomputed

theorem step_load {source : Operand} (hsource : w.value? registers source = some (.address address))
    (hword : memory.load? address = some word) :
    (w.stateAt (.load name type source :: rest) registers memory printed).step =
      .next (w.stateAt rest (setRegister name word registers) memory printed) := by
  apply step_computed
  simp [State.computed?, State.address?, hsource, hword]

theorem step_binary {opcode : Opcode} {left right : Operand} {b : Word} (hleft : w.value? registers left = some a)
    (hright : w.value? registers right = some b) (hword : eval? opcode a b = some word) :
    (w.stateAt (.binary name opcode type left right :: rest) registers memory printed).step =
      .next (w.stateAt rest (setRegister name word registers) memory printed) := by
  apply step_computed
  simp [State.computed?, hleft, hright, hword]

theorem step_compareInts {relation : Relation} {left right : Operand} {b : Word}
    (hleft : w.value? registers left = some a) (hright : w.value? registers right = some b)
    (hword : compareInts? relation a b = some word) :
    (w.stateAt (.compareInts name relation left right :: rest) registers memory printed).step =
      .next (w.stateAt rest (setRegister name word registers) memory printed) := by
  apply step_computed
  simp [State.computed?, hleft, hright, hword]

theorem step_convert {conversion : Conversion} {operand : Operand} (hoperand : w.value? registers operand = some a)
    (hword : convert? conversion a = some word) :
    (w.stateAt (.convert name conversion operand type :: rest) registers memory printed).step =
      .next (w.stateAt rest (setRegister name word registers) memory printed) := by
  apply step_computed
  simp [State.computed?, hoperand, hword]

theorem step_branch {target : String} {block : Ir.Block}
    (hblock : w.function.block? target = some block) :
    (w.stateAt (.branch (some target) :: rest) registers memory printed).step =
      .next (w.stateAt block.instructions registers memory printed) := by
  simp only [step_stateAt, State.perform?, State.jump?, hblock, Option.bind_eq_bind, Option.bind_some,
    Option.pure_def, Option.getD_some]
  rfl

theorem step_branchIf {condition : Operand} {yes no : String} {value : Bool} {block : Ir.Block}
    (hcondition : w.value? registers condition = some (.truth value))
    (hblock : w.function.block? (if value then yes else no) = some block) :
    (w.stateAt (.branchIf condition yes no :: rest) registers memory printed).step =
      .next (w.stateAt block.instructions registers memory printed) := by
  simp only [step_stateAt, State.perform?, State.jump?, value?_stateAt, hcondition, hblock,
    Option.bind_eq_bind, Option.bind_some, Option.pure_def, Option.getD_some]
  rfl

theorem step_printf {prototype : Ir.Prototype} {format value : Operand} {printf : Ir.Function} {form text : List UInt8}
    (hprintf : w.module.function? "printf" = some printf) (hblocks : printf.blocks = [])
    (hformat : w.value? registers format = some (.address address)) (hvalue : w.value? registers value = some word)
    (hform : memory.textAt? address = some form) (htext : formatted? memory form [word] = some text) :
    (w.stateAt (.call name "printf" prototype [format, value] :: rest) registers memory printed).step =
      .next (w.stateAt rest (setRegister name (World.ofNat text.length) registers) memory
        (text :: printed)) := by
  simp only [step_stateAt, State.perform?, State.values?, List.mapM_cons, List.mapM_nil,
    value?_stateAt, hformat, hvalue, module_stateAt, hprintf, hblocks, List.isEmpty_nil, if_true,
    World.call?, world_stateAt, hform, htext, Option.bind_eq_bind, Option.bind_some, Option.pure_def,
    Option.getD_some]
  rfl

end Setting

end Scriptlet.Machine
