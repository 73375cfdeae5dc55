import Scriptlet.Proofs.Core.Simulation

/-!
The contract of the code of statements.

A statement starts at a place in a block.  If it comes to its end, so does the machine, at a place
given beforehand; if it breaks, the machine is at the start of the block behind the loop; and if it goes
round a loop too often, the machine has taken as many steps.
-/

namespace Scriptlet.Core

open Machine (Word Address Memory Registers Setting Object State Leads setRegister
  lookup_setRegister_self lookup_setRegister_of_ne)
open Ir (Instruction Operand)

/-- A place between the instructions of a block. -/
structure Pos where
  block : String
  offset : Nat
  deriving DecidableEq, Inhabited

/-- The instructions from a place to the end of its block. -/
def codeAt (w : Setting) (pos : Pos) : List Instruction :=
  ((w.function.block? pos.block).map fun block => block.instructions.drop pos.offset).getD []

/-- The machine at a place. -/
def stateAt (w : Setting) (pos : Pos) (registers : Registers) (memory : Memory)
    (printed : List (List UInt8)) : State :=
  w.stateAt (codeAt w pos) registers memory printed

/-- What the machine has done when a statement has ended in a given way.  A break out of a list of
statements loses track of the variables that the list declares: `lost` is the number of such scopes. -/
def Reached (w : Setting) (start : State) (fuel : Nat) (exit : Option String) (lost : Nat)
    (slots after : Scopes Slot) (finish : Pos) : Outcome → Prop
  | .done next => ∃ count registers memory,
      Leads start count (stateAt w finish registers memory next.printed) ∧
        Covers w after next.scopes registers memory
  | .broke next => ∃ target count registers memory, exit = some target ∧
      Leads start count (stateAt w ⟨target, 0⟩ registers memory next.printed) ∧
        Covers w (slots.drop lost) (next.scopes.drop lost) registers memory
  | .timeout => ∃ count last, fuel ≤ count ∧ Leads start count last
  | .stuck => False

def Simulates (w : Setting) (exit : Option String) (lost : Nat) (slots : Scopes Slot) (start : Pos)
    (run : Nat → Store → Outcome) (after : Scopes Slot) (finish : Pos) : Prop :=
  ∀ fuel store registers memory, Covers w slots store.scopes registers memory →
    Reached w (stateAt w start registers memory store.printed) fuel exit lost slots after finish
      (run fuel store)

section Control

variable {w : Setting} {exit : Option String} {lost : Nat} {slots middle after : Scopes Slot}
  {start finish : Pos} {run : Nat → Store → Outcome} {used used₁ used' : List String}
  {code rest : List Instruction} {result : String} {e : Expr} {ty : Ty} {scopes : Scopes Val}
variable {id : NodeId} {memory : Memory} {name format target yes no : String} {registers : Registers} {type : Ir.Ty}
  {first : State} {fuel : Nat} {outcome : Outcome} {printed : List (List UInt8)} {address : Address}
variable {second : State} {count : Nat} {body : Block} {head into out text merge : String} {data : List UInt8}
  {prototype : Ir.Prototype}

theorem codeAt_zero {block : Ir.Block} (h : w.function.block? name = some block) :
    codeAt w ⟨name, 0⟩ = block.instructions := by
  simp [codeAt, h]

theorem Reached.of_leads_le {fuel' : Nat} (h : Reached w second fuel exit lost slots after finish outcome)
    (hleads : Leads first count second) (hfuel : fuel' ≤ count + fuel) :
    Reached w first fuel' exit lost slots after finish outcome := by
  cases outcome with
  | done next =>
      obtain ⟨count', registers, memory, hrest, hcovers⟩ := h
      exact ⟨_, registers, memory, hleads.trans hrest, hcovers⟩
  | broke next =>
      obtain ⟨target, count', registers, memory, hexit, hrest, hcovers⟩ := h
      exact ⟨target, _, registers, memory, hexit, hleads.trans hrest, hcovers⟩
  | timeout =>
      obtain ⟨count', last, hle, hrest⟩ := h
      exact ⟨_, last, by omega, hleads.trans hrest⟩
  | stuck => exact h

theorem Reached.of_leads (h : Reached w second fuel exit lost slots after finish outcome)
    (hleads : Leads first count second) : Reached w first fuel exit lost slots after finish outcome :=
  h.of_leads_le hleads (Nat.le_add_left fuel count)

theorem Reached.imp {lost' : Nat} {slots' after' : Scopes Slot} {finish' : Pos}
    (h : Reached w first fuel exit lost slots after finish outcome)
    (hdone : ∀ next count registers memory, outcome = .done next →
      Leads first count (stateAt w finish registers memory next.printed) →
      Covers w after next.scopes registers memory →
      Reached w first fuel exit lost' slots' after' finish' (.done next)) (hbroke : ∀ (next : Store) registers memory,
      Covers w (slots.drop lost) (next.scopes.drop lost) registers memory →
      Covers w (slots'.drop lost') (next.scopes.drop lost') registers memory) :
    Reached w first fuel exit lost' slots' after' finish' outcome := by
  cases outcome with
  | done next =>
      obtain ⟨count, registers, memory, hleads, hcovers⟩ := h
      exact hdone next count registers memory rfl hleads hcovers
  | broke next =>
      obtain ⟨target, count, registers, memory, hexit, hleads, hcovers⟩ := h
      exact ⟨target, count, registers, memory, hexit, hleads, hbroke next registers memory hcovers⟩
  | timeout => exact h
  | stuck => exact h

/-! ### Jumps between blocks -/

/-- An instruction without effect, put in front of a lone terminator. -/
def nop (name : String) : Instruction :=
  .binary name .add Ir.Ty.i64 (Operand.int 0) (Operand.int 0)

/-- What stands at a place is a jump to the start of a block, possibly behind an instruction without
effect whose register is not in use. -/
structure JumpsTo (w : Setting) (used : List String) (pos : Pos) (target : String) : Prop where
  isOpen : (w.function.block? target).isSome
  code : (∃ rest, codeAt w pos = .branch (some target) :: rest) ∨
    ∃ name rest, name ∉ used ∧ codeAt w pos = nop name :: .branch (some target) :: rest

theorem JumpsTo.leads (h : JumpsTo w used start target) (hkept : Kept slots used)
    (hcovers : Covers w slots scopes registers memory) (printed : List (List UInt8)) :
    ∃ count registers', Leads (stateAt w start registers memory printed) count
        (stateAt w ⟨target, 0⟩ registers' memory printed) ∧
      Covers w slots scopes registers' memory := by
  obtain ⟨hopen, hcode⟩ := h
  obtain ⟨block, hblock⟩ := Option.isSome_iff_exists.1 hopen
  unfold stateAt
  rw [codeAt_zero hblock]
  obtain ⟨rest, hcode⟩ | ⟨name, rest, hname, hcode⟩ := hcode
  · rw [hcode]
    exact ⟨1, registers, Leads.of_step (Setting.step_branch hblock), hcovers⟩
  · rw [hcode]
    have hnop : Leads (w.stateAt (nop name :: .branch (some target) :: rest) registers memory printed) 1
        (w.stateAt (.branch (some target) :: rest) (setRegister name (.int (0 + 0)) registers) memory
          printed) :=
      Leads.of_step (Setting.step_binary rfl rfl rfl)
    refine ⟨_, _, hnop.trans (Leads.of_step (Setting.step_branch hblock)), ?_⟩
    exact hcovers.grow hkept (fun other hother => lookup_of_not_mem hname hother)
      (Memory.Within.refl memory)

theorem leads_branchIf {value : Bool} (hvalue : registers.lookup result = some (.truth value))
    (hyes : (w.function.block? yes).isSome) (hno : (w.function.block? no).isSome) :
    Leads (w.stateAt (.branchIf (.register result type) yes no :: rest) registers memory printed) 1
      (stateAt w ⟨if value then yes else no, 0⟩ registers memory printed) := by
  have hopen : (w.function.block? (if value then yes else no)).isSome := by
    cases value
    · exact hno
    · exact hyes
  obtain ⟨block, hblock⟩ := Option.isSome_iff_exists.1 hopen
  unfold stateAt
  rw [codeAt_zero hblock]
  exact Leads.of_step (Setting.step_branchIf hvalue hblock)

/-- The code of an expression leads behind it, and the variables are as they were. -/
theorem Computes.leads {store : Store} (h : Computes w slots used code result used' e ty) (hkept : Kept slots used)
    (hcode : codeAt w start = code ++ rest) (hcovers : Covers w slots store.scopes registers memory) :
    ∃ value registers' memory', e.eval store.scopes = some value ∧ value.ty = ty ∧
      Leads (stateAt w start registers memory store.printed) code.length
        (w.stateAt rest registers' memory' store.printed) ∧
      registers'.lookup result = some value.word ∧ Covers w slots store.scopes registers' memory' := by
  obtain ⟨value, registers', memory', heval, hty, hleads, hlookup, hregisters, hwithin⟩ :=
    h.runs store.scopes registers memory store.printed rest hcovers
  rw [← hcode] at hleads
  exact ⟨value, registers', memory', heval, hty, hleads, hlookup, hcovers.grow hkept hregisters hwithin⟩

/-- From a place the machine goes to one of two blocks, as the value of a condition says. -/
def Decides (w : Setting) (slots : Scopes Slot) (start : Pos) (e : Expr) (yes no : String) : Prop :=
  ∀ (store : Store) registers memory, Covers w slots store.scopes registers memory →
    ∃ value count registers' memory', e.eval store.scopes = some (.bool value) ∧
      Leads (stateAt w start registers memory store.printed) (count + 1)
        (stateAt w ⟨if value then yes else no, 0⟩ registers' memory' store.printed) ∧
      Covers w slots store.scopes registers' memory'

theorem Computes.decides (h : Computes w slots used code result used' e .bool) (hkept : Kept slots used)
    (hcode : codeAt w start = code ++ .branchIf (.register result Ir.Ty.i1) yes no :: rest)
    (hyes : (w.function.block? yes).isSome) (hno : (w.function.block? no).isSome) : Decides w slots start e yes no := by
  intro store registers memory hcovers
  obtain ⟨value, registers', memory', heval, hty, hleads, hlookup, hcovers'⟩ := h.leads hkept hcode hcovers
  rw [Val.eq_bool hty] at heval hlookup
  exact ⟨_, _, registers', memory', heval, hleads.trans (leads_branchIf hlookup hyes hno), hcovers'⟩

/-- A statement that never comes to its end may be followed by anything. -/
theorem Simulates.of_never_done (h : Simulates w exit lost slots start run after finish)
    (hnever : ∀ fuel store next, run fuel store ≠ .done next) (after' : Scopes Slot) (finish' : Pos) :
    Simulates w exit lost slots start run after' finish' := by
  intro fuel store registers memory hcovers
  refine (h fuel store registers memory hcovers).imp ?_ fun _ _ _ hcovers' => hcovers'
  intro next _ _ _ hdone
  exact absurd hdone (hnever fuel store next)

theorem Simulates.jump (h : Simulates w exit lost slots start run after finish) (hkept : Kept after used)
    (hjump : JumpsTo w used finish target) : Simulates w exit lost slots start run after ⟨target, 0⟩ := by
  intro fuel store registers memory hcovers
  refine (h fuel store registers memory hcovers).imp ?_ fun _ _ _ hcovers' => hcovers'
  intro next count registers' memory' _ hleads hcovers'
  obtain ⟨count', registers'', hleads', hcovers''⟩ := hjump.leads hkept hcovers' next.printed
  exact ⟨_, registers'', memory', hleads.trans hleads', hcovers''⟩

theorem Simulates.lose (h : Simulates w exit 0 slots start run after finish) :
    Simulates w exit 1 slots start run after finish := by
  intro fuel store registers memory hcovers
  refine (h fuel store registers memory hcovers).imp ?_ ?_
  · intro next count registers' memory' _ hleads hcovers'
    exact ⟨count, registers', memory', hleads, hcovers'⟩
  · intro next registers' memory' hcovers'
    rw [List.drop_one, List.drop_one]
    exact hcovers'.leave

/-! ### Lists of statements, and blocks -/

theorem simulates_nil : Simulates w exit lost slots start (Stmts.exec · .nil) slots start := by
  intro fuel store registers memory hcovers
  exact ⟨0, registers, memory, Leads.refl _, hcovers⟩

theorem simulates_cons {head : Stmt} {tail : Stmts} {between : Pos}
    (hhead : Simulates w exit 1 slots start (Stmt.exec · head) middle between)
    (htail : Simulates w exit 1 middle between (Stmts.exec · tail) after finish)
    (hmiddle : middle.tail = slots.tail) :
    Simulates w exit 1 slots start (Stmts.exec · (.cons head tail)) after finish := by
  intro fuel store registers memory hcovers
  have hreached := hhead fuel store registers memory hcovers
  simp only [Stmts.exec]
  beta_reduce at hreached
  cases hrun : head.exec fuel store with
  | done next =>
      rw [hrun] at hreached
      obtain ⟨count, registers', memory', hleads, hcovers'⟩ := hreached
      refine ((htail fuel next registers' memory' hcovers').of_leads hleads).imp ?_ ?_
      · intro last count' registers'' memory'' _ hleads' hcovers''
        exact ⟨count', registers'', memory'', hleads', hcovers''⟩
      · intro last registers'' memory'' hcovers''
        rw [List.drop_one, hmiddle] at hcovers''
        rwa [List.drop_one]
  | broke next | timeout | stuck =>
      rw [hrun] at hreached
      exact hreached

/-- A block forgets its own variables, on both ways out of it. -/
theorem simulates_block {statements : Stmts}
    (h : Simulates w exit 1 ([] :: slots) start (Stmts.exec · statements) after finish) (hafter : after.tail = slots) :
    Simulates w exit 0 slots start (Block.exec · (.mk id statements)) slots finish := by
  intro fuel store registers memory hcovers
  have hreached := h fuel store.enter registers memory hcovers.enter
  simp only [Block.exec]
  beta_reduce at hreached
  cases hrun : statements.exec fuel store.enter with
  | done next =>
      rw [hrun] at hreached
      obtain ⟨count, registers', memory', hleads, hcovers'⟩ := hreached
      refine ⟨count, registers', memory', hleads, ?_⟩
      rw [← hafter]
      exact hcovers'.leave
  | broke next =>
      rw [hrun] at hreached
      obtain ⟨target, count, registers', memory', hexit, hleads, hcovers'⟩ := hreached
      refine ⟨target, count, registers', memory', hexit, hleads, ?_⟩
      simpa only [Store.leave, List.drop_one, List.tail_cons, List.drop_zero] using hcovers'
  | timeout | stuck =>
      rw [hrun] at hreached
      exact hreached

/-! ### Choices and loops -/

/-- Code that decides between two arms.  Both arms end at the same place. -/
theorem simulates_choice {whenTrue whenFalse : Nat → Store → Outcome} (hdecides : Decides w slots start e yes no)
    (htrue : Simulates w exit lost slots ⟨yes, 0⟩ whenTrue after finish)
    (hfalse : Simulates w exit lost slots ⟨no, 0⟩ whenFalse after finish)
    (hrun : ∀ fuel store, run fuel store = match e.eval store.scopes with
      | some (.bool true) => whenTrue fuel store
      | some (.bool false) => whenFalse fuel store
      | _ => .stuck) : Simulates w exit lost slots start run after finish := by
  intro fuel store registers memory hcovers
  obtain ⟨value, count, registers', memory', heval, hjump, hcovers'⟩ := hdecides store registers memory hcovers
  rw [hrun, heval]
  cases value with
  | true => exact (htrue fuel store registers' memory' hcovers').of_leads hjump
  | false => exact (hfalse fuel store registers' memory' hcovers').of_leads hjump

/-- From the place where the condition is computed, a loop goes round as the machine does.  The machine
takes a step each time round. -/
theorem reached_iterate (hdecides : Decides w slots ⟨head, 0⟩ e into out)
    (hbody : Simulates w (some out) 0 slots ⟨into, 0⟩ (Block.exec · body) slots ⟨head, 0⟩) (fuel rounds : Nat)
    (hrounds : rounds ≤ fuel) (store : Store) (registers : Registers) (memory : Memory)
    (hcovers : Covers w slots store.scopes registers memory) :
    Reached w (stateAt w ⟨head, 0⟩ registers memory store.printed) rounds exit 0 slots slots ⟨out, 0⟩
      (iterate (fun store => e.eval store.scopes) (body.exec fuel) rounds store) := by
  induction rounds generalizing store registers memory with
  | zero => exact ⟨0, _, Nat.le_refl 0, Leads.refl _⟩
  | succ rounds ih =>
      obtain ⟨value, count, registers', memory', heval, hjump, hcovers'⟩ := hdecides store registers memory hcovers
      rw [iterate]
      simp only [heval]
      cases value with
      | false => exact ⟨_, registers', memory', hjump, hcovers'⟩
      | true =>
          have hreached := hbody fuel store registers' memory' hcovers'
          beta_reduce at hreached
          cases hrun : body.exec fuel store with
          | done next =>
              rw [hrun] at hreached
              obtain ⟨count, registers'', memory'', hround, hcovers''⟩ := hreached
              -- The jump into the body is the step that this time round adds.
              exact (ih (by omega) next registers'' memory'' hcovers'').of_leads_le
                (hjump.trans hround) (by omega)
          | broke next =>
              rw [hrun] at hreached
              obtain ⟨target, count, registers'', memory'', hexit, hround, hcovers''⟩ := hreached
              obtain rfl : out = target := Option.some.inj hexit
              exact ⟨_, registers'', memory'', hjump.trans hround, hcovers''⟩
          | timeout =>
              rw [hrun] at hreached
              obtain ⟨count, last, hle, hlast⟩ := hreached
              exact ⟨_, last, by omega, hjump.trans hlast⟩
          | stuck =>
              rw [hrun] at hreached
              exact hreached

theorem simulates_loop (hkept : Kept slots used) (hstart : JumpsTo w used start head)
    (hdecides : Decides w slots ⟨head, 0⟩ e into out)
    (hbody : Simulates w (some out) 0 slots ⟨into, 0⟩ (Block.exec · body) slots ⟨head, 0⟩) :
    Simulates w exit 0 slots start (Stmt.exec · (.loop id e body)) slots ⟨out, 0⟩ := by
  intro fuel store registers memory hcovers
  simp only [Stmt.exec]
  obtain ⟨count, registers', hleads, hcovers'⟩ := hstart.leads hkept hcovers store.printed
  exact (reached_iterate hdecides hbody fuel fuel (Nat.le_refl fuel) store registers' memory hcovers').of_leads hleads

/-! ### Simple statements -/

theorem simulates_break (hkept : Kept slots used) (hjump : JumpsTo w used start target) :
    Simulates w (some target) 0 slots start (Stmt.exec · (.breakOut id)) after finish := by
  intro fuel store registers memory hcovers
  obtain ⟨count, registers', hleads, hcovers'⟩ := hjump.leads hkept hcovers store.printed
  exact ⟨target, count, registers', memory, rfl, hleads, hcovers'⟩

theorem simulates_declare {slot : String} (hkept : Kept slots used) (hlevels : slots ≠ [])
    (hvalue : Computes w slots used code result used' e ty) (hslot : slot ∉ used')
    (hcode : codeAt w start = code ++ .alloca slot ty.ir ::
      .store (.register result ty.ir) (.register slot (.pointer ty.ir)) :: codeAt w finish) :
    Simulates w exit 0 slots start (Stmt.exec · (.declare id name e))
      (slots.declare name ⟨slot, ty⟩) finish := by
  intro fuel store registers memory hcovers
  obtain ⟨value, registers', memory', heval, rfl, hleads, hlookup, hcovers'⟩ := hvalue.leads hkept hcode hcovers
  simp only [Stmt.exec, heval]
  have hobject : (memory'.allocate value.ty.ir).2.objects[memory'.objects.size]? =
      some (.word none) := by
    cases value <;> exact Memory.getElem?_allocate_size memory' _
  have hresult : (setRegister slot (.address ⟨memory'.objects.size, 0⟩) registers').lookup result =
      some value.word := by
    rw [lookup_of_not_mem hslot hvalue.result_mem, hlookup]
  refine ⟨_, _, _, hleads.trans (Leads.step (Setting.step_alloca slot _)
    (Leads.of_step (Setting.step_store hresult (lookup_setRegister_self slot _ _)
      (Memory.store?_word hobject value.word_ne_bytes)))), ?_⟩
  refine hcovers'.declare hkept hlevels (lookup_setRegister_self slot _ _) (fun other hother => ?_) ?_
    (Memory.within_setObject_size memory' _ _)
  · exact lookup_of_not_mem hslot (hvalue.used_subset hother)
  · rw [Memory.getElem?_setObject, if_pos rfl, hobject]
    rfl

theorem simulates_assign {slot : Slot} (hkept : Kept slots used)
    (hvalue : Computes w slots used code result used' e slot.ty) (hslot : slots.find? name = some slot)
    (hcode : codeAt w start = code ++ .store (.register result slot.ty.ir)
      (.register slot.register (.pointer slot.ty.ir)) :: codeAt w finish) :
    Simulates w exit 0 slots start (Stmt.exec · (.assign id name e)) slots finish := by
  intro fuel store registers memory hcovers
  obtain ⟨value, registers', memory', heval, hty, hleads, hlookup, hcovers'⟩ := hvalue.leads hkept hcode hcovers
  obtain ⟨old, hold, -, -, index, hregister, hobject⟩ := covers_find? hcovers'.cells hslot
  simp only [Stmt.exec, heval, hold]
  exact ⟨_, _, _, hleads.trans (Leads.of_step (Setting.step_store hlookup hregister
    (Memory.store?_word hobject value.word_ne_bytes))), hcovers'.assign hslot hty hregister⟩

/-! ### Prints -/

/-- The library's print function is declared, and the texts that prints use are laid out. -/
structure Prints (w : Setting) : Prop where
  printf : ∃ function, w.module.function? "printf" = some function ∧ function.blocks = []
  texts : ∀ entry ∈ printTexts, ∃ address, w.globals.lookup entry.1 = some address

def callPrintf (name : String) (prototype : Ir.Prototype) (format value : Operand) : Instruction :=
  .call name "printf" prototype [format, value]

theorem leads_text (hprints : Prints w) (hcovers : Covers w slots scopes registers memory)
    (hmem : (text, data) ∈ printTexts) :
    ∃ address, memory.textAt? address = some data ∧
      ∀ name type rest printed,
        Leads (w.stateAt (.convert name .bitcast (.global text type) Ir.Ty.text :: rest) registers memory
            printed) 1
          (w.stateAt rest (setRegister name (.address address) registers) memory printed) := by
  obtain ⟨address, haddress⟩ := hprints.texts _ hmem
  refine ⟨address, hcovers.texts _ hmem address haddress, fun name type rest printed => ?_⟩
  have hvalue : w.value? registers (.global text type) = some (.address address) := by
    simp only [Setting.value?, haddress, Option.map_some]
  exact Leads.of_step (Setting.step_convert hvalue rfl)

theorem leads_printf {value : String} {type' : Ir.Ty} {word : Word} {form text : List UInt8} (hprints : Prints w)
    (hformat : registers.lookup format = some (.address address)) (hvalue : registers.lookup value = some word)
    (hform : memory.textAt? address = some form) (htext : Machine.formatted? memory form [word] = some text) :
    Leads (w.stateAt (callPrintf name prototype (.register format type) (.register value type') :: rest)
        registers memory printed) 1
      (w.stateAt rest (setRegister name (Machine.World.ofNat text.length) registers) memory
        (text :: printed)) := by
  obtain ⟨function, hfunction, hblocks⟩ := hprints.printf
  exact Leads.of_step (Setting.step_printf hfunction hblocks hformat hvalue hform htext)

theorem formatted?_int (memory : Memory) (value : Int64) :
    Machine.formatted? memory [37, 108, 108, 100, 10] [.int value] = some (Val.int value).line := rfl

theorem formatted?_bool (value : Bool)
    (h : memory.textAt? address = some (if value then "true" else "false").toUTF8.toList) :
    Machine.formatted? memory [37, 115, 10] [.address address] = some (Val.bool value).line := by
  simp [Machine.formatted?, h, Val.line]

theorem simulates_printInt {argument : NodeId} (hprints : Prints w) (hkept : Kept slots used)
    (hvalue : Computes w slots used code result used' e .int) (hformat : format ∉ used') (hname : name ∉ used')
    (hcode : codeAt w start = code ++
      .convert format .bitcast (.global "print_fmt_int" type) Ir.Ty.text ::
      callPrintf name prototype (.register format Ir.Ty.text) (.register result Ir.Ty.i64) ::
      codeAt w finish) : Simulates w exit 0 slots start (Stmt.exec · (.print id argument e)) slots finish := by
  intro fuel store registers memory hcovers
  obtain ⟨value, registers', memory', heval, hty, hleads, hlookup, hcovers'⟩ := hvalue.leads hkept hcode hcovers
  rw [Val.eq_int hty] at heval hlookup
  obtain ⟨address, htext, hconvert⟩ := leads_text hprints hcovers'
    (show ("print_fmt_int", [37, 108, 108, 100, 10]) ∈ printTexts by simp [printTexts])
  have hword : (setRegister format (.address address) registers').lookup result =
      some (.int value.asInt) := by
    rw [lookup_of_not_mem hformat hvalue.result_mem, hlookup]
    rfl
  simp only [Stmt.exec, heval]
  refine ⟨_, _, memory', (hleads.trans (hconvert _ _ _ _)).trans (leads_printf hprints
    (lookup_setRegister_self format _ _) hword htext (formatted?_int memory' value.asInt)), ?_⟩
  refine hcovers'.grow hkept (fun other hother => ?_) (Memory.Within.refl memory')
  rw [lookup_of_not_mem hname (hvalue.used_subset hother),
    lookup_of_not_mem hformat (hvalue.used_subset hother)]

/-- The arm of a print that shows a given word. -/
def ShowsWord (w : Setting) (used : List String) (block text format merge : String) : Prop :=
  ∃ shown name prototype type rest, shown ∉ used ∧ name ∉ used ∧
    codeAt w ⟨block, 0⟩ = .convert shown .bitcast (.global text type) Ir.Ty.text ::
      callPrintf name prototype (.register format Ir.Ty.text) (.register shown Ir.Ty.text) ::
      .branch (some merge) :: rest

theorem leads_word {block : String} (value : Bool) (hprints : Prints w) (hkept : Kept slots used)
    (hused : format ∈ used) (hcovers : Covers w slots scopes registers memory)
    (hmem : (text, (if value then "true" else "false").toUTF8.toList) ∈ printTexts)
    (hcode : ShowsWord w used block text format merge) (hmerge : (w.function.block? merge).isSome)
    (hformat : registers.lookup format = some (.address address)) (hform : memory.textAt? address = some [37, 115, 10]) :
    ∃ count registers', Leads (stateAt w ⟨block, 0⟩ registers memory printed) count
        (stateAt w ⟨merge, 0⟩ registers' memory ((Val.bool value).line :: printed)) ∧
      Covers w slots scopes registers' memory := by
  obtain ⟨shown, name, prototype, type, rest, hshown, hname, hcode⟩ := hcode
  obtain ⟨place, htext, hconvert⟩ := leads_text hprints hcovers hmem
  obtain ⟨target, htarget⟩ := Option.isSome_iff_exists.1 hmerge
  have hformat' : (setRegister shown (.address place) registers).lookup format =
      some (.address address) := by
    rw [lookup_of_not_mem hshown hused, hformat]
  unfold stateAt
  rw [hcode, codeAt_zero htarget]
  refine ⟨_, _, ((hconvert shown type _ printed).trans (leads_printf hprints hformat'
    (lookup_setRegister_self shown _ _) hform (formatted?_bool value htext))).trans
    (Leads.of_step (Setting.step_branch htarget)), ?_⟩
  refine hcovers.grow hkept (fun other hother => ?_) (Memory.Within.refl memory)
  rw [lookup_of_not_mem hname hother, lookup_of_not_mem hshown hother]

/-- A truth value is printed by one of two arms, which meet again. -/
theorem simulates_printBool {argument : NodeId} (hprints : Prints w) (hkept : Kept slots used)
    (hvalue : Computes w slots used code result used' e .bool) (hfresh : Fresh format used' used₁)
    (hcode : codeAt w start = code ++
      .convert format .bitcast (.global "print_fmt_bool" type) Ir.Ty.text ::
      .branchIf (.register result Ir.Ty.i1) yes no :: rest) (hyes : ShowsWord w used₁ yes "true_str" format merge)
    (hno : ShowsWord w used₁ no "false_str" format merge) (hyesOpen : (w.function.block? yes).isSome)
    (hnoOpen : (w.function.block? no).isSome) (hmerge : (w.function.block? merge).isSome) :
    Simulates w exit 0 slots start (Stmt.exec · (.print id argument e)) slots ⟨merge, 0⟩ := by
  intro fuel store registers memory hcovers
  obtain ⟨value, registers', memory', heval, hty, hleads, hlookup, hcovers'⟩ := hvalue.leads hkept hcode hcovers
  rw [Val.eq_bool hty] at heval hlookup
  obtain ⟨address, htext, hconvert⟩ := leads_text hprints hcovers'
    (show ("print_fmt_bool", [37, 115, 10]) ∈ printTexts by simp [printTexts])
  have hresult : (setRegister format (.address address) registers').lookup result =
      some (.truth value.asBool) := by
    rw [lookup_of_not_mem hfresh.not_mem hvalue.result_mem, hlookup]
    rfl
  have hcovers'' : Covers w slots store.scopes (setRegister format (.address address) registers')
      memory' :=
    hcovers'.grow hkept
      (fun other hother => lookup_of_not_mem hfresh.not_mem (hvalue.used_subset hother))
      (Memory.Within.refl memory')
  have hkept₁ : Kept slots used₁ := (hkept.mono hvalue.used_subset).mono hfresh.subset
  have hjump := (hleads.trans (hconvert _ _ _ _)).trans (leads_branchIf hresult hyesOpen hnoOpen)
  simp only [Stmt.exec, heval]
  cases htruth : value.asBool with
  | true =>
      obtain ⟨count, registers₃, hword, hcovers₃⟩ := leads_word true hprints hkept₁ hfresh.mem hcovers''
        (by decide +kernel) hyes hmerge (lookup_setRegister_self format _ _) htext
      rw [htruth] at hjump
      exact ⟨_, registers₃, memory', hjump.trans hword, hcovers₃⟩
  | false =>
      obtain ⟨count, registers₃, hword, hcovers₃⟩ := leads_word false hprints hkept₁ hfresh.mem hcovers''
        (by decide +kernel) hno hmerge (lookup_setRegister_self format _ _) htext
      rw [htruth] at hjump
      exact ⟨_, registers₃, memory', hjump.trans hword, hcovers₃⟩

end Control

end Scriptlet.Core
