import Scriptlet.Ir.Module
import Scriptlet.Machine.World

/-!
Running a module, one instruction a step.
-/

namespace Scriptlet.Machine

open Ir (Instruction Operand)

abbrev Registers := List (String × Word)

def setRegister (name : String) (word : Word) : Registers → Registers
  | [] => [(name, word)]
  | (key, old) :: rest =>
      if key = name then (key, word) :: rest else (key, old) :: setRegister name word rest

/-- A function at work: the instructions that are left of its block and its registers.  Its value goes
to the register `result` of the caller. -/
structure Frame where
  function : Ir.Function
  rest : List Instruction
  registers : Registers := []
  result : String := ""
  deriving Inhabited

/-- The frames stand innermost first. -/
structure State where
  module : Ir.Module
  globals : List (String × Address) := []
  world : World := {}
  frames : List Frame := []
  deriving Inhabited

inductive Ending where
  | finished
  | stuck
  | outOfSteps
  deriving DecidableEq, Repr, Inhabited

inductive Progress where
  | next (state : State)
  | done (ending : Ending) (state : State)

namespace State

def value? (state : State) (frame : Frame) : Operand → Option Word
  | .constant type value => Word.ofConstant? type value
  | .global name _ => (state.globals.lookup name).map .address
  | .register name _ => frame.registers.lookup name
  | .nothing | .label _ => none

def values? (state : State) (frame : Frame) (operands : List Operand) : Option (List Word) :=
  operands.mapM (state.value? frame)

def address? (state : State) (frame : Frame) (operand : Operand) : Option Address := do
  match ← state.value? frame operand with
  | .address address => return address
  | _ => none

/-- Goes on with the innermost frame. -/
def continueWith (state : State) (frame : Frame) (frames : List Frame) : State :=
  { state with frames := frame :: frames }

def withMemory (state : State) (memory : Memory) : State :=
  { state with world := state.world.withMemory memory }

def enter? (function : Ir.Function) (words : List Word) (result : String) : Option Frame := do
  let entry ← function.blocks.head?
  return { function, rest := entry.instructions, registers := function.arguments.zip words, result }

def jump? (frame : Frame) (name : String) : Option Frame := do
  let block ← frame.function.block? name
  return { frame with rest := block.instructions }

/-- Hands a value to the caller. -/
def leave (state : State) (frame : Frame) (value : Option Word) : List Frame → Progress
  | [] => .done .finished { state with frames := [] }
  | caller :: frames =>
      match value with
      | some word =>
          .next (state.continueWith
            { caller with registers := setRegister frame.result word caller.registers } frames)
      | none => .next (state.continueWith caller frames)

/-- The register and value of an instruction that does nothing but compute. -/
def computed? (state : State) (frame : Frame) : Instruction → Option (String × Word)
  | .load name _ source => do return (name, ← state.world.memory.load? (← state.address? frame source))
  | .binary name opcode _ left right => do
      return (name, ← eval? opcode (← state.value? frame left) (← state.value? frame right))
  | .negate name _ operand => do
      match ← state.value? frame operand with
      | .double value => return (name, .double (-value))
      | _ => none
  | .compareInts name relation left right => do
      return (name, ← compareInts? relation (← state.value? frame left) (← state.value? frame right))
  | .compareDoubles name relation left right => do
      return (name, ← compareDoubles? relation (← state.value? frame left) (← state.value? frame right))
  | .convert name conversion operand _ => do
      return (name, ← convert? conversion (← state.value? frame operand))
  | .elementPointer name base indices => do
      let address ← state.address? frame base
      let steps ← (← state.values? frame indices).mapM fun word => match word with
        | .int index => some index
        | _ => none
      let offset := address.offset + distance (← base.type?) steps
      return (name, .address { address with offset := offset.toNat })
  | _ => none

/-- Carries out an instruction of the innermost frame; `frame` stands behind the instruction already. -/
def perform? (state : State) (frame : Frame) (frames : List Frame) : Instruction → Option Progress
  | .alloca name type =>
      let (address, memory) := state.world.memory.allocate type
      let registers := setRegister name (.address address) frame.registers
      some (.next ((state.withMemory memory).continueWith { frame with registers } frames))
  | .store value target => do
      let memory ← state.world.memory.store? (← state.address? frame target) (← state.value? frame value)
      return .next ((state.withMemory memory).continueWith frame frames)
  | .call name callee _ arguments => do
      let words ← state.values? frame arguments
      let function ← state.module.function? callee
      if function.blocks.isEmpty then
        let (word, world) ← state.world.call? callee words
        let registers := setRegister name word frame.registers
        return .next ({ state with world }.continueWith { frame with registers } frames)
      else
        return .next (state.continueWith (← enter? function words name) (frame :: frames))
  | .branch target => do return .next (state.continueWith (← jump? frame (← target)) frames)
  | .branchIf condition yes no => do
      match ← state.value? frame condition with
      | .truth value => return .next (state.continueWith (← jump? frame (if value then yes else no)) frames)
      | _ => none
  | .ret none => some (state.leave frame none frames)
  | .ret (some value) => do return state.leave frame (some (← state.value? frame value)) frames
  | .comment _ => some (.next (state.continueWith frame frames))
  | instruction => do
      let (name, word) ← state.computed? frame instruction
      let registers := setRegister name word frame.registers
      return .next (state.continueWith { frame with registers } frames)

def step (state : State) : Progress :=
  match state.frames with
  | [] => .done .finished state
  | frame :: frames =>
      match frame.rest with
      | [] => .done .stuck state
      | instruction :: rest => (state.perform? { frame with rest } frames instruction).getD (.done .stuck state)

def run : Nat → State → Ending × State
  | 0, state => (.outOfSteps, state)
  | steps + 1, state => match state.step with
      | .next state => run steps state
      | .done ending state => (ending, state)

end State

/-- Lays out the data of a module. -/
def layOut : List Ir.Global → List (String × Address) → Memory → List (String × Address) × Memory
  | [], globals, memory => (globals, memory)
  | .function _ :: rest, globals, memory => layOut rest globals memory
  | .datum datum :: rest, globals, memory =>
      let (address, memory) := memory.allocate datum.type
      let filled := do
        memory.store? address (← Word.ofConstant? datum.type (← datum.initializer))
      layOut rest ((datum.name, address) :: globals) (filled.getD memory)

def State.start? (module : Ir.Module) (input : List UInt8) : Option State := do
  let main ← module.function? "main"
  let (globals, memory) := layOut module.globals [] {}
  return { module, globals, world := { memory, input }, frames := [← enter? main [] ""] }

/-- How many steps a program may take. -/
def stepLimit : Nat := 200000000

def runModule (module : Ir.Module) (input : List UInt8) : Ending × List UInt8 :=
  match State.start? module input with
  | none => (.stuck, [])
  | some state =>
      let (ending, last) := state.run stepLimit
      (ending, last.world.output)

end Scriptlet.Machine
