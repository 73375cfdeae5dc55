import Scriptlet.Ir.Instruction
import Scriptlet.Number.Binary64

/-!
The values that generated code computes with.  Integers have 64 bits and wrap around; a truth value is
a signed number of one bit, so that true is less than false.
-/

namespace Scriptlet.Machine

open Ir (Ty Opcode Relation Conversion)

structure Address where
  object : Nat
  offset : Nat
  deriving DecidableEq, Repr, Inhabited

inductive Word where
  | int (value : Int64)
  | truth (value : Bool)
  | byte (value : UInt8)
  | double (value : Float)
  | address (address : Address)
  | bytes (data : List UInt8)
  deriving Inhabited

namespace Word

/-- The value of a constant of a type; what does not fit the type loses its upper bits. -/
def ofConstant? : Ty → Ir.Constant → Option Word
  | .int 64, .int value => some (int (Int64.ofInt value))
  | .int 8, .int value => some (byte (UInt8.ofInt value))
  | .int 1, .int value => some (truth (value % 2 == 1))
  | .int 1, .word "true" => some (truth true)
  | .int 1, .word "false" => some (truth false)
  | .double, .double value => some (double value)
  | .double, .word "0.0" => some (double 0)
  | .array _ (.int 8), .bytes data => some (bytes data)
  | .array _ (.int 8), .zero => some (bytes [])
  | _, _ => none

end Word

/-- An operation on integers; there is no quotient by zero, nor one that does not fit. -/
def evalInts? (opcode : Opcode) (a b : Int64) : Option Int64 :=
  match opcode with
  | .add => some (a + b)
  | .sub => some (a - b)
  | .mul => some (a * b)
  | .sdiv => if b == 0 || (a == Int64.minValue && b == -1) then none else some (a / b)
  | .srem => if b == 0 || (a == Int64.minValue && b == -1) then none else some (a % b)
  | .and => some (a &&& b)
  | .or => some (a ||| b)
  | .xor => some (a ^^^ b)
  | _ => none

def evalTruths? (opcode : Opcode) (a b : Bool) : Option Bool :=
  match opcode with
  | .and => some (a && b)
  | .or => some (a || b)
  | .xor => some (a != b)
  | _ => none

def evalDoubles? (opcode : Opcode) (a b : Float) : Option Float :=
  match opcode with
  | .fadd => some (a + b)
  | .fsub => some (a - b)
  | .fmul => some (a * b)
  | .fdiv => some (a / b)
  | .frem => some (Number.remainder a b)
  | _ => none

def eval? (opcode : Opcode) : Word → Word → Option Word
  | .int a, .int b => (evalInts? opcode a b).map .int
  | .truth a, .truth b => (evalTruths? opcode a b).map .truth
  | .double a, .double b => (evalDoubles? opcode a b).map .double
  | _, _ => none

def holdsOfInts (relation : Relation) (a b : Int64) : Bool :=
  match relation with
  | .eq => a == b
  | .ne => a != b
  | .lt => a < b
  | .le => a ≤ b
  | .gt => b < a
  | .ge => b ≤ a

/-- The signed number of one bit that stands for a truth value. -/
def signed (b : Bool) : Int64 :=
  if b then -1 else 0

/-- A relation of doubles holds only between numbers. -/
def holdsOfDoubles (relation : Relation) (a b : Float) : Bool :=
  match relation with
  | .eq => a == b
  | .ne => a < b || b < a
  | .lt => a < b
  | .le => a ≤ b
  | .gt => b < a
  | .ge => b ≤ a

def compareInts? (relation : Relation) : Word → Word → Option Word
  | .int a, .int b => some (.truth (holdsOfInts relation a b))
  | .truth a, .truth b => some (.truth (holdsOfInts relation (signed a) (signed b)))
  | _, _ => none

def compareDoubles? (relation : Relation) : Word → Word → Option Word
  | .double a, .double b => some (.truth (holdsOfDoubles relation a b))
  | _, _ => none

def convert? : Conversion → Word → Option Word
  | .bitcast, .address address => some (.address address)
  | .sitofp, .int value => some (.double ((Number.ofInt? value.toInt).getD 0))
  | .fptosi, .double value => some (.int (Number.truncateToInt64 value))
  | .trunc, .int value => some (.int value)
  | _, _ => none

def size : Ty → Nat
  | .int width => (width + 7) / 8
  | .array count element => count * size element
  | .void | .function .. => 0
  | .double | .pointer _ => 8

/-- The distance in bytes that indices lead away from an address of a type. -/
def distance : Ty → List Int64 → Int
  | _, [] => 0
  | type, index :: rest =>
      let element := match type with
        | .pointer target => target
        | .array _ element => element
        | other => other
      index.toInt * size element + distance element rest

end Scriptlet.Machine
