import Scriptlet.Machine.Memory
import Scriptlet.Number.Fixed
import Scriptlet.Number.Reading

/-!
The functions that generated code calls and does not define.
-/

namespace Scriptlet.Machine

/-- What such functions can see and change. -/
structure World where
  memory : Memory := {}
  input : List UInt8 := []
  /-- What was printed, the last text first. -/
  printed : List (List UInt8) := []
  deriving Inhabited

/-- The directives of formats: an integer, a double with six places, a text. -/
def formatted? (memory : Memory) : List UInt8 → List Word → Option (List UInt8)
  | [], _ => some []
  | 37 :: 108 :: 108 :: 100 :: rest, .int value :: words => do
      return (toString value.toInt).toUTF8.toList ++ (← formatted? memory rest words)
  | 37 :: 102 :: rest, .double value :: words => do
      return (Number.fixedText 6 value).toUTF8.toList ++ (← formatted? memory rest words)
  | 37 :: 115 :: rest, .address address :: words => do
      return (← memory.textAt? address) ++ (← formatted? memory rest words)
  | 37 :: _, _ => none
  | byte :: rest, words => do return byte :: (← formatted? memory rest words)

/-- The next word of the input and what follows it; none at the end of the input. -/
def nextWord? (input : List UInt8) : Option (List UInt8 × List UInt8) :=
  let rest := input.dropWhile Number.isSpaceByte
  if rest.isEmpty then none
  else some (rest.span fun byte => !Number.isSpaceByte byte)

/-- The difference of the first bytes that differ; a text is followed by a zero. -/
def difference : List UInt8 → List UInt8 → Int
  | [], [] => 0
  | [], b :: _ => -(b.toNat : Int)
  | a :: _, [] => a.toNat
  | a :: as, b :: bs => if a == b then difference as bs else a.toNat - b.toNat

namespace World

def withMemory (world : World) (memory : Memory) : World :=
  { world with memory }

def print (world : World) (text : List UInt8) : World :=
  { world with printed := text :: world.printed }

def output (world : World) : List UInt8 :=
  world.printed.reverse.flatten

def ofNat (n : Nat) : Word :=
  .int (Int64.ofNat n)

/-- The result of a function and the world after it. -/
def call? (world : World) (name : String) (words : List Word) : Option (Word × World) :=
  let memory := world.memory
  match name, words with
  | "printf", .address format :: rest => do
      let text ← formatted? memory (← memory.textAt? format) rest
      return (ofNat text.length, world.print text)
  | "sprintf", .address target :: .address format :: rest => do
      let text ← formatted? memory (← memory.textAt? format) rest
      return (ofNat text.length, world.withMemory (← memory.writeText? target text))
  | "scanf", [.address _, .address target] =>
      match nextWord? world.input with
      | none => some (.int (-1), { world with input := [] })
      | some (word, rest) => do
          return (.int 1, { world with memory := ← memory.writeText? target word, input := rest })
  | "memset", [.address target, .byte byte, .int count] => do
      return (.address target, world.withMemory (← memory.fill? target byte count.toInt.toNat))
  | "strlen", [.address text] => do return (ofNat (← memory.textAt? text).length, world)
  | "strcmp", [.address left, .address right] => do
      return (.int (Int64.ofInt (difference (← memory.textAt? left) (← memory.textAt? right))), world)
  | "strcat", [.address target, .address source] => do
      let front ← memory.textAt? target
      let back ← memory.textAt? source
      let place := { target with offset := target.offset + front.length }
      return (.address target, world.withMemory (← memory.writeText? place back))
  | "atoi", [.address text] => do return (.int (Number.scanInt (← memory.textAt? text)), world)
  | "atof", [.address text] => do return (.double (Number.scanFloat (← memory.textAt? text)), world)
  | "pow", [.double base, .double exponent] => some (.double (base.pow exponent), world)
  | _, _ => none

end World

end Scriptlet.Machine
