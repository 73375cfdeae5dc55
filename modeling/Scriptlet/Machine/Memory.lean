import Scriptlet.Machine.Word

/-!
Memory: objects that stay until the end.

A byte object is as long as what is written into it; behind its last byte there are zeros.
-/

namespace Scriptlet.Machine

inductive Object where
  | word (content : Option Word)
  | bytes (data : List UInt8)
  deriving Inhabited

structure Memory where
  objects : Array Object := #[]
  deriving Inhabited

def overwrite (data : List UInt8) (offset : Nat) (new : List UInt8) : List UInt8 :=
  data.take offset ++ List.replicate (offset - data.length) 0 ++ new ++ data.drop (offset + new.length)

/-- Fills a range with a byte; zeros at the end need not be written down. -/
def fillRange (data : List UInt8) (offset count : Nat) (byte : UInt8) : List UInt8 :=
  if byte == 0 && data.length ≤ offset + count then data.take offset
  else overwrite data offset (List.replicate count byte)

namespace Memory

def allocate (memory : Memory) (type : Ir.Ty) : Address × Memory :=
  let object : Object := match type with
    | .array .. => .bytes []
    | _ => .word none
  (⟨memory.objects.size, 0⟩, { objects := memory.objects.push object })

def setObject (memory : Memory) (index : Nat) (object : Object) : Memory :=
  { objects := memory.objects.modify index fun _ => object }

def bytesAt? (memory : Memory) (address : Address) : Option (List UInt8) :=
  match memory.objects[address.object]? with
  | some (.bytes data) => some data
  | _ => none

/-- The bytes from an address up to the first zero. -/
def textAt? (memory : Memory) (address : Address) : Option (List UInt8) :=
  (memory.bytesAt? address).map fun data => (data.drop address.offset).takeWhile (· != 0)

def writeText? (memory : Memory) (address : Address) (text : List UInt8) : Option Memory :=
  (memory.bytesAt? address).map fun data =>
    memory.setObject address.object (.bytes (overwrite data address.offset (text ++ [0])))

def fill? (memory : Memory) (address : Address) (byte : UInt8) (count : Nat) : Option Memory :=
  (memory.bytesAt? address).map fun data =>
    memory.setObject address.object (.bytes (fillRange data address.offset count byte))

def load? (memory : Memory) (address : Address) : Option Word :=
  match memory.objects[address.object]? with
  | some (.word content) => if address.offset = 0 then content else none
  | _ => none

def store? (memory : Memory) (address : Address) (word : Word) : Option Memory :=
  match memory.objects[address.object]?, word with
  | some (.bytes data), .bytes new =>
      some (memory.setObject address.object (.bytes (overwrite data address.offset new)))
  | some (.word _), .bytes _ => none
  | some (.word _), word =>
      if address.offset = 0 then some (memory.setObject address.object (.word (some word))) else none
  | _, _ => none

end Memory

end Scriptlet.Machine
