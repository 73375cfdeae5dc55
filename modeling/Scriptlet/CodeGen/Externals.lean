import Scriptlet.CodeGen.State

/-!
What the generated code takes from outside: library functions, the formats they are called with, and
the buffers for text made at run time.
-/

namespace Scriptlet.Emit

open Ir (Ty Operand Prototype Global)

def textBytes (s : String) : List UInt8 :=
  s.toUTF8.toList

def terminatedBytes (s : String) : List UInt8 :=
  textBytes s ++ [0]

def bytesType (data : List UInt8) : Ty :=
  .array data.length Ty.i8

def constantText (name text : String) (linkage : Option Ir.Linkage := none) : Global :=
  let data := terminatedBytes text
  .datum { name, type := bytesType data, isConstant := true, linkage, initializer := some (.bytes data) }

def plainText (name text : String) : Global :=
  let data := terminatedBytes text
  .datum { name, type := bytesType data, initializer := some (.bytes data) }

def bufferSize : Nat := 8192

def buffer (name : String) : Global :=
  .datum
    { name, type := .array bufferSize Ty.i8, linkage := some .internal, initializer := some .zero }

def external (name : String) (prototype : Prototype) : Global :=
  .function (Ir.Function.new name prototype)

/-- What has to be there for a library function, in the order in which it is added. -/
def requirements (name : String) : List Global :=
  match name with
  | "freopen" =>
      [external "freopen" ⟨Ty.text, [Ty.text, Ty.text, Ty.text], false⟩,
        plainText "file_name" "output.bsdk", plainText "mode" "w",
        .datum { name := "stdout", type := Ty.text, linkage := some .external }]
  | "printf" =>
      [constantText "print_fmt_int" "%lld\n", constantText "print_fmt_double" "%f\n",
        constantText "print_fmt_bool" "%s\n", constantText "print_fmt_str" "%s\n",
        external "printf" ⟨Ty.i64, [Ty.text], true⟩,
        constantText "true_str" "true", constantText "false_str" "false"]
  | "scanf" =>
      [constantText "format_scanf" "%s" (some .internal),
        external "scanf" ⟨Ty.i64, [Ty.text], true⟩, buffer "global_input_buffer"]
  | "sprintf" =>
      [constantText "sprintf_fmt_int" "%lld", constantText "sprintf_fmt_double" "%f",
        external "sprintf" ⟨Ty.i64, [Ty.text, Ty.text], true⟩]
  | "pow" => [external "pow" ⟨.double, [.double, .double], false⟩]
  | "strlen" => [external "strlen" ⟨Ty.i64, [Ty.text], false⟩]
  | "strcmp" => [external "strcmp" ⟨Ty.i64, [Ty.text, Ty.text], false⟩]
  | "strcat" =>
      [external "strcat" ⟨Ty.text, [Ty.text, Ty.text], false⟩, buffer "global_string_buffer"]
  | "atoi" => [external "atoi" ⟨Ty.i64, [Ty.text], false⟩]
  | "atof" => [external "atof" ⟨.double, [Ty.text], false⟩]
  | _ => []

/-- Adds what a library function needs.  The parts of a reopened stream come with the function. -/
def require (name : String) : Emit Unit := do
  if name = "freopen" then
    if (← global? name).isSome then return
  for needed in requirements name do
    ensureGlobal needed

def clearBuffer (pointer : Operand) : Emit Unit := do
  ensureGlobal (external "memset" ⟨Ty.text, [Ty.text, Ty.i8, Ty.i64], false⟩)
  let memset ← global "memset"
  let start ← toText pointer
  let _ ← call memset [start, .constant Ty.i8 (.int 0), .int bufferSize]

end Scriptlet.Emit
