import Scriptlet.Compile
import Scriptlet.Number.Reading
import Scriptlet.Text.Digit

/-!
The command line: the name of a source file and how much to log.

A switch may be shortened as long as it is clear which one is meant, and its value may follow an equals
sign.  Everything behind two hyphens is a name.
-/

namespace Scriptlet.CommandLine

inductive Switch where
  | help
  | log
  deriving DecidableEq, Repr, Inhabited

/-- What an argument is taken for; `attached` is the value that comes with a switch. -/
inductive Part where
  | name (text : String)
  | switch (switch : Switch) (attached : Option String)
  | shortHelp (attached : String)
  | separator
  | ambiguous
  | unknown
  deriving Inhabited

def longSwitches : List (String × Switch) :=
  [("--help", .help), ("--log", .log)]

/-- Splits at the first equals sign. -/
def splitAssignment (argument : String) : String × Option String :=
  match argument.toList.span (· != '=') with
  | (before, _ :: value) => (String.ofList before, some (String.ofList value))
  | (_, []) => (argument, none)

def isDecimal (c : Char) : Bool :=
  (Text.decimalValue? c).isSome

def isNegativeNumber (argument : String) : Bool :=
  match argument.toList with
  | '-' :: rest => match rest.span isDecimal with
      | (whole, []) => !whole.isEmpty
      | (_, '.' :: fraction) => !fraction.isEmpty && fraction.all isDecimal
      | _ => false
  | _ => false

/-- A negative number and what holds a blank are names all the same. -/
def nameOrUnknown (argument : String) : Part :=
  if isNegativeNumber argument || argument.toList.contains ' ' then .name argument else .unknown

def longSwitch (argument : String) : Part :=
  let (word, attached) := splitAssignment argument
  match longSwitches.filter fun (name, _) => word.toList.isPrefixOf name.toList with
  | [(_, switch)] => .switch switch attached
  | [] => nameOrUnknown argument
  | _ => .ambiguous

/-- What an argument in front of two hyphens is taken for. -/
def classify (argument : String) : Part :=
  match argument.toList with
  | ['-', '-'] => .separator
  | '-' :: '-' :: _ => longSwitch argument
  | ['-', 'h'] => .switch .help none
  | '-' :: 'h' :: '=' :: rest | '-' :: 'h' :: rest => .shortHelp (String.ofList rest)
  | '-' :: _ :: _ => nameOrUnknown argument
  | _ => .name argument

def classifyAll : List String → List Part
  | [] => []
  | argument :: rest => match classify argument with
      | .separator => .separator :: rest.map .name
      | part => part :: classifyAll rest

structure Request where
  file : Option String := none
  level : Int := 0
  /-- Whether something was given that has no place. -/
  hasExtras : Bool := false
  deriving Inhabited

/-- Why there is nothing to compile. -/
inductive Refusal where
  | helpWanted
  | misused
  deriving DecidableEq, Repr, Inhabited

def Refusal.exitCode : Refusal → Nat
  | helpWanted => 0
  | misused => 2

def levels : List Int := [0, 1, 2, 3]

def readLevel (text : String) : Except Refusal Int :=
  match Number.readInt? text with
  | some level => if levels.contains level then .ok level else .error .misused
  | none => .error .misused

/-- Follows the arguments from left to right; two hyphens must stand beside the name of the file. -/
def follow : Request → List Part → Except Refusal Request
  | request, [] => .ok request
  | request, .switch .log (some value) :: rest => do follow { request with level := ← readLevel value } rest
  | request, .switch .log none :: .name value :: rest => do
      follow { request with level := ← readLevel value } rest
  | _, .switch .log none :: _ => .error .misused
  | _, .switch .help none :: _ => .error .helpWanted
  | _, .switch .help (some _) :: _ => .error .misused
  | _, .shortHelp attached :: _ =>
      .error (if !attached.isEmpty && attached.toList.all (· == 'h') then .helpWanted else .misused)
  | _, .ambiguous :: _ => .error .misused
  | request, .unknown :: rest => follow { request with hasExtras := true } rest
  | request, .name file :: .separator :: rest =>
      if request.file.isNone then follow { request with file := some file } rest
      else follow { request with hasExtras := true } rest
  | request, .separator :: .name file :: rest =>
      if request.file.isNone then follow { request with file := some file } rest
      else follow { request with hasExtras := true } rest
  | request, .name file :: rest =>
      if request.file.isNone then follow { request with file := some file } rest
      else follow { request with hasExtras := true } rest
  | request, .separator :: rest => follow { request with hasExtras := true } rest

def isAmbiguous : Part → Bool
  | .ambiguous => true
  | _ => false

/-- The file and the level that the arguments ask for. -/
def interpret (arguments : List String) : Except Refusal (String × Int) := do
  let parts := classifyAll arguments
  if parts.any isAmbiguous then .error .misused
  let request ← follow {} parts
  match request.file, request.hasExtras with
  | some file, false => .ok (file, request.level)
  | _, _ => .error .misused

def helpText : String :=
  "usage: compile.py [-h] [--log \x7b0,1,2,3\x7d] FILE\n\n" ++
  "Compile a single .g file to executable.\n\n" ++
  "positional arguments:\n" ++
  "  FILE             source .g file to compile\n\n" ++
  "options:\n" ++
  "  -h, --help       show this help message and exit\n" ++
  "  --log \x7b0,1,2,3\x7d  set the verbosity level (0:none 1: minimal, 2:\n" ++
  "                   intermediate, 3: full)"

/-- Ends every line with a line feed alone. -/
def unifyNewlines : List Char → List Char
  | '\r' :: '\n' :: rest => '\n' :: unifyNewlines rest
  | '\r' :: rest => '\n' :: unifyNewlines rest
  | c :: rest => c :: unifyNewlines rest
  | [] => []

def sourceOf (read : String → Option String) (file : String) : Except String String :=
  if !file.endsWith ".g" then
    .error ("Error: The file must have a .g extension. received: '" ++ file ++ "'")
  else match read file with
    | some text => .ok (String.ofList (unifyNewlines text.toList))
    | none => .error ("File not found: " ++ file)

/-- Carries out the command line on a set of files; yields the exit code if it is left early. -/
def run (arguments : List String) (read : String → Option String) : Compilation.Action (Option Nat) := do
  match interpret arguments with
  | .error refusal =>
      if refusal = .helpWanted then Draft.printLine helpText
      return some refusal.exitCode
  | .ok (file, level) =>
      match sourceOf read file with
      | .error message =>
          Draft.printLine message
          return none
      | .ok source =>
          modify fun compilation => { compilation with source, level }
          Compilation.run
          return none

end Scriptlet.CommandLine
