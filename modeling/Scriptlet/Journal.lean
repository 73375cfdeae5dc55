import Scriptlet.Failure
import Scriptlet.Text.Blank

/-!
The journal of a compilation: the messages issued, whether one of them was an error, and all text
printed so far.  A journal holds a limited number of messages; asking for one more ends the
operation.
-/

namespace Scriptlet

def red : String := "\x1b[31m"

def reset : String := "\x1b[0m"

structure Journal where
  flagged : Bool := false
  messages : Array String := #[]
  printed : String := ""
  limit : Option Nat := some 40
  deriving Inhabited

/-- A remark on the source text that does not end the stage. -/
structure Report where
  message : String
  heading : String := "Complier"
  isError : Bool := true
  line : Scalar := .null

def Report.title (report : Report) : String :=
  if report.heading = "Warning" then report.heading else report.heading ++ " Error"

def Report.wording (report : Report) : String :=
  let place := match report.line with
    | .null => ""
    | line => " at line " ++ line.display
  red ++ report.title ++ place ++ ": " ++ reset ++ report.message

namespace Journal

abbrev Writer := EStateM Failure Journal

def isFull (journal : Journal) : Bool :=
  match journal.limit with
  | some limit => limit ≤ journal.messages.size
  | none => false

def flag (journal : Journal) : Journal :=
  { journal with flagged := true }

def addLine (journal : Journal) (text : String) : Journal :=
  { journal with printed := journal.printed ++ text ++ "\n" }

def clear (journal : Journal) : Journal :=
  { journal with flagged := false, messages := #[] }

def printLine (text : String) : Writer Unit :=
  modify fun journal => journal.addLine text

/-- Adds a message, or gives up if the journal is full. -/
def record (message : String) : Writer Unit := do
  if (← get).isFull then throw .runaway
  modify fun journal => { journal with messages := journal.messages.push message }

def report (report : Report) : Writer Unit := do
  if report.isError then modify flag
  record report.wording
  printLine report.wording

/-- What follows the first colon, without white space around it. -/
def afterColon (s : String) : String :=
  let rest := (s.toList.dropWhile (· != ':')).drop 1
  if s.toList.contains ':' then Text.trimBlank (String.ofList rest) else Text.trimBlank s

/-- Announces an error by its class, its line if given, and its wording. -/
def announceAs (name wording : String) (exits : Bool) (line : Scalar) : Writer Unit := do
  let place := match line with
    | .null => ""
    | line => " on line " ++ line.display
  let title := name ++ place ++ ":"
  let body := afterColon wording
  record (title ++ " " ++ body)
  printLine (red ++ title ++ reset ++ " " ++ body)
  if exits then throw .exit

/-- Marks the compilation as failed and announces a complaint; any other failure goes on as it is. -/
def announce (failure : Failure) (exits : Bool := true) (line : Scalar := .null) : Writer Unit := do
  modify flag
  match failure with
  | .complaint c => announceAs c.kind.name c.wording exits line
  | .exit => announceAs "ExitSignal" failure.wording exits line
  | other => throw other

end Journal

end Scriptlet
