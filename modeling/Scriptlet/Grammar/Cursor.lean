import Scriptlet.Node.Build
import Scriptlet.Token.Stream

/-!
A cursor over the tokens of a text: the current token, the one ahead, and what the grammar has to
remember on the way.
-/

namespace Scriptlet

structure Cursor extends Draft where
  scanner : Scanner
  current : Option Token := none
  ahead : Option Token := none
  line : Nat := 1
  inFunction : Bool := false
  inLoop : Bool := false
  /-- The node that is being built and to which the next sum belongs. -/
  focus : Value := .null
  deriving Inhabited

instance : Carries Cursor where
  draft cursor := cursor.toDraft
  withDraft cursor draft := { cursor with toDraft := draft }

abbrev Parse := EStateM Failure Cursor

namespace Cursor

def currentKind? (cursor : Cursor) : Option TokenKind :=
  cursor.current.map Token.kind

def isAt (cursor : Cursor) (kinds : List TokenKind) : Bool :=
  cursor.currentKind?.any kinds.contains

def isBefore (cursor : Cursor) (kinds : List TokenKind) : Bool :=
  (cursor.ahead.map Token.kind).any kinds.contains

/-- Enough steps for any loop that reads a token each time round. -/
def tokenBound (cursor : Cursor) : Nat :=
  cursor.scanner.rest.length + 3

/-- Enough steps for the grammar: a text of this length holds no more tokens, and no more messages
than these are issued. -/
def budget (cursor : Cursor) : Nat :=
  16 * (cursor.scanner.rest.length + cursor.journal.limit.getD 40 + 24)

end Cursor

namespace Parse

def check (kinds : List TokenKind) : Parse Bool :=
  return (← get).isAt kinds

def checkAhead (kinds : List TokenKind) : Parse Bool :=
  return (← get).isBefore kinds

def line : Parse Value :=
  return .int (← get).line

def setFocus (focus : Value) : Parse Unit :=
  modify fun cursor => { cursor with focus }

/-- Reads a token from the text.  A fault leaves the token ahead as it is. -/
def readAhead : Parse Unit := do
  let outcome := (← get).scanner.scan
  modify fun cursor => { cursor with current := cursor.ahead, scanner := outcome.scanner }
  let token ← outcome.deliver
  modify fun cursor => { cursor with ahead := token }

/-- Moves on by one token; the end of the text is never left. -/
def next : Parse Unit := do
  unless ← check [.eof] do
    readAhead
    if ← check [.newline] then
      modify fun cursor => { cursor with line := cursor.line + 1 }

def currentValue : Parse Scalar := do
  match (← get).current with
  | some token => return token.value
  | none => fail (.missingAttribute Scalar.null.sortName "value")

/-- Reports an error of the text at the current line. -/
def complain (message : String) (heading : String := "Syntax") : Parse Unit := do
  let line := (← get).line
  (Journal.report { message, heading, line := .int line } : Draft.Action Unit)

def expectedMessage (kinds : List TokenKind) (token : Token) : String :=
  "Expected one of: " ++ String.intercalate ", " (kinds.map TokenKind.name) ++ ", got '" ++
    token.value.display ++ "' (type: " ++ token.kind.name ++ ")"

/-- Moves on, and complains if the current token is of none of the given kinds. -/
def expect (kinds : List TokenKind) (message : Option String := none) : Parse Unit := do
  unless ← check kinds do
    match message, (← get).current with
    | some message, _ => complain message
    | none, some token => complain (expectedMessage kinds token)
    | none, none => fail (.missingAttribute Scalar.null.sortName "value")
  next

/-- Moves on until the current token is of one of the given kinds. -/
def skipUntilWithin (kinds : List TokenKind) : Nat → Parse Unit
  | 0 => fail .outOfSteps
  | count + 1 => do
      unless ← check kinds do
        next
        skipUntilWithin kinds count

def skipUntil (kinds : List TokenKind) : Parse Unit := do
  skipUntilWithin kinds (← get).tokenBound

def skipNewlinesWithin : Nat → Parse Unit
  | 0 => fail .outOfSteps
  | count + 1 => do
      if ← check [.newline] then
        next
        skipNewlinesWithin count

def skipNewlines : Parse Unit := do
  skipNewlinesWithin (← get).tokenBound

/-- The tokens at which reading can be taken up again after an error. -/
def landmarks : List TokenKind :=
  [.rightBrace, .leftBrace, .ifKey, .whileKey, .forKey, .setKey, .eof]

/-- Moves on to the next landmark, and behind it if it closes a block; gives up at the end. -/
def recover : Parse Unit := do
  skipUntil landmarks
  if ← check [.eof] then throw .exit
  if ← check [.rightBrace] then expect [.rightBrace]

/-- Repeats a loop body until a token of one of the given kinds, and collects what it yields. -/
def repeatUntil {α : Type} (kinds : List TokenKind) (body : Parse (List α)) : Nat → Parse (List α)
  | 0 => fail .outOfSteps
  | count + 1 => do
      if ← check kinds then return []
      let items ← body
      return items ++ (← repeatUntil kinds body count)

/-- The full name of the type that a token names; only words name types. -/
def typeNamed (value : Scalar) : Parse String := do
  match value with
  | .text word => return TypeName.expand word
  | other => fail (.notText other.sortName)

end Parse

end Scriptlet
