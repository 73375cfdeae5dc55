import Scriptlet.Scalar

/-!
Why an operation stops.

A *complaint* is an error of the program under compilation.  A *fault* is a request that the data at
hand cannot answer, such as reading an attribute that a node does not have.  Both carry their cause;
the wording is in `Complaint.wording` and `Fault.wording`.
-/

namespace Scriptlet

inductive ComplaintKind where
  | general
  | grammar
  | semantic
  | parsing
  | type
  | returning
  | argument
  | reference
  | compilation
  deriving DecidableEq, Repr, Inhabited

def ComplaintKind.name : ComplaintKind → String
  | general => "Error"
  | grammar => "SyntaxError"
  | semantic => "SemanticError"
  | parsing => "ParsingError"
  | type => "TypeError"
  | returning => "ReturnError"
  | argument => "ArgumentError"
  | reference => "ReferenceError"
  | compilation => "CompilationError"

def ComplaintKind.all : List ComplaintKind :=
  [.general, .grammar, .semantic, .parsing, .type, .returning, .argument, .reference, .compilation]

def ComplaintKind.ofName? (name : String) : Option ComplaintKind :=
  all.find? fun kind => kind.name == name

/-- Whether the wording of a complaint starts with the name of its class. -/
def ComplaintKind.isNamed : ComplaintKind → Bool
  | general | semantic | parsing => false
  | _ => true

structure Complaint where
  kind : ComplaintKind
  message : Scalar
  line : Scalar := .null
  deriving Inhabited

def Complaint.wording (complaint : Complaint) : String :=
  let message := complaint.message.display
  let located :=
    if complaint.kind = .grammar then message ++ " at line " ++ complaint.line.display else message
  if complaint.kind.isNamed then complaint.kind.name ++ ": " ++ located else located

inductive Fault where
  | missingAttribute (owner field : String)
  | unexpectedOption (name : String)
  | unassigned (name : String)
  | notText (sort : String)
  | missingLine
  | notNumeric (sort : String)
  | unreadableNumber (text : String)
  | tooLargeForDouble
  | textPlus (sort : String)
  | textJoin (position : Nat) (sort : String)
  | noAttributes
  | noItemAssignment (sort : String)
  | notIterable (sort : String)
  | noLength (sort : String)
  | notSubscriptable (sort : String)
  | missingKey (key : String)
  | outOfRange (sort : String)
  | wrongArity (expected : Nat) (given : Nat)
  | notUnpackable (sort : String)
  | failedAssertion
  | abstract
  | missingMethod (name : String)
  | tooDeep
  | atGlobalScope
  | noUnvisitedScope
  | alreadyDeclared (name : String)
  | alreadyGlobal (name : String)
  | unknownFunction (name : String)
  | undeclared (name : String)
  | notUpdatable (kind name : String)
  | unknownSymbolKind (kind : String)
  | noVariable (name : String)
  | noReference (name : String)
  | unknownType (name : String)
  | unknownOperator (name : String)
  | unsupportedPrint (type : String)
  | unsupportedValue (type : String)
  | duplicateName (name : String)
  | operandMismatch (left right : String)
  | argumentMismatch (position : Nat) (expected given : String)
  | storeMismatch (value target : String)
  | notAddress (action type shown : String)
  | notIndex (type : String)
  | outOfSteps
  deriving DecidableEq, Repr, Inhabited

def Fault.wording : Fault → String
  | missingAttribute owner field => s!"'{owner}' object has no attribute '{field}'"
  | unexpectedOption name => s!"report() got an unexpected keyword argument '{name}'"
  | unassigned name => s!"cannot access local variable '{name}' where it is not associated with a value"
  | notText sort => s!"expected string or bytes-like object, got '{sort}'"
  | missingLine => "SyntaxError.__init__() missing 1 required positional argument: 'line'"
  | notNumeric sort => s!"float() argument must be a string or a real number, not '{sort}'"
  | unreadableNumber text => "could not convert string to float: " ++ Text.quote text
  | tooLargeForDouble => "int too large to convert to float"
  | textPlus sort => s!"can only concatenate str (not \"{sort}\") to str"
  | textJoin position sort => s!"sequence item {position}: expected str instance, {sort} found"
  | noAttributes => "vars() argument must have __dict__ attribute"
  | noItemAssignment sort => s!"'{sort}' object does not support item assignment"
  | notIterable sort => s!"'{sort}' object is not iterable"
  | noLength sort => s!"object of type '{sort}' has no len()"
  | notSubscriptable sort => s!"'{sort}' object is not subscriptable"
  | missingKey key => Text.quote key
  | outOfRange sort => s!"{sort} index out of range"
  | wrongArity expected given =>
      if expected < given then s!"too many values to unpack (expected {expected})"
      else s!"not enough values to unpack (expected {expected}, got {given})"
  | notUnpackable sort => s!"cannot unpack non-iterable {sort} object"
  | failedAssertion => ""
  | abstract => "Subclasses should implement this!"
  | missingMethod name => s!"Method '{name}' is not implemented in the generator."
  | tooDeep => "maximum recursion depth exceeded"
  | atGlobalScope => "Cannot exit global scope."
  | noUnvisitedScope => "No further unvisited child scope to enter."
  | alreadyDeclared name => s!"Symbol '{name}' already declared in this scope"
  | alreadyGlobal name => s!"Symbol '{name}' already declared in the global scope"
  | unknownFunction name => s!"Function '{name}' does not exist."
  | undeclared name => s!"Symbol '{name}' not found in any scope"
  | notUpdatable kind name => s!"The '{kind}' symbol '{name}' cannot be updated"
  | unknownSymbolKind kind => s!"Unknown symbol type: {kind}"
  | noVariable name => s!"Variable '{name}' not found."
  | noReference name => s!"Reference for variable '{name}' not found."
  | unknownType name => s!"Unknown type: {name}"
  | unknownOperator name => s!"Unknown operator: {name}"
  | unsupportedPrint type => s!"Unsupported print type: {type}"
  | unsupportedValue type => s!"Unsupported expression type: {type}"
  | duplicateName name => name
  | operandMismatch left right => s!"Operands must be the same type, got ({left}, {right})"
  | argumentMismatch position expected given =>
      s!"Type of #{position} arg mismatch: {expected} != {given}"
  | storeMismatch value target => s!"cannot store {value} to {target}: mismatching types"
  | notAddress action type shown => s!"cannot {action} value of type {type} ({shown}): not a pointer"
  | notIndex type => type
  | outOfSteps => "step budget exhausted"

inductive Failure where
  /-- The stage is given up; what went wrong has been announced. -/
  | exit
  /-- The journal is full. -/
  | runaway
  | complaint (complaint : Complaint)
  | fault (fault : Fault)
  deriving Inhabited

def Failure.wording : Failure → String
  | exit => "Exit Exception"
  | runaway => "more than 40 messages"
  | complaint c => c.wording
  | fault f => f.wording

/-- Whether a handler for all errors sees this failure. -/
def Failure.isCaught : Failure → Bool
  | runaway | fault .outOfSteps => false
  | _ => true

def Failure.ofMessage (kind : ComplaintKind) (message : String) : Failure :=
  .complaint { kind, message := .text message }

/-- The failure with a given name, made from a message and a line; a complaint about the grammar needs
both. -/
def Failure.make (name : String) (parts : List Scalar) : Except Fault Failure :=
  if name = "ExitSignal" then .ok .exit
  else match ComplaintKind.ofName? name, parts with
    | some .grammar, [_] => .error .missingLine
    | some .grammar, message :: line :: _ => .ok (.complaint { kind := .grammar, message, line })
    | some kind, message :: _ => .ok (.complaint { kind, message })
    | _, _ => .error .missingLine

/-- The message that a failure was made from. -/
def Failure.message : Failure → Scalar
  | complaint c => c.message
  | _ => .null

/-- Runs `handler` on the failures that handlers see. -/
def handling {σ α : Type} (action : EStateM Failure σ α) (handler : Failure → EStateM Failure σ α) :
    EStateM Failure σ α :=
  fun state => match action state with
    | .ok value next => .ok value next
    | .error failure next => if failure.isCaught then handler failure next else .error failure next

def attempt {σ α : Type} (action : EStateM Failure σ α) : EStateM Failure σ (Except Failure α) :=
  handling (Except.ok <$> action) fun failure => pure (.error failure)

def fail {σ α : Type} (fault : Fault) : EStateM Failure σ α :=
  throw (.fault fault)

def orFail {σ α : Type} : Except Fault α → EStateM Failure σ α
  | .ok value => return value
  | .error fault => fail fault

end Scriptlet
