import Scriptlet.Grammar.Advice
import Scriptlet.Grammar.Expression

/-!
Statements, blocks and whole programs.

A statement that cannot be read is reported and left out, and reading goes on at the next landmark.
-/

namespace Scriptlet.Parse

def increment (name : Value) : Parse Value := do
  expect [.increment]
  stepNode name "+"

def decrement (name : Value) : Parse Value := do
  expect [.decrement]
  stepNode name "-"

/-- The type that a declaration names, null if it names none. -/
def declaredType : Parse Value := do
  if ← check [.colon] then
    next
    let named ← currentValue
    next
    let type ← typeNamed named
    if type = TypeName.invalid then
      complain ("Invalid type annotation received: '" ++ named.display ++ "' ") "Type Annotation"
      return .null
    return .text type
  else return .null

/-- The names and the type of a declaration of several variables. -/
structure NameList where
  names : List Value
  type : Value

/-- The further names of a declaration of several variables; `none` if the line ends before its
expression. -/
def declaredNames : Nat → NameList → Parse (Option NameList)
  | 0, _ => fail .outOfSteps
  | count + 1, list => do
      if ← check [.identifier] then
        let name ← currentValue
        expect [.identifier]
        let mut type := list.type
        if ← check [.colon] then
          let given ← declaredType
          if !given.isNull && type.isNull then type := given
          unless sameType given type do
            complain ("Expected type '" ++ (← Draft.display type) ++ "', recieved: '" ++
              (← Draft.display given) ++ "' for variable '" ++ name.display ++
              "'. All type tags must be the same in multiple variable declaration (tip: just set the first one)")
        let extended : NameList := ⟨list.names ++ [.scalar name], type⟩
        if ← check [.assign] then
          next
          return some extended
        if ← check [.newline] then
          let line := (← get).line
          (Journal.report
            { message := "Expected an expression for the multiple variable declaration on line " ++
                toString line ++ ". Please ensure it is in format:\n\t 'set x,y,z = 10' " } :
            Draft.Action Unit)
          next
          return none
        next
        declaredNames count extended
      else return some list
where
  sameType : Value → Value → Bool
    | .scalar a, .scalar b => a.same b
    | _, _ => false

/-- One declaration for each name; all of them share the expression. -/
def declareAll (type expression : Value) (names : List Value) : Parse Value := do
  let nodes ← names.mapM fun name => do
    let node ← Draft.newDeclaration name .null (← line) type
    Draft.setField expression .parent node
    Draft.setField node .value expression
    return node
  return .list nodes

/-- What follows the first name of a declaration. -/
def declaration (count : Nat) (name type : Value) : Parse Value := do
  if (← check [.identifier]) && (← checkAhead [.comma, .colon]) then
    match ← declaredNames count ⟨[name], type⟩ with
    | none => return .null
    | some list => do declareAll list.type (← expression count) list.names
  else
    let node ← Draft.newDeclaration name .null
    setFocus node
    let value ← expression count
    Draft.setField node .value value
    Draft.setField node .declaredType type
    Draft.setField node .line (← line)
    setFocus .null
    return node

/-- The further names of an assignment to several variables. -/
def assignedNames : Nat → List Value → Parse (List Value)
  | 0, _ => fail .outOfSteps
  | count + 1, names => do
      if ← check [.identifier] then
        let name ← currentValue
        next
        let extended := names ++ [.scalar name]
        if ← check [.assign] then
          next
          return extended
        next
        assignedNames count extended
      else return names

def assignAll (value : Value) (names : List Value) : Parse Value := do
  let nodes ← names.mapM fun name => do
    let node ← Draft.newUpdate name value (← line)
    setFocus node
    return node
  return .list nodes

/-- Gives the node in focus its value. -/
def completeFocus (value : Value) : Parse Value := do
  let node := (← get).focus
  Draft.setField node .value value
  return node

/-- What follows the first name of an assignment. -/
def assignment (count : Nat) (name : Value) : Parse Value := do
  setFocus (← Draft.newUpdate name .null (← line))
  if ← check [.plusAssign, .minusAssign] then
    let operator := if ← check [.plusAssign] then "+" else "-"
    next
    let value ← expression count
    let reference ← Draft.newReference name
    completeFocus (← Draft.newBinary reference (.text operator) value)
  else
    let found ← currentValue
    expect [.assign, .comma]
      (some ("Expected '=' for single assignment or ',' for multiple assignment. instead recieved: " ++
        found.display))
    if (← check [.identifier]) && (← checkAhead [.comma, .assign]) then
      let names ← assignedNames count [name]
      let value ← expression count
      if value.isNull then
        complain ("Expected an expression in variable assignment for variable: '" ++
          (← Draft.display (names.getLastD .null)) ++ "'. Got: " ++ (← currentValue).literal ++ " instead")
      assignAll value names
    else completeFocus (← expression count)

/-- The branches after the first one, each a condition and a block. -/
def elifBranches (expression block : Parse Value) : Nat → Parse (List Value)
  | 0 => fail .outOfSteps
  | count + 1 => do
      if ← check [.elifKey] then
        expect [.elifKey]
        expect [.leftParen] (some "elif conditions must be enclosed within parenthesis: '(' 'condition' ')'")
        let condition ← expression
        expect [.rightParen] (some "No closing parenthesis ')' for elif condition found.")
        let body ← block
        skipNewlines
        return .tuple [condition, body] :: (← elifBranches expression block count)
      else return []

def conditional (count : Nat) (block : Parse Value) : Parse Value := do
  expect [.ifKey]
  let start ← line
  expect [.leftParen] (some "if conditions must be enclosed within parenthesis: '(' 'condition' ')'")
  let condition ← expression count
  expect [.rightParen] (some "No closing parenthesis ')' for if statement found.")
  let body ← block
  skipNewlines
  let branches ← elifBranches (expression count) block count
  skipNewlines
  let otherwise ←
    if ← check [.elseKey] then
      expect [.elseKey]
      block
    else pure .null
  Draft.newConditional condition body start (.list branches) otherwise

/-- The parameters of a function, and whether they could be read to their end. -/
def parameters : Nat → Parse (List Value × Bool)
  | 0 => fail .outOfSteps
  | count + 1 => do
      if ← check [.rightParen] then return ([], true)
      let name ← currentValue
      next
      unless ← check [.colon] do
        complain "Missing token ':' Parameters must be in format 'name' ':' 'type'"
        return ([], false)
      next
      let type ← typeNamed (← currentValue)
      next
      let parameter ← Draft.newParameter (.scalar name) (.text type)
      if ← check [.comma] then expect [.comma]
      let (rest, complete) ← parameters count
      return (parameter :: rest, complete)

def returnType (value : Scalar) : Parse String :=
  if value.isText TypeName.void then return TypeName.void else typeNamed value

def functionDeclaration (count : Nat) (block : Parse Value) : Parse Value := do
  expect [.functionKey]
  let typeWord ← currentValue
  expect [.identifier]
  let type ← returnType typeWord
  let name ← currentValue
  expect [.identifier]
  expect [.leftParen] (some "Function declarations must have parenthesis '(' after the function name.")
  let (parameters, complete) ← parameters count
  if complete then
    expect [.rightParen] (some "No enclosing parenthesis ')' found for function declaration")
  else recover
  modify fun cursor => { cursor with inFunction := true }
  let body ← block
  modify fun cursor => { cursor with inFunction := false }
  Draft.newFunction (.scalar name) (.text type) (.list parameters) body (← line)

def returnStatement (count : Nat) : Parse Value := do
  unless (← get).inFunction do
    complain "Return statements are only allowed inside a functions body"
    recover
  next
  if ← check [.newline] then
    Draft.newReturn (← Draft.newNull) (← line)
  else
    let value ← expression count
    Draft.newReturn value (← line)

def breakStatement : Parse Value := do
  if (← get).inLoop then
    next
    Draft.newBreak (← line)
  else
    complain "Break statements are only allowed inside a functions body"
    return .null

def loopBody (block : Parse Value) : Parse Value := do
  modify fun cursor => { cursor with inLoop := true }
  let body ← block
  modify fun cursor => { cursor with inLoop := false }
  return body

def whileLoop (count : Nat) (block : Parse Value) : Parse Value := do
  expect [.whileKey]
  expect [.leftParen] (some "While conditions must be enclosed within parenthesis: '(' 'condition' ')'")
  let condition ← expression count
  expect [.rightParen] (some "No closing parenthesis ')' for while condition found.")
  let body ← loopBody block
  Draft.newLoop condition body (← line)

/-- The update of the counter at the end of the head of a counting loop. -/
def counterUpdate (count : Nat) (counter : Scalar) : Parse Value := do
  if ← check [.identifier] then
    next
    if ← check [.increment] then increment (.scalar counter)
    else if ← check [.decrement] then decrement (.scalar counter)
    else assignment count (.scalar counter)
  else
    complain ("Expected increment/decrement to start with variable '" ++ counter.display ++ "' got: '" ++
      (← currentValue).display ++ "' instead")
    return .null

/-- A counting loop is a block that declares the counter and loops while the condition holds; the
update of the counter stands at the end of the loop. -/
def forLoop (count : Nat) (block : Value → Parse Value) : Parse Value := do
  expect [.forKey]
  expect [.leftParen] (some "Missing '(' after 'for' ")
  if ← check [.setKey] then next
  let counter ← currentValue
  expect [.identifier] (some ("Expected counter variable, got: " ++ counter.display))
  expect [.assign] (some "Missing '=' token in for loop's counter initialization")
  let start ← expression count
  let found ← currentValue
  expect [.semicolon]
    (some ("For loops Counter initialization should be followed by a semicolon, got: " ++ found.display))
  let condition ← expression count
  expect [.semicolon]
    (some "For loop's Comparison should be followed by a semicolon, got: \x7bself.currentToken.value\x7d")
  let update ← counterUpdate count counter
  unless ← Draft.isKind .update update do
    complain ("Expected increment/decrement expression, got '" ++ (← Draft.literal update) ++ " '")
    recover
  expect [.rightParen] (some "Missing closing parenthesis ')' in For loop")
  let body ← loopBody (block update)
  let declaration ← Draft.newDeclaration (.scalar counter) start (← line)
  Draft.setField declaration .loopCounter (.bool true)
  let loop ← Draft.newLoop condition body (← line)
  Draft.newBlock (.list [declaration, loop])

def setStatement (count : Nat) : Parse Value := do
  expect [.setKey]
  let name := Value.scalar (← currentValue)
  expect [.identifier]
  let type ← declaredType
  if ← check [.assign, .comma] then next
  else
    complain ("Missing '=' or ',' in variable declaration. use '=' for single declaration or ',' for " ++
      "multiple declaration.")
    recover
  declaration count name type

/-- A statement that starts with a name. -/
def namedStatement (count : Nat) : Parse Value := do
  let name ← currentValue
  expect [.identifier]
  if ← check [.increment] then increment (.scalar name)
  else if ← check [.decrement] then decrement (.scalar name)
  else if ← check [.dot] then methodChain (expression count) count (.scalar name)
  else if ← check [.leftParen] then functionCall (expression count) count (.scalar name)
  else if ← check [.assign, .comma, .plusAssign, .minusAssign] then
    let node ← assignment count (.scalar name)
    setFocus .null
    return node
  else
    unless ← adviseOnName do
      complain ("Invalid token after the identifier '" ++ name.display ++
        "'. Allowed operations with Identifiers: [Assignment, Increment, Decrement, MethodCalls, FunctionCalls] ")
    recover
    return .null

def strayToken : Parse Value := do
  if let some token := (← get).current then
    unless ← adviseOnToken do
      complain ("Invalid statement at: '" ++ token.value.display ++ "' (" ++ token.kind.name ++ ")")
  recover
  return .null

/-- A statement, given how to read a block and what to put at its end. -/
def statementBody (count : Nat) (block : Value → Parse Value) : Parse Value := do
  match (← get).currentKind? with
  | some .ifKey => conditional count (block .null)
  | some .functionKey => functionDeclaration count (block .null)
  | some .returnKey => returnStatement count
  | some .breakKey => breakStatement
  | some .whileKey => whileLoop count (block .null)
  | some .forKey => forLoop count block
  | some .setKey => setStatement count
  | some .identifier => namedStatement count
  | some .newline =>
      skipNewlines
      return .null
  | some .leftBrace => block .null
  | _ => strayToken

/-- Reports what goes wrong in a statement and goes on behind it. -/
def guarded (body : Parse Value) : Parse Value := do
  let node ← match ← attempt body with
    | .ok node => pure node
    | .error .exit => throw .exit
    | .error failure =>
        (Journal.report { message := failure.wording } : Draft.Action Unit)
        recover
        pure .null
  skipNewlines
  return node

/-- The statements that a result stands for: none, one, or several. -/
def statementList : Value → List Value
  | .null => []
  | .list nodes => nodes
  | node => [node]

/-- The block around given statements; `appended` is put at its end unless it is null. -/
def braced (statements : Parse (List Value)) (appended : Value) : Parse Value := do
  expect [.leftBrace]
  skipNewlines
  let nodes ← statements
  let found ← if ← check [.eof] then pure (.text "End of File") else currentValue
  expect [.rightBrace] (some ("Blocks must be closed by a '\x7d' right brace,got: '" ++ found.display ++ "'"))
  Draft.newBlock (.list (if appended.isNull then nodes else nodes ++ [appended]))

mutual

def statement : Nat → Parse Value
  | 0 => fail .outOfSteps
  | count + 1 => guarded (statementBody count (block count))

def block : Nat → Value → Parse Value
  | 0, _ => fail .outOfSteps
  | count + 1, appended =>
      braced (repeatUntil [.rightBrace, .eof] (statementList <$> statement count) count) appended

end

/-- Statements up to the end of the text, given those read before; null if reading was given up. -/
def programFrom (statement : Parse Value) : Nat → List Value → Parse Value
  | 0, _ => fail .outOfSteps
  | count + 1, nodes => do
      if ← check [.eof] then Draft.newProgram (.list nodes)
      else match ← attempt statement with
        | .ok node => programFrom statement count (nodes ++ statementList node)
        | .error .exit => return .null
        | .error failure =>
            (Journal.announce
              (.ofMessage .parsing ("An unknown error occurred during parsing: " ++ failure.wording)) false :
              Draft.Action Unit)
            Draft.newProgram (.list nodes)

def program : Parse Value := do
  let count := (← get).budget
  programFrom (statement count) count []

end Parse

/-- A cursor at the first token of a text. -/
def Cursor.start (source : String) (draft : Draft := {}) : Except Failure Unit × Cursor :=
  let cursor : Cursor := { toDraft := draft, scanner := .ofSource source }
  match (do Parse.next; Parse.next : Parse Unit) cursor with
  | .ok _ cursor => (.ok (), cursor)
  | .error failure cursor => (.error failure, cursor)

/-- The program that a text stands for, or null if reading it was given up. -/
def parseSource (source : String) : Draft.Action Value := fun draft =>
  match Cursor.start source draft with
  | (.error failure, cursor) => .error failure cursor.toDraft
  | (.ok (), cursor) =>
      match Parse.program cursor with
      | .ok tree cursor => .ok tree cursor.toDraft
      | .error failure cursor => .error failure cursor.toDraft

end Scriptlet
