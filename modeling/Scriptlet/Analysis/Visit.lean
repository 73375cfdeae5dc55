import Scriptlet.Analysis.Concat
import Scriptlet.Analysis.Operation

/-!
The analysis of a program: every node is visited once in the order of the text, names are declared
and looked up, types are checked, and expressions are put into the form that code is generated from.

A rule for a kind of node gets `visit`, which analyses the nodes below it.
-/

namespace Scriptlet.Check

open Draft (getField setField typeOf display displayField)

def declareLibrary : Check Unit := do
  for signature in Library.functions do
    let functionData := Value.record
      [("parameters", ← signature.newParameters), ("arity", .int signature.arity),
        ("return_type", .text signature.returnType)]
    changeTable fun table => table.addGlobalFunction signature.name functionData

def promoteDeclared (node : Value) (name : Value) : Check Unit := do
  let line ← lineOf node
  handling
    (do
      let value ← getField node .value
      setField node .value (← promoted value))
    fun _ => do
      refuse .compilation
        ("An error occurred while promoting the int '" ++ (← display name) ++ "' to a double ") line

/-- The type of a declared variable: the one it names, if the value can be of that type. -/
def declaredType (node name type : Value) : Check Value := do
  let declared ← getField node .declaredType
  if declared.isNull || isSame declared type then return type
  else if declared.isText TypeName.double && type.isText TypeName.integer then
    promoteDeclared node name
    return .text TypeName.double
  else
    refuse .type ("Variable '" ++ (← display name) ++ "' expects type '" ++ (← display declared) ++
      "' but got expression: '" ++ (← displayField node .value) ++ "' of type '" ++ (← display type) ++ "'")
      (← lineOf node)

def visitDeclaration (visit : Value → Check Unit) (node : Value) : Check Unit := do
  let name ← getField node .name
  if ((← table).inScope? (nameText name)).isSome then
    refuse .reference ("The name '" ++ (← display name) ++ "' on line " ++ (← displayField node .line) ++
      " is already defined.")
  visit (← getField node .value)
  let type ← declaredType node name (← typeOf node)
  let value ← getField node .value
  let isStatic ← isStatic value
  let isAnnotated := !(← getField node .declaredType).isNull
  let variableData := Value.record
    [("value", value), ("data_type", type), ("isStatic", isStatic), ("annotated", .bool isAnnotated)]
  changeTable fun table =>
    table.add (nameText name) { kind := .text Symbol.variableKind, variableData }

def recordUpdate (node name type : Value) : Check Unit := do
  let key := nameText name
  let apply (type value : Value) : Check Unit := do
    let (table, outcome) := (← table).update key type value
    setTable table
    orFail outcome
  let some symbol := (← table).lookup? key | fail ScopeTable.noSymbol
  if symbol.isVariable then
    match ← orFail (Symbol.entry symbol.variableData "annotated") with
    | .bool true =>
        let expected ← orFail (Symbol.entry symbol.variableData "data_type")
        unless isSame expected type do
          refuse .type ("(update) Variable '" ++ (← display name) ++ "' expects type '" ++
            (← display expected) ++ "' but got expression: '" ++ (← displayField node .value) ++
            "' of type '" ++ (← display type) ++ "'")
    | _ => pure ()
    let value ← getField node .value
    if (← isStatic value).isGiven then apply type value
    else
      let variableData ← orFail (Symbol.withEntry symbol.variableData "isStatic" (.bool false))
      setTable ((← table).setSymbol key { symbol with variableData })
      apply type .null
  else if symbol.isParameter then
    let expected ← orFail (Symbol.entry symbol.parameterData "data_type")
    unless isSame expected type do
      refuse .type ("Parameter '" ++ (← display name) ++ "' expects type '" ++ (← display expected) ++
        "' but got expression of type '" ++ (← display type) ++ "'")

def visitUpdate (visit : Value → Check Unit) (node : Value) : Check Unit := do
  let name ← getField node .name
  if ((← table).lookup? (nameText name)).isNone then
    refuse .reference ("Variable '" ++ (← display name) ++ "' does not exist in this scope") (← lineOf node)
  visit (← getField node .value)
  let type ← typeOf node
  if type.isText TypeName.invalid then
    refuse .type ("Could not statically infer the type of variable '" ++ (← display name) ++
      "'. If possible, try adding type hints - you are using glitchy, this is your fault not mine.")
      (← lineOf node)
  let line ← lineOf node
  handling (recordUpdate node name type) fun failure =>
    (Journal.announce failure true line : Draft.Action Unit)

/-- A reference takes the type of its symbol, and what is known of its value. -/
def visitReference (node : Value) : Check Unit := do
  let name ← getField node .name
  match (← table).lookup? (nameText name) with
  | none =>
      refuse .reference ("Variable '" ++ (← display name) ++ "' on line " ++ (← displayField node .line) ++
        " has not been defined")
  | some symbol =>
      if symbol.isVariable then
        setField node .type (← orFail (Symbol.entry symbol.variableData "data_type" Draft.invalidType))
        setField node .value (← orFail (Symbol.entry symbol.variableData "value"))
      else if symbol.isParameter then
        setField node .type (← orFail (Symbol.entry symbol.parameterData "data_type" Draft.invalidType))

def visitBlock (visit : Value → Check Unit) (node : Value) : Check Unit := do
  setTable (← table).createScope
  for statement in ← Draft.itemsOf (← getField node .statements) do
    unless statement.isNull do visit statement
  changeTable ScopeTable.exitScope

def visitConditional (visit : Value → Check Unit) (node : Value) : Check Unit := do
  visit (← getField node .comparison)
  checkCondition (← getField node .comparison)
  visit (← getField node .block)
  let branches ← getField node .elifNodes
  unless branches.isNull do
    for branch in ← Draft.itemsOf branches do
      let (condition, block) ← Draft.pairOf branch
      visit condition
      checkCondition condition
      visit block
  let otherwise ← getField node .elseBlock
  unless otherwise.isNull do visit otherwise

def visitLoop (visit : Value → Check Unit) (node : Value) : Check Unit := do
  visit (← getField node .comparison)
  checkCondition (← getField node .comparison)
  modify fun analysis => { analysis with inLoop := true }
  visit (← getField node .block)
  modify fun analysis => { analysis with inLoop := false }

def checkMethodArguments (call : Value) : List Value → List String → Check Unit
  | argument :: arguments, expected :: parameters => do
      let type ← typeOf argument
      unless type.isText expected do
        refuse .argument ("Argument '" ++ (← display argument) ++ "' of type '" ++ (← display type) ++
          "' does not match expected type '" ++ expected ++ "' for method '" ++ (← display call) ++
          "' on line " ++ (← displayField call .line))
      checkMethodArguments call arguments parameters
  | _, _ => return

def textOr (default : String) : Value → String
  | .text s => s
  | _ => default

/-- Checks a chain of method calls from its receiver on; the type of the result. -/
def checkMethodWithin (visit : Value → Check Unit) : Nat → Value → Check Value
  | 0, _ => fail .tooDeep
  | depth + 1, call => do
      let receiver ← getField call .receiver
      let receiverType ←
        if ← Draft.isKind .method receiver then checkMethodWithin visit depth receiver
        else
          visit receiver
          typeOf (← getField call .receiver)
      let name ← getField call .name
      match Library.method? (textOr "" receiverType) (nameText name) with
      | none =>
          refuse .type ("The method '" ++ (← display call) ++ "' on line " ++ (← displayField call .line) ++
            " is not available for type '" ++ (← display receiverType) ++ "'")
      | some signature =>
          let given ← Draft.lengthOf (← getField call .args)
          unless given = signature.arity do
            refuse .argument ("The method '" ++ (← display call) ++ "' on line " ++
              (← displayField call .line) ++ " expects " ++ toString signature.arity ++
              " argument(s) but got " ++ toString given)
          checkMethodArguments call (← Draft.itemsOf (← getField call .args)) signature.parameters
          setField call .receiverType receiverType
          return .text signature.returnType

def visitMethod (visit : Value → Check Unit) (node : Value) : Check Unit := do
  let type ← checkMethodWithin visit walkDepth node
  setField node .returnType type

/-- Whether a condition holds of all branches, which are looked at until it fails. -/
def allBranches (check : Value → Check Bool) : List Value → Check Bool
  | [] => return true
  | branch :: rest => do
      let (_, block) ← Draft.pairOf branch
      if ← check block then allBranches check rest else return false

mutual

/-- Visits the statements of a block and tells whether one of them returns.  A call of the function
itself counts as returning. -/
def statementsReturnWithin (visit : Value → Check Unit) : Nat → Value → Check Bool
  | 0, _ => fail .tooDeep
  | depth + 1, block => do
      let mut returns := false
      for statement in ← Draft.itemsOf (← getField block .statements) do
        visit statement
        let graph ← Draft.currentGraph
        match graph.kindOf? statement with
        | some .returning => returns := true
        | some .conditional =>
            let branchesReturn ← conditionalReturnsWithin visit depth statement
            returns := returns || branchesReturn
        | some .call =>
            if isSame (← getField statement .name) (← get).functionName then returns := true
        | _ => pure ()
      return returns

/-- Visits the branches of a conditional once more and tells whether they all return.  It is an error
if none of them does. -/
def conditionalReturnsWithin (visit : Value → Check Unit) : Nat → Value → Check Bool
  | 0, _ => fail .tooDeep
  | depth + 1, node => do
      let first ← statementsReturnWithin visit depth (← getField node .block)
      let branches ← Draft.itemsOf (← getField node .elifNodes)
      let middle ← allBranches (statementsReturnWithin visit depth) branches
      let otherwise ← getField node .elseBlock
      let last ← if otherwise.isNull then pure false else statementsReturnWithin visit depth otherwise
      if last then return true
      if first || middle then return false
      throw (.ofMessage .returning ("Not all paths in the if-elif-else block return in function '" ++
        (← display (← get).functionName) ++ "'."))

end

def statementsReturn (visit : Value → Check Unit) (block : Value) : Check Bool :=
  statementsReturnWithin visit walkDepth block

def setFunction (name type : Value) : Check Unit :=
  modify fun analysis => { analysis with functionName := name, functionType := type }

def visitFunction (visit : Value → Check Unit) (node : Value) : Check Unit := do
  let name ← getField node .name
  let key := nameText name
  if ((← table).lookup? key).isSome then
    fail (.missingAttribute "SemanticAnalyzer" "name")
  let parameters ← getField node .parameters
  let returnType ← getField node .returnType
  let functionData := Value.record
    [("parameters", parameters), ("arity", ← getField node .arity), ("return_type", returnType)]
  changeTable fun table => table.add key { kind := .text Symbol.functionKind, functionData }
  setTable (← table).createScope
  for parameter in ← Draft.itemsOf parameters do
    let parameterName ← nameOf parameter
    let parameterData := Value.record
      [("data_type", ← getField parameter .type), ("function_name", name)]
    changeTable fun table =>
      table.add parameterName { kind := .text Symbol.parameterKind, parameterData }
  setFunction name returnType
  let returns ← statementsReturn visit (← getField node .block)
  if !returnType.isText TypeName.void && !returns then
    refuse .returning ("Not all branches in the function '" ++ (← display name) ++ "' return correctly")
  changeTable ScopeTable.exitScope
  setFunction .null .null

def visitReturn (visit : Value → Check Unit) (node : Value) : Check Unit := do
  visit (← getField node .value)
  let type ← typeOf node
  let expected := (← get).functionType
  unless isSame type expected || (type.isText TypeName.null && expected.isText TypeName.void) do
    refuse .type ("Return Type error on line " ++ (← displayField node .line) ++
      ". Expected return of type '" ++ (← display expected) ++ "' for function '" ++
      (← display (← get).functionName) ++ "' got: '" ++ (← display type) ++ "' instead.")

def visitParameter (node : Value) : Check Unit := do
  let name ← getField node .name
  if ((← table).lookup? (nameText name)).isNone then
    refuse .semantic ("Parameter '" ++ (← display name) ++ "' can not be used in this scope")

/-- Puts the name of the type of the argument in the place of a call that asks for it. -/
def answerTypeOf (visit : Value → Check Unit) (node : Value) : Check Unit := do
  let args ← getField node .args
  unless isSame (← getField node .arity) (.int 1) do
    refuse .argument ("The function 'typeof' on line " ++ (← displayField node .line) ++
      " expects 1 argument but got " ++ toString (← Draft.lengthOf args))
  let some argument := (← Draft.itemsOf args).head? | fail (.outOfRange "list")
  let value ← getField argument .value
  visit value
  let type ← typeOf (← getField argument .value)
  if type.isText TypeName.invalid then
    let shown ← if ← Draft.isKind .reference value then displayField value .value else display value
    refuse .general ("An error occurred during the evaluation of the typeOf call on line " ++
      (← displayField node .line) ++ ": '" ++ shown ++ "'")
  Draft.replace node (← Draft.newString type (.bool true))

def promoteArgument (argument : Value) : Check Unit := do
  let value ← getField argument .value
  if ← Draft.isKind .integer value then
    setField argument .value (← promoted value)
    setField argument .cachedType .null
  else if ← Draft.isKind .reference value then
    setField argument .value (← promoted value)
    setField argument .cachedType (.text TypeName.double)

def checkArguments (visit : Value → Check Unit) (call : Value) : List Value → List Value → Check Unit
  | argument :: arguments, parameter :: parameters => do
      visit argument
      let expected ← getField parameter .type
      unless expected.isText TypeName.any do
        let type ← typeOf argument
        if expected.isText TypeName.double && type.isText TypeName.integer then promoteArgument argument
        let type ← typeOf argument
        unless isSame type expected do
          refuse .type ("Incorrect Function Call on line " ++ (← displayField call .line) ++
            ". Expected type '" ++ (← display expected) ++ "' for parameter '" ++
            (← displayField parameter .name) ++ "' got type '" ++ (← display type) ++ "'")
      checkArguments visit call arguments parameters
  | _, _ => return

def visitCall (visit : Value → Check Unit) (node : Value) : Check Unit := do
  let name ← getField node .name
  if name.isText "typeof" then
    setField node .type (.text TypeName.string)
    answerTypeOf visit node
  else
    let some symbol := (← table).lookup? (nameText name)
      | refuse .reference ("Incorrect Function Call on line " ++ (← displayField node .line) ++
          ". A function with name '" ++ (← display name) ++ "' does not exists.")
    let function := symbol.functionData
    let given ← getField node .arity
    let expected ← orFail (Symbol.entry function "arity")
    unless isSame given expected do
      if (function.entry? "arity").isNone then fail (.missingKey "arity")
      refuse .argument ("Function '" ++ (← display name) ++ "' expects " ++ (← display expected) ++
        " arguments but received " ++ (← display given) ++ " arguments") (← lineOf node)
    let arguments ← Draft.itemsOf (← getField node .args)
    let parameters ← Draft.itemsOf (← orFail (Symbol.entry function "parameters"))
    checkArguments visit node arguments parameters
    setField node .type (← orFail (Symbol.entry function "return_type"))

def visitOperands (visit : Value → Check Unit) (node : Value) : Check Unit := do
  visit (← getField node .left)
  visit (← getField node .right)
  checkOperation node

def visitComparison (visit : Value → Check Unit) (node : Value) : Check Unit := do
  promote node
  visitOperands visit node

def visitBinary (visit : Value → Check Unit) (node : Value) : Check Unit := do
  promote node
  unless ← concatCheck visit node do
    visitOperands visit node

def visitUnary (visit : Value → Check Unit) (node : Value) : Check Unit := do
  visit (← getField node .left)
  checkUnary (← getField node .left) (← getField node .operator)

/-- The sort of a value, in the form that complaints about literals use. -/
def sortText (graph : Graph) (value : Value) : String :=
  match value with
  | .node _ => "<class 'Compiler.utils.ast." ++ graph.sortName value ++ "'>"
  | other => "<class '" ++ graph.sortName other ++ "'>"

def visitLiteral (node : Value) (word : String) (isValid : Value → Bool) : Check Unit := do
  let value ← getField node .value
  unless isValid value do
    refuse .compilation ("Invalid data type stored in an " ++ word ++ " node: '" ++
      sortText (← Draft.currentGraph) value ++ "'.")

/-- Visits the statements of a program, then joins the concatenations found in them. -/
def visitStatements (visit : Value → Check Unit) (node : Value) : Check Unit := do
  for statement in ← Draft.itemsOf (← getField node .statements) do
    unless statement.isNull do visit statement
  for concat in (← get).concats do
    visit concat

def visitProgram (visit : Value → Check Unit) (node : Value) : Check Unit := do
  declareLibrary
  match ← attempt (visitStatements visit node) with
  | .ok () | .error .exit => return
  | .error failure =>
      (Journal.announce
        (.ofMessage .semantic (red ++ "Semantic analysis error:" ++ reset ++ " " ++ failure.wording)) false :
        Draft.Action Unit)

def visitNode (visit : Value → Check Unit) (node : Value) : Kind → Check Unit
  | .plain | .expression => fail .abstract
  | .program => visitProgram visit node
  | .block => visitBlock visit node
  | .declaration => visitDeclaration visit node
  | .update => visitUpdate visit node
  | .reference => visitReference node
  | .function => visitFunction visit node
  | .returning => visitReturn visit node
  | .breaking | .null => return
  | .parameter => visitParameter node
  | .call => visitCall visit node
  | .argument => do visit (← getField node .value)
  | .method => visitMethod visit node
  | .conditional => visitConditional visit node
  | .loop => visitLoop visit node
  | .concat => joinConcat node
  | .binary => visitBinary visit node
  | .unary => visitUnary visit node
  | .comparison | .logical => visitComparison visit node
  | .integer => visitLiteral node "integer" fun
      | .int _ | .bool _ => true
      | _ => false
  | .double => visitLiteral node "double" fun
      | .double _ => true
      | _ => false
  | .boolean => visitLiteral node "boolean" (Value.isOneOf ["true", "false"])
  | .string => visitLiteral node "string" fun
      | .text _ => true
      | _ => false

/-- How deeply visits may nest. -/
def visitDepth : Nat := 600

def visitWithin : Nat → Value → Check Unit
  | 0, _ => fail .tooDeep
  | depth + 1, value => do
      let graph ← Draft.currentGraph
      match graph.kindOf? value with
      | none => throw (graph.missing value "accept")
      | some kind => visitNode (visitWithin depth) value kind

def visit (value : Value) : Check Unit :=
  visitWithin visitDepth value

/-- The table of scopes of a program; none if there is no program, or if there were errors before. -/
def analyze (tree : Value) : Check (Option ScopeTable) := do
  if (← get).journal.flagged then
    Draft.printLine "Parsing errors occurred. Cannot proceed with semantic analysis."
    return none
  if tree.isNull then return none
  handling (visit tree) fun failure =>
    (Journal.announce (.ofMessage .semantic failure.wording) : Draft.Action Unit)
  return some (← table)

end Check

def analyzeTree (tree : Value) : Draft.Action (Option ScopeTable) := fun draft =>
  match Check.analyze tree { toDraft := draft } with
  | .ok table analysis => .ok table analysis.toDraft
  | .error failure analysis => .error failure analysis.toDraft

end Scriptlet
