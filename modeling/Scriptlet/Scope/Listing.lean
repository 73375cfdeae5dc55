import Scriptlet.Ir.Name
import Scriptlet.Node.Wording
import Scriptlet.Scope.Table
import Scriptlet.Text.Column

/-!
The listing of a table of scopes.
-/

namespace Scriptlet

/-- The written form of a reference. -/
def Reference.display : Reference → String
  | .label text => text
  | .slot name type => Ir.localName name ++ " = alloca " ++ type.render

namespace ScopeTable

def absent : String := "n/a"

def heading (index : Nat) (scope : Scope) : String :=
  if index = 0 then "Global Scope"
  else "Scope " ++ toString scope.id ++ " - Parent ID: " ++ ((scope.parent.map toString).getD "None")

def row (cells : List (Nat × String)) : String :=
  String.intercalate " " (cells.map fun (width, text) => Text.padRight width text)

def columns : String :=
  row [(20, "Symbol Name"), (15, "Symbol Type"), (10, "Reference"), (15, "Data Type"),
    (20, "Parameters"), (15, "Return Type")]

def ruler : String :=
  String.ofList (List.replicate 95 '=')

/-- The written form of a value, with a mark for one that is not given. -/
def shown (value : Value) : Draft.Action String :=
  if value.isGiven then Draft.display value else return absent

def parameterNames (parameters : Value) : Draft.Action String := do
  if parameters.isGiven then
    match parameters with
    | .list items =>
        return String.intercalate ", " (← items.mapM fun item => Draft.displayField item .name)
    | other => Draft.display other
  else return absent

def printSymbol (name : String) (symbol : Symbol) : Draft.Action Unit := do
  let kind ← shown symbol.kind
  let reference := match symbol.reference with
    | some reference => if reference.display.isEmpty then absent else reference.display
    | none => absent
  let entry (data : Value) (key : String) : Draft.Action Value :=
    match Symbol.entry data key (.text absent) with
    | .ok value => return value
    | .error fault => fail fault
  let type ←
    if symbol.isVariable then shown (← entry symbol.variableData "data_type")
    else if symbol.isParameter then shown (← entry symbol.parameterData "data_type")
    else pure absent
  let cells := [(20, if name.isEmpty then absent else name), (15, kind), (10, reference), (15, type)]
  if symbol.isFunction then
    let parameters ← parameterNames (← entry symbol.functionData "parameters")
    let returnType ← shown (← entry symbol.functionData "return_type")
    Draft.printLine (row (cells ++ [(20, parameters), (15, returnType)]))
  else Draft.printLine (row cells)

def printScope (index : Nat) (scope : Scope) : Draft.Action Unit := do
  unless scope.symbols.isEmpty do
    Draft.printLine (heading index scope)
    unless scope.children.isEmpty do
      let children := String.intercalate ", " (scope.children.map toString)
      Draft.printLine ("Child Scope idx: " ++ children ++ "\n")
    Draft.printLine columns
    Draft.printLine ruler
    for (name, symbol) in scope.symbols do
      printSymbol name symbol
    Draft.printLine ruler
    Draft.printLine "\n"

def print (table : ScopeTable) : Draft.Action Unit := do
  for (scope, index) in table.scopes.toList.zipIdx do
    printScope index scope

end ScopeTable

end Scriptlet
