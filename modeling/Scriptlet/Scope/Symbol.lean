import Scriptlet.Ir.Type
import Scriptlet.Node.Value
import Scriptlet.Failure

/-!
Symbols: what is known of a declared name.
-/

namespace Scriptlet

/-- Where the value of a symbol is kept: a stack slot of the intermediate code, or a bare label. -/
inductive Reference where
  | label (text : String)
  | slot (name : String) (type : Ir.Ty)
  deriving Inhabited

/-- The data of a symbol depend on its kind and stand in the record of that kind: `value`, `data_type`,
`isStatic` and `annotated` of a variable, `parameters`, `arity` and `return_type` of a function,
`data_type` and `function_name` of a parameter. -/
structure Symbol where
  reference : Option Reference := none
  kind : Value := .null
  mangledName : Option String := none
  variableData : Value := .null
  functionData : Value := .null
  parameterData : Value := .null
  /-- The type given at the last update, if there was one. -/
  updatedType : Option Value := none
  deriving Inhabited

namespace Symbol

def variableKind : String := "variable"
def functionKind : String := "function"
def parameterKind : String := "parameter"

def isVariable (symbol : Symbol) : Bool :=
  symbol.kind.isText variableKind

def isFunction (symbol : Symbol) : Bool :=
  symbol.kind.isText functionKind

def isParameter (symbol : Symbol) : Bool :=
  symbol.kind.isText parameterKind

/-- An entry of a record of data; the record itself has to be there. -/
def entry (data : Value) (key : String) (absent : Value := .null) : Except Fault Value :=
  match data with
  | .record entries => .ok ((entries.lookup key).getD absent)
  | other => .error (.missingAttribute (match other with | .scalar s => s.sortName | _ => "list") "get")

def withEntry (data : Value) (key : String) (value : Value) : Except Fault Value :=
  match data with
  | .record entries => .ok (.record (Value.setEntry key value entries))
  | .scalar s => .error (.noItemAssignment s.sortName)
  | _ => .error (.noItemAssignment "list")

/-- The type of a variable or parameter, the return type of a function. -/
def type (symbol : Symbol) : Except Fault Value :=
  if symbol.isParameter then entry symbol.parameterData "data_type"
  else if symbol.isFunction then entry symbol.functionData "return_type"
  else if symbol.isVariable then entry symbol.variableData "data_type"
  else .ok .null

end Symbol

end Scriptlet
