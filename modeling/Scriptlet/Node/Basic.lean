import Scriptlet.Node.Value

/-!
Nodes: a kind and attributes in the order in which they were first set.
-/

namespace Scriptlet

/-- The kinds of nodes.  `plain` and `expression` are the bare forms that no source text produces. -/
inductive Kind where
  | plain
  | program
  | block
  | declaration
  | reference
  | update
  | function
  | returning
  | breaking
  | parameter
  | call
  | argument
  | method
  | conditional
  | loop
  | concat
  | expression
  | binary
  | unary
  | comparison
  | logical
  | integer
  | double
  | boolean
  | string
  | null
  deriving DecidableEq, Repr, Inhabited

namespace Kind

def all : List Kind :=
  [plain, program, block, declaration, reference, update, function, returning, breaking, parameter,
    call, argument, method, conditional, loop, concat, expression, binary, unary, comparison, logical,
    integer, double, boolean, string, null]

def name : Kind → String
  | plain => "ASTNode"
  | program => "Program"
  | block => "Block"
  | declaration => "VariableDeclaration"
  | reference => "VariableReference"
  | update => "VariableUpdated"
  | function => "FunctionDeclaration"
  | returning => "Return"
  | breaking => "Break"
  | parameter => "Parameter"
  | call => "FunctionCall"
  | argument => "Argument"
  | method => "MethodCall"
  | conditional => "If"
  | loop => "While"
  | concat => "StringCat"
  | expression => "Expression"
  | binary => "BinaryOp"
  | unary => "UnaryOp"
  | comparison => "Comparison"
  | logical => "LogicalOp"
  | integer => "Integer"
  | double => "Double"
  | boolean => "Boolean"
  | string => "String"
  | null => "Null"

def ofName? (name : String) : Option Kind :=
  all.find? fun kind => kind.name == name

/-- The name of what a walk over a program does at a node of this kind; the bare forms have none. -/
def visit? : Kind → Option String
  | plain | expression => none
  | program => some "visit_program"
  | block => some "visit_block"
  | declaration | reference | update => some "visit_variable"
  | function => some "visit_function_declaration"
  | returning => some "visit_return"
  | breaking => some "visit_break"
  | parameter => some "visit_parameter"
  | call => some "visit_function_call"
  | argument => some "visit_argument"
  | method => some "visit_method_call"
  | conditional => some "visit_if"
  | loop => some "visit_while"
  | concat => some "visit_string_cat"
  | binary => some "visit_binary_op"
  | unary => some "visit_unary_op"
  | comparison => some "visit_comparison"
  | logical => some "visit_logical_op"
  | integer => some "visit_integer"
  | double => some "visit_double"
  | boolean => some "visit_boolean"
  | string => some "visit_string"
  | null => some "visit_null"

def isLiteral : Kind → Bool
  | integer | double | boolean | string | null => true
  | _ => false

def isOperation : Kind → Bool
  | expression | binary | unary | comparison | logical => true
  | _ => false

end Kind

/-- The attributes of nodes; `other` is for names that no node is created with. -/
inductive Field where
  | statements | symbols | name | value | declaredType | line | type | scope
  | returnType | parameters | block | arity | args | parent | transformed
  | cachedType | ownCachedType | receiver | receiverType | comparison | elifNodes | elseBlock
  | strings | evaluated | left | operator | right | isTypeName | loopCounter | arguments
  | other (name : String)
  deriving DecidableEq, Repr, Inhabited

namespace Field

def known : List Field :=
  [statements, symbols, name, value, declaredType, line, type, scope,
    returnType, parameters, block, arity, args, parent, transformed,
    cachedType, ownCachedType, receiver, receiverType, comparison, elifNodes, elseBlock,
    strings, evaluated, left, operator, right, isTypeName, loopCounter, arguments]

def label : Field → String
  | statements => "statements"
  | symbols => "symbols"
  | name => "name"
  | value => "value"
  | declaredType => "annotation"
  | line => "line"
  | type => "type"
  | scope => "scope"
  | returnType => "return_type"
  | parameters => "parameters"
  | block => "block"
  | arity => "arity"
  | args => "args"
  | parent => "parent"
  | transformed => "transformed"
  | cachedType => "cached_type"
  | ownCachedType => "_cached_type"
  | receiver => "receiver"
  | receiverType => "receiverTy"
  | comparison => "comparison"
  | elifNodes => "elifNodes"
  | elseBlock => "elseBlock"
  | strings => "strings"
  | evaluated => "evaluated"
  | left => "left"
  | operator => "operator"
  | right => "right"
  | isTypeName => "isTypeStr"
  | loopCounter => "forLoopCounter"
  | arguments => "arguments"
  | other word => word

def ofLabel (name : String) : Field :=
  (known.find? fun field => field.label == name).getD (.other name)

end Field

/-- The attributes that nodes of a kind are created with, as far as they say something of the program. -/
def Kind.fields : Kind → List Field
  | program | block => [.statements]
  | declaration => [.name, .value, .declaredType, .line]
  | reference => [.name, .line, .type, .scope, .value]
  | update => [.name, .value, .line]
  | function => [.name, .returnType, .parameters, .block, .arity, .line]
  | returning => [.value, .line]
  | breaking => [.line]
  | parameter => [.name, .type]
  | call => [.name, .args, .arity, .line, .type, .transformed]
  | argument => [.name, .value, .cachedType]
  | method => [.receiver, .name, .args, .receiverType, .line]
  | conditional => [.comparison, .block, .elifNodes, .elseBlock, .line]
  | loop => [.comparison, .block, .line]
  | concat => [.strings, .line, .evaluated]
  | binary => [.left, .operator, .right, .line, .cachedType, .transformed]
  | unary => [.operator, .left, .right, .line, .ownCachedType]
  | comparison | logical => [.left, .operator, .right, .line, .ownCachedType]
  | integer | double | boolean | null => [.value, .line, .type]
  | string => [.value, .line, .type, .isTypeName]
  | expression | plain => []

/-- The attributes that nodes of a kind may get later. -/
def Kind.lateFields (kind : Kind) : List Field :=
  (if kind = .method then [.returnType] else []) ++
  (if kind = .declaration then [.loopCounter] else []) ++
  (if kind.fields.contains .cachedType then [] else [.cachedType])

structure Node where
  kind : Kind
  fields : List (Field × Value)
  deriving Inhabited

namespace Node

def get? (node : Node) (field : Field) : Option Value :=
  node.fields.lookup field

def get (node : Node) (field : Field) : Value :=
  (node.get? field).getD .null

/-- Sets an attribute, at its old place if there is one and at the end if not. -/
def setField (field : Field) (value : Value) : List (Field × Value) → List (Field × Value)
  | [] => [(field, value)]
  | (key, old) :: rest =>
      if key = field then (key, value) :: rest else (key, old) :: setField field value rest

def set (node : Node) (field : Field) (value : Value) : Node :=
  { node with fields := setField field value node.fields }

end Node

end Scriptlet
