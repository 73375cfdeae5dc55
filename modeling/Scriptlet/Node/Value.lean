import Scriptlet.Scalar

/-!
Attribute values.  An attribute of a node holds a scalar, another node, or a collection of values.
-/

namespace Scriptlet

abbrev NodeId := Nat

inductive Value where
  | scalar (value : Scalar)
  | node (id : NodeId)
  | list (items : List Value)
  | tuple (items : List Value)
  | record (entries : List (String × Value))
  deriving Inhabited

namespace Value

@[match_pattern] abbrev null : Value := .scalar .null
@[match_pattern] abbrev bool (value : Bool) : Value := .scalar (.bool value)
@[match_pattern] abbrev int (value : Int) : Value := .scalar (.int value)
@[match_pattern] abbrev double (value : Float) : Value := .scalar (.double value)
@[match_pattern] abbrev text (value : String) : Value := .scalar (.text value)

def ofOption : Option NodeId → Value
  | some id => .node id
  | none => .null

def isNull : Value → Bool
  | null => true
  | _ => false

def isText (word : String) : Value → Bool
  | text value => value == word
  | _ => false

def isOneOf (words : List String) : Value → Bool
  | text value => words.contains value
  | _ => false

/-- Whether a value counts as given: not null, false, zero or empty. -/
def isGiven : Value → Bool
  | scalar value => value.isGiven
  | node _ => true
  | list items => !items.isEmpty
  | tuple items => !items.isEmpty
  | record entries => !entries.isEmpty

def nodeId? : Value → Option NodeId
  | node id => some id
  | _ => none

def entry? (key : String) : Value → Option Value
  | record entries => entries.lookup key
  | _ => none

/-- Sets an entry of a record, at its old place if there is one and at the end if not. -/
def setEntry (key : String) (value : Value) : List (String × Value) → List (String × Value)
  | [] => [(key, value)]
  | (name, old) :: rest =>
      if name = key then (name, value) :: rest else (name, old) :: setEntry key value rest

end Value

end Scriptlet
