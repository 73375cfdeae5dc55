import Scriptlet.Node.Build

/-!
The functions and methods that every program can use.
-/

namespace Scriptlet

/-- What a call has to know of a function: its parameters are given by their types. -/
structure Signature where
  name : String
  parameters : List String
  returnType : String
  deriving DecidableEq, Repr, Inhabited

namespace Signature

def arity (signature : Signature) : Nat :=
  signature.parameters.length

/-- New nodes for the parameters, which have no names. -/
def newParameters (signature : Signature) : Draft.Action Value := do
  return .list (← signature.parameters.mapM fun type => Draft.newParameter (.text "") (.text type))

def newRecord (signature : Signature) : Draft.Action Value := do
  return .record
    [("name", .text signature.name), ("parameters", ← signature.newParameters),
      ("arity", .int signature.arity), ("return_type", .text signature.returnType)]

end Signature

namespace Library

open Scriptlet.TypeName

def functions : List Signature :=
  [⟨"typeof", [any], string⟩, ⟨"print", [any], void⟩, ⟨"input", [], string⟩]

/-- The methods of texts, each under the name by which it is called. -/
def stringMethods : List (String × Signature) :=
  [("length", ⟨"length", [], integer⟩),
    ("substring", ⟨"substring", [integer, integer], string⟩),
    ("toUpperCase", ⟨"toUpperCase", [], string⟩),
    ("toLowerCase", ⟨"toLowerCase", [], string⟩),
    ("toInteger", ⟨"toInteger", [], integer⟩),
    ("toDouble", ⟨"toFloat", [], double⟩),
    ("trim", ⟨"trim", [], string⟩)]

def roundings : List (String × Signature) :=
  [("round", ⟨"round", [], double⟩), ("floor", ⟨"floor", [], double⟩), ("ceil", ⟨"ceil", [], double⟩)]

def integerMethods : List (String × Signature) :=
  [("abs", ⟨"abs", [], integer⟩), ("toFloat", ⟨"toFloat", [], double⟩)] ++ roundings

def doubleMethods : List (String × Signature) :=
  [("abs", ⟨"abs", [], double⟩), ("toInteger", ⟨"toInteger", [], integer⟩)] ++ roundings

def methods (type : String) : List (String × Signature) :=
  if type = string then stringMethods
  else if type = integer then integerMethods
  else if type = double then doubleMethods
  else []

def method? (type name : String) : Option Signature :=
  (methods type).lookup name

end Library

end Scriptlet
