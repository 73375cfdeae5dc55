import Scriptlet.Text.Pattern

/-!
Type names.  A type may be abbreviated to a prefix of its name, and the name may stand as one word
among others; the first word that names a type counts.
-/

namespace Scriptlet.TypeName

open Text (Pattern)

def integer : String := "integer"
def double : String := "double"
def string : String := "string"
def boolean : String := "boolean"
def null : String := "null"
def void : String := "void"
def any : String := "any"
def invalid : String := "invalid"

/-- The spellings of the types, each type a group of its own. -/
def spelling : Pattern :=
  .either (.group integer (.sequence (.literal "int") (.optional
    (.either (.literal "eger") (.either (.literal "ege") (.either (.literal "eg") (.literal "e")))))))
  (.either (.group double (.literal "double"))
  (.either (.group string (.sequence (.literal "str") (.optional
    (.either (.literal "ing") (.either (.literal "in") (.literal "i"))))))
  (.group boolean (.sequence (.literal "bool") (.optional
    (.either (.literal "ean") (.either (.literal "ea") (.literal "e"))))))))

/-- A spelling that is a whole word. -/
def pattern : Pattern :=
  .sequence .boundary (.sequence spelling .boundary)

/-- The type whose group a match holds. -/
def ofMatch (found : Text.Match) : String :=
  ([integer, double, string, boolean].find? found.holds).getD invalid

/-- The full name of the type that a text names, `invalid` if it names none. -/
def expand (s : String) : String :=
  ((pattern.search s).map ofMatch).getD invalid

end Scriptlet.TypeName
