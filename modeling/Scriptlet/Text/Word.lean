import Scriptlet.Text.Digit
import Scriptlet.Text.Letter

/-!
Word characters: what names are made of.
-/

namespace Scriptlet.Text

def isAlphanumeric (c : Char) : Bool :=
  isLetter c || isNumeral c

/-- A word may start with a letter or an underscore. -/
def isWordStart (c : Char) : Bool :=
  isLetter c || c == '_'

/-- A word goes on with letters, numerals and underscores. -/
def isWordPart (c : Char) : Bool :=
  isAlphanumeric c || c == '_'

end Scriptlet.Text
