import Scriptlet.Text.Ranges

/-!
White space, and text without the white space around it.
-/

namespace Scriptlet.Text

def blankRanges : Ranges :=
  [(9, 5), (14, 5), (100, 1), (26, 1), (5599, 1), (2431, 11), (29, 2), (5, 1), (47, 1), (4000, 1)]

def isBlank (c : Char) : Bool :=
  blankRanges.contains c

def trimBlank (s : String) : String :=
  String.ofList ((s.toList.dropWhile isBlank).reverse.dropWhile isBlank).reverse

end Scriptlet.Text
