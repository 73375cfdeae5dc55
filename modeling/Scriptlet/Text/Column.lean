/-!
Columns of a listing.
-/

namespace Scriptlet.Text

def blanks (count : Nat) : String :=
  String.ofList (List.replicate count ' ')

def padRight (width : Nat) (s : String) : String :=
  s ++ blanks (width - s.length)

def padLeft (width : Nat) (s : String) : String :=
  blanks (width - s.length) ++ s

end Scriptlet.Text
