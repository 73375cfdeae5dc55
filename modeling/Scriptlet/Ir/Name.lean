/-!
Written names of the intermediate code.
-/

namespace Scriptlet.Ir

def nameChar (c : Char) : String :=
  if c = '\\' then "\\5c" else if c = '"' then "\\22" else c.toString

def quotedName (name : String) : String :=
  "\"" ++ String.join (name.toList.map nameChar) ++ "\""

def localName (name : String) : String :=
  "%" ++ quotedName name

def globalName (name : String) : String :=
  "@" ++ quotedName name

def isLabelStart (c : Char) : Bool :=
  c.isAlpha || ['-', '$', '.', '_'].contains c

def isLabelPart (c : Char) : Bool :=
  isLabelStart c || c.isDigit

/-- The name of a block at its start: plain names stand without quotes. -/
def labelName (name : String) : String :=
  match name.toList with
  | c :: rest => if isLabelStart c && rest.all isLabelPart then name else quotedName name
  | [] => quotedName name

end Scriptlet.Ir
