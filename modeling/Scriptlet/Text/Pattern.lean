import Scriptlet.Text.Word

/-!
Patterns of text with named groups.  A text is searched from left to right; at one place the ways to
match are tried in the order in which the pattern prefers them.
-/

namespace Scriptlet.Text

/-- A place in a text: what stands before it, nearest first, and what lies ahead. -/
structure Place where
  before : List Char
  ahead : List Char

namespace Place

/-- Whether a word starts or ends here. -/
def isBoundary (place : Place) : Bool :=
  place.before.head?.any isWordPart != place.ahead.head?.any isWordPart

/-- The place behind a given text, if that text lies ahead. -/
def pass? : List Char → Place → Option Place
  | [], place => some place
  | _ :: _, ⟨_, []⟩ => none
  | c :: text, ⟨before, next :: ahead⟩ => if c = next then pass? text ⟨next :: before, ahead⟩ else none

/-- The text between an earlier place and this one. -/
def since (place start : Place) : List Char :=
  (place.before.take (place.before.length - start.before.length)).reverse

end Place

inductive Pattern where
  | boundary
  | literal (text : String)
  | sequence (first second : Pattern)
  | either (first second : Pattern)
  | optional (inner : Pattern)
  | group (name : String) (inner : Pattern)

/-- Where a match ends, and what its groups hold. -/
structure Match where
  place : Place
  groups : List (String × List Char)

/-- Whether a group took part and is not empty. -/
def Match.holds (found : Match) (name : String) : Bool :=
  (found.groups.lookup name).any (!·.isEmpty)

namespace Pattern

/-- The ways to match at a place, the preferred ones first. -/
def ways : Pattern → Place → List Match
  | boundary, place => if place.isBoundary then [⟨place, []⟩] else []
  | literal text, place => (place.pass? text.toList).toList.map (⟨·, []⟩)
  | sequence first second, place =>
      (first.ways place).flatMap fun found =>
        (second.ways found.place).map fun next => ⟨next.place, found.groups ++ next.groups⟩
  | either first second, place => first.ways place ++ second.ways place
  | optional inner, place => inner.ways place ++ [⟨place, []⟩]
  | group name inner, place =>
      (inner.ways place).map fun found => ⟨found.place, (name, found.place.since place) :: found.groups⟩

/-- The preferred match at the leftmost place that has one; `before` is what was passed over. -/
def searchFrom (pattern : Pattern) : List Char → List Char → Option Match
  | before, [] => (pattern.ways ⟨before, []⟩).head?
  | before, c :: ahead => (pattern.ways ⟨before, c :: ahead⟩).head? <|> pattern.searchFrom (c :: before) ahead

def search (pattern : Pattern) (s : String) : Option Match :=
  pattern.searchFrom [] s.toList

end Pattern

end Scriptlet.Text
