import Scriptlet.Grammar.Cursor

/-!
Advice on tokens that cannot start a statement.
-/

namespace Scriptlet.Parse

/-- What is said of a token of a given kind that does not belong where it stands. -/
def adviceOn? : TokenKind → Option String
  | .returnKey => some "Break statements are only allowed inside a loop body. "
  | .leftBrace => some "Unexpected '\x7b'. Did you forget to close a previous block or add a semicolon?"
  | .rightBrace => some "Unexpected '\x7d'. Did you forget to open a block or are you closing it too early?"
  | .leftParen => some "Unexpected '('. This might indicate a missing operator or incorrect function/method call."
  | .rightParen => some "Unexpected ')'. You may be missing an opening parenthesis or have unmatched parentheses."
  | .semicolon => some "Unexpected ';'. You dont need to end statements with semicolons."
  | .comma => some "Unexpected ','. Ensure that you're using in correct context."
  | .ifKey => some "Unexpected 'if'. This keyword is only valid at the beginning of an if-else statement."
  | .elseKey => some "Unexpected 'else'. 'else' must follow an 'if' block or an 'elif' block."
  | .elifKey => some "Unexpected 'elif'. 'elif' must follow an 'if' block or another 'elif' block."
  | .whileKey => some "Unexpected 'while'. This keyword is only valid at the beginning of a while loop statement."
  | .assign => some "Unexpected '='. You might be trying to assign a value outside a proper context."
  | .equal => some "Unexpected '=='. This comparison operator might be used outside a valid comparison context."
  | .plus => some "Unexpected '+'. Make sure you're using it in a valid arithmetic or concatenation context."
  | .minus => some "Unexpected '-'. Make sure you're using it in a valid arithmetic or subtraction context."
  | .asterisk => some "Unexpected '*'. Ensure you're using the multiplication operator in a valid context."
  | .slash => some "Unexpected '/'. This division operator might be out of place."
  | .and => some "Unexpected '&&'. Logical AND should be used in a condition, not as a standalone token."
  | .or => some "Unexpected '||'. Logical OR should be used in a condition, not as a standalone token."
  | .not => some "Unexpected '!'. The NOT operator should be followed by a condition or a boolean value."
  | .increment => some "Unexpected '++'. Ensure that '++' is used as a standalone statement or within an expression."
  | .decrement => some "Unexpected '--'. Ensure that '--' is used as a standalone statement or within an expression."
  | .glitchKey => some "Unexpected 'glitch'. This is a reserved keyword and cannot be used directly."
  | _ => none

def adviseOnToken : Parse Bool := do
  match (← get).current with
  | none => fail (.missingAttribute Scalar.null.sortName "type")
  | some token =>
      match adviceOn? token.kind with
      | some advice =>
          complain advice
          return true
      | none => return false

/-- What is said of the name of a library function that is not called. -/
def adviceOnName? (name : String) : Option String :=
  if name = "print" then
    some "Did you mean to call the print function? Please dont forget the enclosing parenthesis: 'print(...)'"
  else if name = "input" then
    some "Did you mean to call the input function? Please dont forget the enclosing parenthesis: 'input(...)"
  else none

/-- Gives advice on the current token if it is the name of a library function. -/
def adviseOnName : Parse Bool := do
  match (← get).current with
  | some ⟨.identifier, .text name⟩ =>
      match adviceOnName? name with
      | some advice =>
          complain advice
          return true
      | none => return false
  | _ => return false

end Scriptlet.Parse
