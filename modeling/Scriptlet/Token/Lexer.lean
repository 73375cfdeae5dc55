import Scriptlet.Journal
import Scriptlet.Text.Word
import Scriptlet.Token

/-!
Splitting a source text into tokens.

A `Scanner` holds the text from the current character on.  `Scanner.scan` reads one token: it skips
blanks and at most one comment, reads the longest token at that place, and stops behind it.  What is
wrong with the text is reported and the scanner goes on; two kinds of malformed input are faults,
which leave the scanner where it found them.
-/

namespace Scriptlet

structure Scanner where
  rest : List Char
  position : Nat
  line : Nat
  lineStart : Nat
  last : Option Token
  deriving Inhabited

namespace Scanner

/-- The end of the text, and the character that stands for it. -/
def endMark : Char := '\x00'

def current (scanner : Scanner) : Char :=
  scanner.rest.headD endMark

def peek (scanner : Scanner) : Char :=
  scanner.rest.tail.headD endMark

/-- The line of a character, given the line of the one before it. -/
def lineAt (line : Nat) (c : Char) : Nat :=
  if c = '\n' then line + 1 else line

def advance (scanner : Scanner) : Scanner :=
  let moved := { scanner with rest := scanner.rest.tail, position := scanner.position + 1 }
  if moved.rest.head? = some '\n' then
    { moved with line := moved.line + 1, lineStart := moved.position + 1 }
  else moved

def advanceBy : Nat → Scanner → Scanner
  | 0, scanner => scanner
  | count + 1, scanner => advanceBy count scanner.advance

/-- A scanner at the start of a text; a line break is put behind the text. -/
def ofSource (source : String) : Scanner :=
  let rest := source.toList ++ ['\n']
  { rest, position := 0, line := lineAt 1 (rest.headD endMark), lineStart := 0, last := none }

def skipBlanks (scanner : Scanner) : Scanner :=
  scanner.advanceBy (scanner.rest.takeWhile (· == ' ')).length

def inComment (c : Char) : Bool :=
  c != '\n' && c != endMark

def skipComment (scanner : Scanner) : Scanner :=
  if scanner.current = '/' && scanner.peek = '/' then
    scanner.advanceBy (scanner.rest.takeWhile inComment).length
  else scanner

/-- The outcome of reading one token; `none` stands for a character that starts no token. -/
structure Outcome where
  scanner : Scanner
  token : Except Fault (Option Token)
  reports : List Report := []

/-- The characters that may follow a backslash. -/
def escapable : List Char :=
  ['n', 't', '/', '"', 'r', 'f', 'v', 'a', 'b']

def unknownEscape (c : Char) (line : Nat) : Report :=
  { message := "Unknown escape sequence '\\" ++ c.toString ++ "'", heading := "Syntax", line := .int line }

def unterminated (line : Nat) : Report :=
  { message := "Unterminated string found.", heading := "Syntax", line := .int line }

/-- The inside of a text literal: how many characters it takes, and the text it stands for. -/
structure TextBody where
  length : Nat
  value : List Char
  reports : List Report

/-- Reads up to the closing quote.  An escape is kept as a slash and the escaped character, and an
unknown escape is left out. -/
def textBody (line : Nat) : List Char → TextBody
  | [] => ⟨0, [], []⟩
  | '"' :: _ => ⟨0, [], []⟩
  | '\\' :: c :: rest =>
      let line := lineAt line c
      let value := if escapable.contains c then ['/', c] else []
      let reports := if escapable.contains c then [] else [unknownEscape c line]
      let next := lineAt line (rest.headD endMark)
      if rest.headD endMark = endMark then ⟨2, value, reports ++ [unterminated next]⟩
      else
        let body := textBody next rest
        ⟨2 + body.length, value ++ body.value, reports ++ body.reports⟩
  | c :: rest =>
      let next := lineAt line (rest.headD endMark)
      if rest.headD endMark = endMark then ⟨1, [c], [unterminated next]⟩
      else
        let body := textBody next rest
        ⟨1 + body.length, c :: body.value, body.reports⟩

/-- The token whose text is the next `length` characters. -/
def lexeme (scanner : Scanner) (length : Nat) (kind : TokenKind) : Outcome :=
  { scanner := scanner.advanceBy (length - 1)
    token := .ok (some (.ofText kind (String.ofList (scanner.rest.take length)))) }

/-- One of two operators, the longer one if `second` follows. -/
def either (scanner : Scanner) (second : Char) (long short : TokenKind) : Outcome :=
  if scanner.peek = second then scanner.lexeme 2 long else scanner.lexeme 1 short

/-- One of three operators: the first character alone, doubled, or followed by an equals sign. -/
def stepOrAssign (scanner : Scanner) (doubled assigning single : TokenKind) : Outcome :=
  if scanner.peek = scanner.current then scanner.lexeme 2 doubled
  else scanner.either '=' assigning single

def scanText (scanner : Scanner) : Outcome :=
  let inside := scanner.advance
  let body := textBody inside.line inside.rest
  { scanner := inside.advanceBy body.length
    token := .ok (some (.ofText .string (String.ofList body.value)))
    reports := body.reports }

def illegalInNumber (c : Char) (line : Nat) : Report :=
  { message := "Illegal character in number: " ++ c.toString, heading := "Syntax", line := .int line }

def invalidDouble (text : String) (line : Nat) : Report :=
  { message := "Invalid double format: " ++ text, heading := "Syntax", line := .int line }

/-- A number with a point: the whole part is `whole` characters long. -/
def scanDouble (scanner : Scanner) (whole : Nat) : Outcome :=
  let atPoint := scanner.advanceBy whole
  let fraction := (atPoint.rest.tail.takeWhile Text.isDigit).length
  let stopped := atPoint.advanceBy fraction
  let text := String.ofList (scanner.rest.take (whole + 1 + fraction))
  let illegal := if fraction = 0 then [illegalInNumber atPoint.peek atPoint.line] else []
  match Number.readFloat? text with
  | some value => { scanner := stopped, token := .ok (some ⟨.double, .double value⟩), reports := illegal }
  | none =>
      { scanner := stopped
        token := .error (.unassigned "number")
        reports := illegal ++ [invalidDouble text stopped.line] }

def scanNumber (scanner : Scanner) : Outcome :=
  let whole := (scanner.rest.takeWhile Text.isDigit).length
  if (scanner.rest.drop whole).headD endMark = '.' then scanner.scanDouble whole
  else
    let stopped := scanner.advanceBy (whole - 1)
    match Number.readInt? (String.ofList (scanner.rest.take whole)) with
    | some value => { scanner := stopped, token := .ok (some ⟨.integer, .int value⟩) }
    | none => { scanner := stopped, token := .error (.unexpectedOption "lineNumber") }

/-- A point, or a number that starts with one. -/
def scanPoint (scanner : Scanner) : Outcome :=
  let fraction := (scanner.rest.tail.takeWhile Text.isDigit).length
  if fraction = 0 then scanner.lexeme 1 .dot
  else
    let stopped := scanner.advanceBy fraction
    let text := String.ofList (scanner.rest.take (1 + fraction))
    match Number.readFloat? text with
    | some value => { scanner := stopped, token := .ok (some ⟨.double, .double value⟩) }
    | none =>
        { scanner := stopped
          token := .ok (some ⟨.double, .double 0⟩)
          reports := [invalidDouble text stopped.line] }

def wordKind (word : String) : TokenKind :=
  if word = "true" || word = "false" then .boolean
  else if word = "null" then .null
  else (TokenKind.keyword? word).getD .identifier

def scanWord (scanner : Scanner) : Outcome :=
  let length := 1 + (scanner.rest.tail.takeWhile Text.isWordPart).length
  scanner.lexeme length (wordKind (String.ofList (scanner.rest.take length)))

def singleBar (line : Nat) : Report :=
  { message := "Expected ||, got |", line := .int line }

def invalidCharacter (c : Char) (line : Nat) : Report :=
  { message := "Invalid Character: '" ++ c.toString ++ "'", heading := "Syntax", line := .int line }

/-- Reads the token that starts at the current character and stops on its last character. -/
def scanHere (scanner : Scanner) : Outcome :=
  match scanner.current with
  | '+' => scanner.stepOrAssign .increment .plusAssign .plus
  | '-' => scanner.stepOrAssign .decrement .minusAssign .minus
  | '*' => scanner.lexeme 1 .asterisk
  | '/' => scanner.lexeme 1 .slash
  | '%' => scanner.lexeme 1 .modulo
  | '^' => scanner.lexeme 1 .power
  | '=' => scanner.either '=' .equal .assign
  | '!' => scanner.either '=' .notEqual .not
  | '<' => scanner.either '=' .lessEqual .less
  | '>' => scanner.either '=' .greaterEqual .greater
  | '&' =>
      if scanner.peek = '&' then scanner.lexeme 2 .and
      else { scanner, token := .error (.unexpectedOption "lineNumber") }
  | '|' =>
      if scanner.peek = '|' then scanner.lexeme 2 .or
      else { scanner, token := .ok none, reports := [singleBar scanner.line] }
  | '"' => scanner.scanText
  | '\x7b' => scanner.lexeme 1 .leftBrace
  | '\x7d' => scanner.lexeme 1 .rightBrace
  | '(' => scanner.lexeme 1 .leftParen
  | ')' => scanner.lexeme 1 .rightParen
  | ';' => scanner.lexeme 1 .semicolon
  | '.' => scanner.scanPoint
  | ',' => scanner.lexeme 1 .comma
  | ':' => scanner.lexeme 1 .colon
  | '?' => scanner.lexeme 1 .questionMark
  | '\n' => scanner.lexeme 1 .newline
  | '\x00' => { scanner, token := .ok (some (.ofText .eof "")) }
  | c =>
      if Text.isDigit c then scanner.scanNumber
      else if Text.isWordStart c then scanner.scanWord
      else { scanner, token := .ok none, reports := [invalidCharacter c scanner.line] }

/-- Reads one token and moves behind it; at a fault the scanner stays. -/
def scan (scanner : Scanner) : Outcome :=
  let outcome := scanner.skipBlanks.skipComment.scanHere
  match outcome.token with
  | .ok token => { outcome with scanner := { outcome.scanner with last := token }.advance }
  | .error _ => outcome

end Scanner

end Scriptlet
