import Scriptlet.Scalar

/-!
Tokens and their kinds.  Each kind has a name and a code; the codes of keywords are those from 100 to
199, the codes of logical operators those from 400 to 499.
-/

namespace Scriptlet

inductive TokenKind where
  | error | eof | newline
  | integer | boolean | identifier | string | null | double
  | leftBrace | rightBrace | leftParen | rightParen
  | semicolon | comma | dot | colon | questionMark
  | whileKey | functionKey | setKey | ifKey | elseKey | elifKey | forKey | returnKey | breakKey | glitchKey
  | assign | plus | minus | asterisk | slash | modulo | power
  | equal | notEqual | less | lessEqual | greater | greaterEqual
  | increment | decrement | plusAssign | minusAssign
  | and | or | not
  deriving DecidableEq, Repr, Inhabited

namespace TokenKind

def all : List TokenKind :=
  [error, eof, newline, integer, boolean, identifier, string, null, double,
    leftBrace, rightBrace, leftParen, rightParen, semicolon, comma, dot, colon, questionMark,
    whileKey, functionKey, setKey, ifKey, elseKey, elifKey, forKey, returnKey, breakKey, glitchKey,
    assign, plus, minus, asterisk, slash, modulo, power,
    equal, notEqual, less, lessEqual, greater, greaterEqual,
    increment, decrement, plusAssign, minusAssign, and, or, not]

def name : TokenKind → String
  | error => "ERROR" | eof => "EOF" | newline => "NEWLINE"
  | integer => "INTEGER" | boolean => "BOOLEAN" | identifier => "IDENTIFIER"
  | string => "STRING" | null => "NULL" | double => "DOUBLE"
  | leftBrace => "LBRACE" | rightBrace => "RBRACE" | leftParen => "LPAREN" | rightParen => "RPAREN"
  | semicolon => "SEMICOLON" | comma => "COMMA" | dot => "DOT" | colon => "COLON"
  | questionMark => "QMARK"
  | whileKey => "WHILE" | functionKey => "FUNCTION" | setKey => "SET" | ifKey => "IF" | elseKey => "ELSE"
  | elifKey => "ELIF" | forKey => "FOR" | returnKey => "RETURN" | breakKey => "BREAK" | glitchKey => "GLITCH"
  | assign => "EQ" | plus => "PLUS" | minus => "MINUS" | asterisk => "ASTERISK" | slash => "SLASH"
  | modulo => "MODUlO" | power => "POW"
  | equal => "EQEQ" | notEqual => "NOTEQ" | less => "LT" | lessEqual => "LTEQ" | greater => "GT"
  | greaterEqual => "GTEQ" | increment => "INCREMENT" | decrement => "DECREMENT"
  | plusAssign => "PLUS_EQUAL" | minusAssign => "MINUS_EQUAL"
  | and => "AND" | or => "OR" | not => "NOT"

def code : TokenKind → Int
  | error => -2 | eof => -1 | newline => 0
  | integer => 1 | boolean => 2 | identifier => 3 | string => 4 | null => 5 | double => 6
  | leftBrace => 7 | rightBrace => 8 | leftParen => 9 | rightParen => 10
  | semicolon => 11 | comma => 12 | dot => 13 | colon => 14 | questionMark => 15
  | whileKey => 101 | functionKey => 102 | setKey => 103 | ifKey => 104 | elseKey => 105
  | elifKey => 106 | forKey => 107 | returnKey => 108 | breakKey => 109 | glitchKey => 110
  | assign => 301 | plus => 302 | minus => 303 | asterisk => 304 | slash => 305
  | modulo => 306 | power => 307 | equal => 308 | notEqual => 309 | less => 310 | lessEqual => 311
  | greater => 312 | greaterEqual => 313 | increment => 314 | decrement => 315
  | plusAssign => 316 | minusAssign => 317
  | and => 401 | or => 402 | not => 403

def lowerName (kind : TokenKind) : String :=
  String.ofList (kind.name.toList.map Char.toLower)

def named? (low high : Int) (word : String) : Option TokenKind :=
  all.find? fun kind => kind.lowerName == word && low ≤ kind.code && kind.code < high

def keyword? (word : String) : Option TokenKind :=
  named? 100 200 word

def logicalOperator? (word : String) : Option TokenKind :=
  named? 400 500 word

def ofName? (name : String) : Option TokenKind :=
  all.find? fun kind => kind.name == name

end TokenKind

structure Token where
  kind : TokenKind
  value : Scalar
  deriving Inhabited

def Token.ofText (kind : TokenKind) (text : String) : Token :=
  ⟨kind, .text text⟩

end Scriptlet
