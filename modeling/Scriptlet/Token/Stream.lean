import Scriptlet.Token.Lexer

/-!
The tokens of a text, one after the other, with the reports made on the way.
-/

namespace Scriptlet

namespace Scanner

/-- Journals the reports of an outcome and hands out its token. -/
def Outcome.deliver (outcome : Outcome) : Journal.Writer (Option Token) := do
  for report in outcome.reports do
    Journal.report report
  match outcome.token with
  | .ok token => return token
  | .error fault => fail fault

end Scanner

/-- A text that is being read, and the journal of what was reported. -/
structure Reading where
  scanner : Scanner
  journal : Journal := {}
  deriving Inhabited

namespace Reading

abbrev Reader := EStateM Failure Reading

def next : Reader (Option Token) := fun reading =>
  let outcome := reading.scanner.scan
  match outcome.deliver reading.journal with
  | .ok token journal => .ok token { scanner := outcome.scanner, journal }
  | .error failure journal => .error failure { scanner := outcome.scanner, journal }

/-- The tokens up to the end of the text, each with the line reached, and the failure that ended the
reading if there was one.  At most `count` tokens are read. -/
def tokensWithin : Nat → Reading → List (Option Token × Nat) × Option Failure × Reading
  | 0, reading => ([], none, reading)
  | count + 1, reading =>
      match next reading with
      | .error failure after => ([], some failure, after)
      | .ok token after =>
          let entry := (token, after.scanner.line)
          if token.any fun t => t.kind == .eof then ([entry], none, after)
          else
            let (rest, failure, last) := tokensWithin count after
            (entry :: rest, failure, last)

def tokens (source : String) : List (Option Token × Nat) × Option Failure × Reading :=
  tokensWithin (source.length + 2) { scanner := .ofSource source }

end Reading

namespace Token

/-- A line of the listing of tokens. -/
def listingLine (token : Token) : String :=
  "Token: " ++ token.kind.name ++ ", Value: " ++ token.value.literal

def listing (source : String) : List String :=
  ((Reading.tokens source).1.filterMap Prod.fst).filterMap fun token =>
    if token.kind == .eof then none else some token.listingLine

/-- The text that is listed to show the tokens at work. -/
def sampleSource : String :=
  " \n        print(\"your input: \"+input())\n    "

end Token

end Scriptlet
