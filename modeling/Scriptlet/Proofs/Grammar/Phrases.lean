import Scriptlet.Grammar.Expression

/-!
The grammar of expressions.

A phrase is a sequence of tokens that is derived from one of eight levels, together with the tree that it
stands for.  A phrase also depends on the token behind it: a power without an exponent is a square, and it
stands only at the end of a line.
-/

namespace Scriptlet

namespace Grammar

/-- The tree of an expression. -/
inductive Expr where
  | literal (kind : Kind) (value : Scalar)
  | reference (name : Scalar)
  | update (name : Scalar) (value : Expr)
  | call (name : Scalar) (arguments : List Expr)
  | method (receiver : Expr) (name : Scalar) (arguments : List Expr)
  | unary (operator : Scalar) (operand : Expr)
  | binary (left : Expr) (operator : Scalar) (right : Expr)
  | comparison (left : Expr) (operator : Scalar) (right : Expr)
  | logical (left : Expr) (operator : Scalar) (right : Expr)

/-- The update of a variable by one. -/
def Expr.step (name : Scalar) (operator : String) : Expr :=
  .update name (.binary (.reference name) (.text operator) (.literal .integer (.int 1)))

def literal? (token : Token) : Option Expr :=
  match token.kind with
  | .integer => some (.literal .integer token.value)
  | .double => some (.literal .double token.value)
  | .boolean => some (.literal .boolean (.text (if token.value.isText "true" then "true" else "false")))
  | .string => some (.literal .string token.value)
  | .null => some (.literal .null .null)
  | _ => none

/-- The levels of the grammar, from the weakest binding to the strongest. -/
inductive Level where
  | expression | equality | comparison | additive | term | factor | unary | primary
  deriving DecidableEq

namespace Level

def tighter? : Level → Option Level
  | expression => some equality
  | equality => some comparison
  | comparison => some additive
  | additive => some term
  | term => some factor
  | factor => some unary
  | unary => some primary
  | primary => none

def operators : Level → List TokenKind
  | expression => [.and, .or]
  | equality => [.equal, .notEqual]
  | comparison => [.greater, .greaterEqual, .less, .lessEqual]
  | term => [.asterisk, .slash, .modulo]
  | factor => [.power]
  | _ => []

/-- What the operators of a level make of their operands. -/
def join : Level → Expr → Scalar → Expr → Expr
  | expression => .logical
  | equality | comparison => .comparison
  | _ => .binary

end Level

/-- The kind of the token with which some tokens start, or of the one behind them. -/
def leading (tokens : List Token) (next : TokenKind) : TokenKind :=
  (tokens.head?.map Token.kind).getD next

mutual

/-- The tokens are derived from a level of the grammar and stand for the tree; `next` is the kind of the
token behind them.  With `commas`, arguments are separated by commas, otherwise commas can be left out. -/
inductive Derives (commas : Bool) : Level → List Token → Option TokenKind → Expr → Prop
  | tighter {level inner : Level} {tokens : List Token} {next : Option TokenKind} {tree : Expr}
      (hinner : level.tighter? = some inner) (h : Derives commas inner tokens next tree) :
      Derives commas level tokens next tree
  | chain {level inner : Level} {tokens others : List Token} {operator : Token} {next : Option TokenKind}
      {left right : Expr} (hinner : level.tighter? = some inner) (hoperator : operator.kind ∈ level.operators)
      (hleft : Derives commas level tokens (some operator.kind) left) (hright : Derives commas inner others next right) :
      Derives commas level (tokens ++ operator :: others) next (level.join left operator.value right)
  | square {tokens : List Token} {operator : Token} {base : Expr} (hoperator : operator.kind = .power)
      (hbase : Derives commas .factor tokens (some .power) base) :
      Derives commas .factor (tokens ++ [operator]) (some .newline)
        (.binary base operator.value (.literal .double (.int 2)))
  | sum {tokens others : List Token} {operator : Token} {next : Option TokenKind} {left right : Expr}
      (hoperator : operator.kind ∈ [.plus, .minus]) (hleft : Derives commas .term tokens (some operator.kind) left)
      (hright : Derives commas .additive others next right) :
      Derives commas .additive (tokens ++ operator :: others) next (.binary left operator.value right)
  | sign {tokens : List Token} {operator : Token} {next : Option TokenKind} {operand : Expr}
      (hoperator : operator.kind ∈ [.plus, .minus, .not]) (hoperand : Derives commas .primary tokens next operand) :
      Derives commas .unary (operator :: tokens) next (.unary operator.value operand)
  | literal {token : Token} {next : Option TokenKind} {tree : Expr} (h : literal? token = some tree) :
      Derives commas .primary [token] next tree
  | parentheses {tokens : List Token} {opening closing : Token} {next : Option TokenKind} {tree : Expr}
      (hopening : opening.kind = .leftParen) (h : Derives commas .expression tokens (some .rightParen) tree)
      (hclosing : closing.kind = .rightParen) : Derives commas .primary (opening :: tokens ++ [closing]) next tree
  | increment {name operator : Token} {next : Option TokenKind} (hname : name.kind = .identifier)
      (hoperator : operator.kind = .increment) :
      Derives commas .primary [name, operator] next (.step name.value "+")
  | decrement {name operator : Token} {next : Option TokenKind} (hname : name.kind = .identifier)
      (hoperator : operator.kind = .decrement) :
      Derives commas .primary [name, operator] next (.step name.value "-")
  | access {tokens : List Token} {next : Option TokenKind} {tree : Expr} (h : Access commas tokens tree) :
      Derives commas .primary tokens next tree

/-- A variable, a function call, or a chain of method calls on one of them. -/
inductive Access (commas : Bool) : List Token → Expr → Prop
  | name {name : Token} (hname : name.kind = .identifier) : Access commas [name] (.reference name.value)
  | call {name opening closing : Token} {tokens : List Token} {arguments : List Expr}
      (hname : name.kind = .identifier) (hopening : opening.kind = .leftParen)
      (harguments : Arguments commas tokens arguments) (hclosing : closing.kind = .rightParen) :
      Access commas (name :: opening :: tokens ++ [closing]) (.call name.value arguments)
  | method {dot name opening closing : Token} {others tokens : List Token} {receiver : Expr} {arguments : List Expr}
      (hreceiver : Access commas others receiver) (hdot : dot.kind = .dot) (hname : name.kind = .identifier)
      (hopening : opening.kind = .leftParen) (harguments : Arguments commas tokens arguments)
      (hclosing : closing.kind = .rightParen) :
      Access commas (others ++ dot :: name :: opening :: tokens ++ [closing]) (.method receiver name.value arguments)

/-- Expressions in front of a closing parenthesis. -/
inductive Arguments (commas : Bool) : List Token → List Expr → Prop
  | none : Arguments commas [] []
  | next {tokens others : List Token} {tree : Expr} {trees : List Expr}
      (h : Derives commas .expression tokens (some (leading others .rightParen)) tree)
      (hcommas : commas = true → others = []) (hothers : Arguments commas others trees) :
      Arguments commas (tokens ++ others) (tree :: trees)
  | comma {tokens others : List Token} {comma : Token} {tree : Expr} {trees : List Expr}
      (h : Derives commas .expression tokens (some .comma) tree) (hcomma : comma.kind = .comma)
      (hothers : Arguments commas others trees) : Arguments commas (tokens ++ comma :: others) (tree :: trees)

end

end Grammar

/-! ### Tokens in a text -/

/-- The tokens that a cursor has in view, and the text behind them. -/
structure Window where
  current : Option Token
  ahead : Option Token
  scanner : Scanner

def Cursor.window (cursor : Cursor) : Window :=
  ⟨cursor.current, cursor.ahead, cursor.scanner⟩

namespace Window

variable {window middle after : Window} {tokens others : List Token} {token : Token}

def kind? (window : Window) : Option TokenKind :=
  window.current.map Token.kind

/-- The view one token further, if the text gives no cause for a report there. -/
def next? (window : Window) : Option Window :=
  match window.scanner.scan with
  | ⟨scanner, .ok token, []⟩ => some ⟨window.ahead, token, scanner⟩
  | _ => none

theorem next?_eq_some : window.next? = some after ↔ ∃ token, window.scanner.scan.token = .ok token ∧
    window.scanner.scan.reports = [] ∧ after = ⟨window.ahead, token, window.scanner.scan.scanner⟩ := by
  unfold next?
  split
  case h_1 hscan => simp [hscan, eq_comm]
  case h_2 hnot =>
    refine ⟨nofun, fun ⟨token, htoken, hreports, _⟩ => ?_⟩
    generalize window.scanner.scan = outcome at htoken hreports hnot
    cases outcome
    subst htoken hreports
    exact (hnot _ _ rfl).elim

/-- The tokens that stand between two views of a text. -/
inductive Spells : Window → List Token → Window → Prop
  | done (window : Window) : Spells window [] window
  | step {window middle after : Window} {token : Token} {tokens : List Token} (htoken : window.current = some token)
      (hend : token.kind ≠ .eof) (hnext : window.next? = some middle) (hrest : Spells middle tokens after) :
      Spells window (token :: tokens) after

namespace Spells

theorem append (h : Spells window tokens middle) (h' : Spells middle others after) :
    Spells window (tokens ++ others) after := by
  induction h with
  | done => exact h'
  | step htoken hend hnext _ ih => exact .step htoken hend hnext (ih h')

theorem split (h : Spells window (tokens ++ others) after) :
    ∃ middle, Spells window tokens middle ∧ Spells middle others after := by
  induction tokens generalizing window with
  | nil => exact ⟨window, .done window, h⟩
  | cons token rest ih =>
      cases h with
      | step htoken hend hnext hrest =>
          obtain ⟨middle, hfirst, hothers⟩ := ih hrest
          exact ⟨middle, .step htoken hend hnext hfirst, hothers⟩

theorem single (htoken : window.current = some token) (hend : token.kind ≠ .eof) (hnext : window.next? = some after) :
    Spells window [token] after :=
  .step htoken hend hnext (.done after)

theorem current (h : Spells window (token :: tokens) after) : window.current = some token := by
  cases h with
  | step htoken => exact htoken

theorem kind?_cons (h : Spells window (token :: tokens) after) : window.kind? = some token.kind := by
  rw [kind?, h.current, Option.map_some]

/-- The first token is the current one. -/
theorem kind?_eq_leading (h : Spells window tokens after) {next : TokenKind} (hafter : after.kind? = some next) :
    window.kind? = some (Grammar.leading tokens next) := by
  cases h with
  | done => exact hafter
  | step htoken => rw [kind?, htoken]; rfl

end Spells

def read? : Nat → Window → Option (List Token × Window)
  | 0, window => some ([], window)
  | count + 1, window =>
      match window.current, window.next? with
      | some token, some middle =>
          if token.kind = .eof then none else (middle.read? count).map fun (tokens, after) => (token :: tokens, after)
      | _, _ => none

theorem spells_of_read? {count : Nat} (h : window.read? count = some (tokens, after)) : window.Spells tokens after := by
  induction count generalizing window tokens with
  | zero =>
      cases h
      exact .done _
  | succ count ih =>
      rw [read?] at h
      split at h
      case h_1 token middle htoken hnext =>
        split at h
        case isTrue => cases h
        case isFalse hend =>
          obtain ⟨⟨rest, last⟩, hrest, heq⟩ := Option.map_eq_some_iff.1 h
          cases heq
          exact .step htoken hend hnext (ih hrest)
      case h_2 => cases h

end Window

end Scriptlet
