import Scriptlet.Ir.Instruction
import Scriptlet.Node.Value

/-!
Programs over integers and truth values: declarations, assignments, prints, blocks, conditionals,
loops and breaks.  Every part carries the identity of the node that stands for it; the meaning of a
program does not depend on them.

The meaning is an evaluator.  A loop may go round a given number of times; a program terminates if some
number is enough.
-/

namespace Scriptlet.Core

open Ir (Relation)

inductive Ty where
  | int
  | bool
  deriving DecidableEq, Repr, Inhabited

inductive Val where
  | int (value : Int64)
  | bool (value : Bool)
  deriving DecidableEq, Inhabited

def Val.ty : Val → Ty
  | int _ => .int
  | bool _ => .bool

/-- What a print of a value puts out. -/
def Val.line : Val → List UInt8
  | int value => (toString value.toInt).toUTF8.toList ++ [10]
  | bool value => (if value then "true" else "false").toUTF8.toList ++ [10]

inductive Arith where
  | add | sub | mul
  deriving DecidableEq, Repr, Inhabited

def Arith.symbol : Arith → String
  | add => "+" | sub => "-" | mul => "*"

/-- Integers have 64 bits and wrap around. -/
def Arith.apply : Arith → Int64 → Int64 → Int64
  | add, a, b => a + b
  | sub, a, b => a - b
  | mul, a, b => a * b

inductive Logic where
  | and | or
  deriving DecidableEq, Repr, Inhabited

def Logic.symbol : Logic → String
  | and => "&&" | or => "||"

def Logic.apply : Logic → Bool → Bool → Bool
  | and, a, b => a && b
  | or, a, b => a || b

def relationSymbol : Relation → String
  | .eq => "==" | .ne => "!=" | .lt => "<" | .le => "<=" | .gt => ">" | .ge => ">="

def holds : Relation → Int → Int → Bool
  | .eq, a, b => a = b
  | .ne, a, b => a ≠ b
  | .lt, a, b => a < b
  | .le, a, b => a ≤ b
  | .gt, a, b => a > b
  | .ge, a, b => a ≥ b

/-- The number that stands for a value in comparisons: a truth value is a signed number of one bit. -/
def Val.rank : Val → Int
  | int value => value.toInt
  | bool value => if value then -1 else 0

inductive Expr where
  | int (id : NodeId) (value : Int)
  | bool (id : NodeId) (value : Bool)
  | var (id : NodeId) (name : String)
  | arith (id : NodeId) (operator : Arith) (left right : Expr)
  | neg (id : NodeId) (operand : Expr)
  | not (id : NodeId) (operand : Expr)
  | compare (id : NodeId) (relation : Relation) (left right : Expr)
  | logic (id : NodeId) (operator : Logic) (left right : Expr)
  deriving Inhabited

mutual

inductive Stmt where
  | declare (id : NodeId) (name : String) (value : Expr)
  | assign (id : NodeId) (name : String) (value : Expr)
  | print (id argument : NodeId) (value : Expr)
  | block (body : Block)
  | cond (id : NodeId) (condition : Expr) (body : Block) (rest : Branches)
  | loop (id : NodeId) (condition : Expr) (body : Block)
  | breakOut (id : NodeId)

inductive Block where
  | mk (id : NodeId) (statements : Stmts)

inductive Stmts where
  | nil
  | cons (head : Stmt) (tail : Stmts)

/-- What follows the first branch of a conditional. -/
inductive Branches where
  | none
  | otherwise (body : Block)
  | elif (condition : Expr) (body : Block) (rest : Branches)

end

def Stmts.isEmpty : Stmts → Bool
  | .nil => true
  | .cons _ _ => false

structure Program where
  id : NodeId
  statements : Stmts

/-! ### Scopes -/

abbrev Scopes (β : Type) := List (List (String × β))

namespace Scopes

variable {β : Type}

def find? (scopes : Scopes β) (name : String) : Option β :=
  scopes.findSome? fun scope => scope.lookup name

def declare (name : String) (content : β) : Scopes β → Scopes β
  | [] => []
  | scope :: outer => ((name, content) :: scope) :: outer

/-- Changes the first entry of a name in one scope. -/
def setIn (name : String) (content : β) : List (String × β) → List (String × β)
  | [] => []
  | (key, old) :: rest =>
      if key = name then (key, content) :: rest else (key, old) :: setIn name content rest

def assign (name : String) (content : β) : Scopes β → Scopes β
  | [] => []
  | scope :: outer =>
      if (scope.lookup name).isSome then setIn name content scope :: outer
      else scope :: assign name content outer

end Scopes

/-! ### Evaluation -/

namespace Expr

def eval (scopes : Scopes Val) : Expr → Option Val
  | int _ value => some (.int (Int64.ofInt value))
  | bool _ value => some (.bool value)
  | var _ name => scopes.find? name
  | arith _ operator left right =>
      match left.eval scopes, right.eval scopes with
      | some (.int a), some (.int b) => some (.int (operator.apply a b))
      | _, _ => none
  | neg _ operand =>
      match operand.eval scopes with
      | some (.int a) => some (.int (0 - a))
      | _ => none
  | not _ operand =>
      match operand.eval scopes with
      | some (.bool a) => some (.bool (!a))
      | _ => none
  | compare _ relation left right =>
      match left.eval scopes, right.eval scopes with
      | some a, some b => if a.ty = b.ty then some (.bool (holds relation a.rank b.rank)) else none
      | _, _ => none
  | logic _ operator left right =>
      match left.eval scopes, right.eval scopes with
      | some (.bool a), some (.bool b) => some (.bool (operator.apply a b))
      | _, _ => none

end Expr

structure Store where
  scopes : Scopes Val
  /-- What was printed, the last text first. -/
  printed : List (List UInt8) := []

namespace Store

def enter (store : Store) : Store :=
  { store with scopes := [] :: store.scopes }

def leave (store : Store) : Store :=
  { store with scopes := store.scopes.tail }

def declare (store : Store) (name : String) (value : Val) : Store :=
  { store with scopes := store.scopes.declare name value }

def assign (store : Store) (name : String) (value : Val) : Store :=
  { store with scopes := store.scopes.assign name value }

def print (store : Store) (value : Val) : Store :=
  { store with printed := value.line :: store.printed }

end Store

/-- How a statement ends: at its end, by a break, by a loop that goes round too often, or not at all. -/
inductive Outcome where
  | done (store : Store)
  | broke (store : Store)
  | timeout
  | stuck

/-- Leaves the innermost scope on both ways out of a block. -/
def Outcome.leave : Outcome → Outcome
  | done store => done store.leave
  | broke store => broke store.leave
  | timeout => timeout
  | stuck => stuck

/-- Goes round a loop at most a given number of times. -/
def iterate (condition : Store → Option Val) (body : Store → Outcome) : Nat → Store → Outcome
  | 0, _ => .timeout
  | rounds + 1, store =>
      match condition store with
      | some (.bool true) =>
          match body store with
          | .done next => iterate condition body rounds next
          | .broke next => .done next
          | .timeout => .timeout
          | .stuck => .stuck
      | some (.bool false) => .done store
      | _ => .stuck

mutual

def Stmt.exec (fuel : Nat) : Stmt → Store → Outcome
  | .declare _ name value, store =>
      match value.eval store.scopes with
      | some v => .done (store.declare name v)
      | none => .stuck
  | .assign _ name value, store =>
      match value.eval store.scopes, store.scopes.find? name with
      | some v, some _ => .done (store.assign name v)
      | _, _ => .stuck
  | .print _ _ value, store =>
      match value.eval store.scopes with
      | some v => .done (store.print v)
      | none => .stuck
  | .block body, store => body.exec fuel store
  | .cond _ condition body rest, store =>
      match condition.eval store.scopes with
      | some (.bool true) => body.exec fuel store
      | some (.bool false) => rest.exec fuel store
      | _ => .stuck
  | .loop _ condition body, store =>
      iterate (fun store => condition.eval store.scopes) (body.exec fuel) fuel store
  | .breakOut _, store => .broke store

def Block.exec (fuel : Nat) : Block → Store → Outcome
  | .mk _ statements, store => (statements.exec fuel store.enter).leave

def Stmts.exec (fuel : Nat) : Stmts → Store → Outcome
  | .nil, store => .done store
  | .cons head tail, store =>
      match head.exec fuel store with
      | .done next => tail.exec fuel next
      | .broke next => .broke next
      | .timeout => .timeout
      | .stuck => .stuck

def Branches.exec (fuel : Nat) : Branches → Store → Outcome
  | .none, store => .done store
  | .otherwise body, store => body.exec fuel store
  | .elif condition body rest, store =>
      match condition.eval store.scopes with
      | some (.bool true) => body.exec fuel store
      | some (.bool false) => rest.exec fuel store
      | _ => .stuck

end

/-- The program comes to its end, and `trace` is what it has printed, in order. -/
def Program.Terminates (program : Program) (trace : List (List UInt8)) : Prop :=
  ∃ fuel store, program.statements.exec fuel { scopes := [[]] } = .done store ∧
    store.printed.reverse = trace

/-! ### Jumps -/

mutual

/-- Whether a statement always jumps: a break, a block that ends in a jump, or a conditional with an
else all of whose branches end in one. -/
def Stmt.jumps : Stmt → Bool
  | .breakOut _ => true
  | .block body => body.jumps
  | .cond _ _ body rest => body.jumps && rest.jumps
  | _ => false

def Block.jumps : Block → Bool
  | .mk _ statements => statements.jumps

def Stmts.jumps : Stmts → Bool
  | .nil => false
  | .cons head tail => if tail.isEmpty then head.jumps else tail.jumps

def Branches.jumps : Branches → Bool
  | .none => false
  | .otherwise body => body.jumps
  | .elif _ body rest => body.jumps && rest.jumps

end

mutual

theorem Stmt.not_done_of_jumps {fuel : Nat} {store next : Store} :
    ∀ stmt : Stmt, stmt.jumps = true → stmt.exec fuel store ≠ .done next
  | .breakOut _, _, h => by simp [Stmt.exec] at h
  | .block body, hjumps, h => by
      rw [Stmt.jumps] at hjumps
      rw [Stmt.exec] at h
      exact body.not_done_of_jumps hjumps h
  | .cond _ condition body rest, hjumps, h => by
      rw [Stmt.jumps, Bool.and_eq_true] at hjumps
      rw [Stmt.exec] at h
      split at h
      · exact body.not_done_of_jumps hjumps.1 h
      · exact rest.not_done_of_jumps hjumps.2 h
      · cases h
  | .declare .., hjumps, _ | .assign .., hjumps, _ | .print .., hjumps, _ | .loop .., hjumps, _ => by
      simp [Stmt.jumps] at hjumps

theorem Block.not_done_of_jumps {fuel : Nat} {store next : Store} :
    ∀ body : Block, body.jumps = true → body.exec fuel store ≠ .done next
  | .mk _ statements, hjumps, h => by
      rw [Block.jumps] at hjumps
      rw [Block.exec] at h
      cases hexec : statements.exec fuel store.enter with
      | done inner => exact statements.not_done_of_jumps hjumps hexec
      | broke inner | timeout | stuck => simp [hexec, Outcome.leave] at h

theorem Stmts.not_done_of_jumps {fuel : Nat} {store next : Store} :
    ∀ statements : Stmts, statements.jumps = true → statements.exec fuel store ≠ .done next
  | .nil, hjumps, _ => by simp [Stmts.jumps] at hjumps
  | .cons head tail, hjumps, h => by
      rw [Stmts.jumps] at hjumps
      rw [Stmts.exec] at h
      split at h
      case h_1 middle hhead =>
        by_cases hempty : tail.isEmpty = true
        · rw [if_pos hempty] at hjumps
          exact head.not_done_of_jumps hjumps hhead
        · rw [if_neg hempty] at hjumps
          exact tail.not_done_of_jumps hjumps h
      all_goals cases h

theorem Branches.not_done_of_jumps {fuel : Nat} {store next : Store} :
    ∀ branches : Branches, branches.jumps = true → branches.exec fuel store ≠ .done next
  | .none, hjumps, _ => by simp [Branches.jumps] at hjumps
  | .otherwise body, hjumps, h => by
      rw [Branches.jumps] at hjumps
      rw [Branches.exec] at h
      exact body.not_done_of_jumps hjumps h
  | .elif condition body rest, hjumps, h => by
      rw [Branches.jumps, Bool.and_eq_true] at hjumps
      rw [Branches.exec] at h
      split at h
      · exact body.not_done_of_jumps hjumps.1 h
      · exact rest.not_done_of_jumps hjumps.2 h
      · cases h

end

mutual

/-- Breaks stand inside loops, and no statement stands behind one that always jumps. -/
def Stmt.isOrderly (inLoop : Bool) : Stmt → Bool
  | .block body => body.isOrderly inLoop
  | .cond _ _ body rest => body.isOrderly inLoop && rest.isOrderly inLoop
  | .loop _ _ body => body.isOrderly true
  | .breakOut _ => inLoop
  | _ => true

def Block.isOrderly (inLoop : Bool) : Block → Bool
  | .mk _ statements => statements.isOrderly inLoop

def Stmts.isOrderly (inLoop : Bool) : Stmts → Bool
  | .nil => true
  | .cons head tail =>
      head.isOrderly inLoop && (tail.isEmpty || !head.jumps) && tail.isOrderly inLoop

def Branches.isOrderly (inLoop : Bool) : Branches → Bool
  | .none => true
  | .otherwise body => body.isOrderly inLoop
  | .elif _ body rest => body.isOrderly inLoop && rest.isOrderly inLoop

end

/-! ### Types -/

/-- The type of each variable; none if it has no value of its own. -/
abbrev Types := Scopes (Option Ty)

/-- The type of an expression: an operation has the type of its results. -/
def Expr.typeIn (types : Types) : Expr → Option Ty
  | .int .. | .arith .. | .neg .. => some .int
  | .bool .. | .not .. | .compare .. | .logic .. => some .bool
  | .var _ name => (types.find? name).join

def Stmt.typesAfter (types : Types) : Stmt → Types
  | .declare _ name value => types.declare name (value.typeIn types)
  | _ => types

/-- The places where an expression reads a variable, with the type of the variable. -/
def Expr.reads (types : Types) : Expr → List (NodeId × Option Ty)
  | .int .. | .bool .. => []
  | .var id name => [(id, (types.find? name).join)]
  | .neg _ operand | .not _ operand => operand.reads types
  | .arith _ _ left right | .compare _ _ left right | .logic _ _ left right =>
      left.reads types ++ right.reads types

/-- The place where an expression that is printed is a variable. -/
def Expr.shows (types : Types) : Expr → List (NodeId × Option Ty)
  | .var id name => [(id, (types.find? name).join)]
  | _ => []

mutual

def Stmt.reads (types : Types) : Stmt → List (NodeId × Option Ty)
  | .declare _ _ value | .assign _ _ value | .print _ _ value => value.reads types
  | .block body => body.reads types
  | .cond _ condition body rest => condition.reads types ++ body.reads types ++ rest.reads types
  | .loop _ condition body => condition.reads types ++ body.reads types
  | .breakOut _ => []

def Block.reads (types : Types) : Block → List (NodeId × Option Ty)
  | .mk _ statements => statements.reads ([] :: types)

def Stmts.reads (types : Types) : Stmts → List (NodeId × Option Ty)
  | .nil => []
  | .cons head tail => head.reads types ++ tail.reads (head.typesAfter types)

def Branches.reads (types : Types) : Branches → List (NodeId × Option Ty)
  | .none => []
  | .otherwise body => body.reads types
  | .elif condition body rest => condition.reads types ++ body.reads types ++ rest.reads types

end

mutual

/-- The places where a print shows a variable, with the type of the variable. -/
def Stmt.shows (types : Types) : Stmt → List (NodeId × Option Ty)
  | .print _ _ value => value.shows types
  | .block body => body.shows types
  | .cond _ _ body rest => body.shows types ++ rest.shows types
  | .loop _ _ body => body.shows types
  | _ => []

def Block.shows (types : Types) : Block → List (NodeId × Option Ty)
  | .mk _ statements => statements.shows ([] :: types)

def Stmts.shows (types : Types) : Stmts → List (NodeId × Option Ty)
  | .nil => []
  | .cons head tail => head.shows types ++ tail.shows (head.typesAfter types)

def Branches.shows (types : Types) : Branches → List (NodeId × Option Ty)
  | .none => []
  | .otherwise body => body.shows types
  | .elif _ body rest => body.shows types ++ rest.shows types

end

end Scriptlet.Core
