import Scriptlet.Analysis.Visit
import Scriptlet.CodeGen.Statement
import Scriptlet.Grammar.Statement
import Scriptlet.Ir.Printer
import Scriptlet.Ir.Verify
import Scriptlet.Machine.Run
import Scriptlet.Node.Listing
import Scriptlet.Scope.Listing

/-!
From source text to a running program, with a log of what happens on the way.

Short remarks are printed at once.  Listings wait until code has been generated, or until compilation
is given up, and show the program as it is then.
-/

namespace Scriptlet

inductive Colour where
  | red
  | green
  | blue
  | plain
  deriving DecidableEq, Repr, Inhabited

def Colour.code : Colour → String
  | red => "\x1b[31m"
  | green => "\x1b[32m"
  | blue => "\x1b[34m"
  | plain => "\x1b[0m"

def Colour.paint (colour : Colour) (message : String) : String :=
  colour.code ++ message ++ plain.code

inductive Notice where
  | remark (colour : Colour) (message : String)
  | tree
  | scopes
  | code (text : String)
  deriving Inhabited

structure Compilation extends Draft where
  source : String
  level : Int := 0
  input : List UInt8 := []
  tree : Value := .null
  table : ScopeTable := {}
  waiting : List Notice := []
  /-- What the compiled program printed. -/
  output : List UInt8 := []
  deriving Inhabited

instance : Carries Compilation where
  draft compilation := compilation.toDraft
  withDraft compilation draft := { compilation with toDraft := draft }

namespace Compilation

abbrev Action := EStateM Failure Compilation

def logs (level : Int) : Action Bool :=
  return level ≤ (← get).level

def remark (level : Int) (colour : Colour) (message : String) : Action Unit := do
  if ← logs level then Draft.printLine (colour.paint message)

def later (level : Int) (notices : List Notice) : Action Unit := do
  if ← logs level then
    modify fun compilation => { compilation with waiting := compilation.waiting ++ notices }

def showNotice : Notice → Action Unit
  | .remark colour message => Draft.printLine (colour.paint message)
  | .tree => do Draft.list (← get).tree 0
  | .scopes => do (← get).table.print
  | .code text => Draft.printLine text

def flush : Action Unit := do
  let waiting := (← get).waiting
  modify fun compilation => { compilation with waiting := [] }
  waiting.forM showNotice

def hasFailed : Action Bool :=
  return (← get).journal.flagged

/-- The reasons for which a module is refused are not spelled out. -/
def refusal : String :=
  "An error occurred during the LLVM IR verification: <llvm>"

def ruler : Notice :=
  .remark .plain "---------------------------------------"

/-- The text of a module that can be run. -/
def verified? (module : Ir.Module) : Option String :=
  match module.render with
  | .ok text => if module.isValid then some text else none
  | .error _ => none

def execute (module : Ir.Module) : Action Unit := do
  let (_, output) := Machine.runModule module (← get).input
  modify fun compilation => { compilation with output }

def parse : Action Unit := do
  let tree ← parseSource (← get).source
  modify fun compilation => { compilation with tree }

def analyze : Action Unit := do
  if let some table ← analyzeTree (← get).tree then
    modify fun compilation => { compilation with table }

def generate : Action (Option Ir.Module) := do
  let (module, table) ← generateModule (← get).table (← get).tree
  modify fun compilation => { compilation with table }
  return module

def finish (module : Ir.Module) : Action Unit := do
  match verified? module with
  | none =>
      remark 0 .red refusal
      flush
  | some text =>
      later 1 [.remark .blue "LLVM IR generated:", ruler, .code text, ruler]
      flush
      execute module

/-- Compiles and runs; a stage with errors is the last one. -/
def run : Action Unit := do
  parse
  if ← hasFailed then flush
  else
    remark 1 .green "Parsing completed!"
    later 2 [.remark .blue "Initial AST generated:", .tree]
    analyze
    if ← hasFailed then flush
    else
      remark 1 .green "Semantic analysis completed!"
      later 2 [.remark .blue "The following Symbol table was returned:", .scopes]
      later 3 [.remark .blue "The analyzer returned this AST:", .tree]
      let module ← generate
      match module, ← hasFailed with
      | some module, false => finish module
      | _, _ => flush

end Compilation

end Scriptlet
