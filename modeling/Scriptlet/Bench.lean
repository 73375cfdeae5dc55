import Scriptlet.CommandLine
import Scriptlet.Node.Sameness
import Scriptlet.Scope.Scoping
import Scriptlet.Token.Stream

/-!
Workloads that take every stage through its paces and count what comes out: tokens, statements, scopes,
functions, equal nodes and printed characters.
-/

namespace Scriptlet.Bench

def textOf (lines : List String) : String :=
  String.join (lines.map (· ++ "\n"))

def featureFunction (number : Nat) : String :=
  "function int f" ++ toString number ++ "(a:int, b:double, c:str, d:bool) \x7b" ++ "\n" ++ textOf [
    "    set tmp:integer = a + 1",
    "    set dd = b * 2.0 - 1.0 / 3.0 + 4.0 % 2.0",
    "    set p = 2 ^ 3",
    "    set neg = -tmp + +tmp",
    "    set nd = -dd",
    "    set nb = !d",
    "    if (tmp == 0 && d) \x7b",
    "        tmp = tmp + 1",
    "    \x7d elif (tmp != 0 || d) \x7b",
    "        tmp = tmp - 1",
    "    \x7d elif (dd >= 1.0 && dd <= 9.9 && dd < 5.0 && dd > 0.1) \x7b",
    "        tmp = tmp * 2",
    "    \x7d else \x7b",
    "        return tmp / 2",
    "    \x7d",
    "    while (tmp < 3) \x7b",
    "        tmp++",
    "        if (tmp >= 2) \x7b break \x7d",
    "    \x7d",
    "    for (j = 0; j < 2; j++) \x7b",
    "        tmp += 1",
    "        tmp -= 1",
    "    \x7d",
    "    a = a + 1",
    "    set msg = \"v=\" + tmp + \" d=\" + dd + \" end\"",
    "    set cat = c + \"!\" + \"?\"",
    "    set eq = (\"x\" == \"y\")",
    "    set ln = c.length()",
    "    set iv = c.toInteger()",
    "    set dv = c.toDouble()",
    "    print(tmp)",
    "    print(dd)",
    "    print(\"hi\")",
    "    print(d)",
    "    print(msg)",
    "    return tmp",
    "\x7d"]

def featureMain : String :=
  textOf [
    "function void g0() \x7b",
    "    set x = 1",
    "    if (x > 0) \x7b",
    "        return",
    "    \x7d else \x7b",
    "        return",
    "    \x7d",
    "\x7d",
    "set g:double = 1",
    "set h = 5 % 2",
    "set u = -3.5",
    "set nn = null",
    "set tv = true",
    "set fv = false",
    "set mm = (1 + 2) * (3 - 4)",
    "set r0 = f0(1, 2.0, \"x\", true)",
    "set r1 = f0(h, 2.0, \"y\", false)",
    "set bc = (true == false)",
    "set bc2 = (true != false)",
    "set mix = (1 < 2.0)",
    "set istr = \"a\" + 1 + \"b\" + 2.0 + \"c\"",
    "set iref = \"n=\" + h",
    "set uexp = \"u=\" + (-3)",
    "set gcat = \"g=\" + g",
    "g0()",
    "for (k = 3; k > 0; k--) \x7b g = g + 1.0 \x7d",
    "for (set m = 0; m < 2; m = m + 1) \x7b h = h + 1 \x7d",
    "if (tv) \x7b h = h + 1 \x7d",
    "if (fv) \x7b h = h + 1 \x7d elif (tv) \x7b h = h + 2 \x7d",
    "\x7b set scoped = 1 \x7d"]

/-- A program with a given number of functions.  Its main part calls the first of them. -/
def featureProgram (functions : Nat) : String :=
  String.join ((List.range functions).map featureFunction) ++ featureMain

def errorProgram : String :=
  String.intercalate "\n" [
    "return 1",
    "break",
    ";",
    "set bad:xyz = 1",
    "set x, y:int, z:int = 5",
    "set a, b:str = 5",
    "x, y = 7",
    "q += 1",
    "set dup = 1",
    "set dup = 2",
    "undef = 3",
    "set bb = !1",
    "set cc = \"a\" - 1",
    "set dd = 1 && 2",
    "set ee = 1 == \"x\"",
    "function bad noRet(p:int) \x7b set z = p \x7d",
    "noSuch()",
    "print(1, 2)",
    "set mm = \"a\".noMeth()",
    "set m2 = \"a\".length(1)",
    "set m3 = \"a\".substring(\"x\", \"y\")",
    "print ?",
    "if (1) \x7b \x7d",
    "set an:str = 5",
    "& ",
    ""]

def tokenSample : String :=
  textOf [
    "// declarations, updates and jumps",
    "set total:int = 1 + 2 * 3 - 4 / 5 % 6 ^ 7",
    "set ratio = 0.5",
    "set name:str = \"text\"",
    "set flag:bool = true",
    "total += 1",
    "total -= 1",
    "if (total == 1 && flag) \x7b total = 2 \x7d elif (total != 2 || !flag) \x7b total = 3 \x7d else \x7b total = 4 \x7d",
    "while (total >= 1) \x7b break \x7d"]

/-- Starts afresh; a workload may report as much as it likes. -/
def reset : Draft.Action Unit :=
  modify fun draft => { draft with journal := { draft.journal.clear with limit := none } }

/-- How many characters an action prints; they are not kept. -/
def printedBy (action : Draft.Action Unit) : Draft.Action Nat := do
  let before := (← get).journal.printed
  let setPrinted (printed : String) : Draft.Action Unit :=
    modify fun draft => { draft with journal := { draft.journal with printed } }
  setPrinted ""
  action
  let count := (← get).journal.printed.length
  setPrinted before
  return count

/-- The number of tokens before the end of the text. -/
def lexing (copies : Nat) : Draft.Action (List Nat) := do
  reset
  let (tokens, _, _) := Reading.tokens (String.join (List.replicate copies tokenSample))
  let isEnd : Option Token × Nat → Bool
    | (some token, _) => token.kind == .eof
    | (none, _) => false
  return [(tokens.filter (!isEnd ·)).length]

def statementsOf (tree : Value) : Draft.Action (List Value) := do
  Draft.itemsOf (← Draft.getField tree .statements)

/-- The number of statements. -/
def parsing (functions : Nat) : Draft.Action (List Nat) := do
  reset
  return [(← statementsOf (← parseSource (featureProgram functions))).length]

/-- The number of scopes. -/
def analysing (functions : Nat) : Draft.Action (List Nat) := do
  reset
  match ← analyzeTree (← parseSource (featureProgram functions)) with
  | some table => return [table.scopes.size]
  | none => return [0]

def isFunction : Ir.Global → Bool
  | .function _ => true
  | .datum _ => false

/-- The number of functions in a module after it has been given all kinds of input and output. -/
def functionCount (module : Ir.Module) : Nat :=
  let declared : Emit Unit := do
    Emit.require "freopen"
    Emit.require "scanf"
  match declared { module } with
  | .ok _ last | .error _ last => (last.module.globals.filter isFunction).length

/-- The number of characters in the listings of scopes and tree, and of functions in the module. -/
def generating (functions : Nat) : Draft.Action (List Nat) := do
  reset
  let tree ← parseSource (featureProgram functions)
  let before := (← get).journal.printed
  let table ← analyzeTree tree
  let (module, table) ← generateModule (table.getD {}) tree
  let reported := (← get).journal.printed.length - before.length
  let listed ← printedBy do
    table.print
    Draft.list tree 0
  return [reported + listed, (module.map functionCount).getD 0]

/-- Nodes of many kinds; some of them are the same. -/
def sampleNodes : Draft.Action (List Value) := do
  let x : Draft.Action Value := Draft.newReference (.text "x")
  let one : Draft.Action Value := Draft.newInteger (.int 1)
  return [← one, ← one, ← Draft.newDouble (.double 2.5), ← Draft.newDouble (.double 2.5),
    ← Draft.newBoolean (.text "true"), ← Draft.newString (.text "key"), ← Draft.newNull, ← x, ← x,
    ← Draft.newParameter (.text "p") (.text TypeName.integer),
    ← Draft.newParameter (.text "q") (.text TypeName.integer), ← Draft.newBreak .null,
    ← Draft.newDeclaration (.text "x") (← one), ← Draft.newUpdate (.text "x") (← one),
    ← Draft.newReturn (← x), ← Draft.newReturn (← x), ← Draft.newUnary (.text "-") (← one),
    ← Draft.newBlock (.list []), ← Draft.newMethod (← x) (.text "length") (.list [])]

/-- How many of the pairs are the same. -/
def countSame (pairs : List (Value × Value)) : Draft.Action Nat := do
  let found ← pairs.filterM fun (left, right) => Draft.same left right
  return found.length

/-- The number of sample nodes that are the same as a copy, of pairs of equal ones among them, of
characters in listings, and of statements. -/
def reflecting (functions : Nat) : Draft.Action (List Nat) := do
  reset
  let nodes ← sampleNodes
  let copied ← countSame (nodes.zip (← sampleNodes))
  let paired ← countSame (nodes.flatMap fun left => nodes.map fun right => (left, right))
  let tree ← parseSource (featureProgram functions)
  let statements ← statementsOf tree
  let printed ← printedBy do
    let _ ← analyzeTree tree
    nodes.forM fun node => Draft.list node 0
    Draft.list tree 0
  return [copied, paired, printed, statements.length]

/-- The number of scopes of a table with scopes that are created and walked again. -/
def scoping (scopes : Nat) : Draft.Action (List Nat) := do
  reset
  let created := (List.range scopes).foldl
    (fun (table : ScopeTable) _ => (table.createScope.exitScope).toOption.getD table.createScope) {}
  return [created.scopes.size]

def mistakes : List String :=
  ["set x =", "missing = 1", "missing()"]

/-- The number of messages about faulty programs. -/
def erring (rounds : Nat) : Draft.Action (List Nat) := do
  let check (source : String) : Draft.Action Nat := do
    reset
    let _ ← printedBy do
      let tree ← parseSource source
      unless (← get).journal.flagged do
        let _ ← analyzeTree tree
    return (← get).journal.messages.size
  let counts ← (List.range rounds).mapM fun _ => do
    return (← (errorProgram :: mistakes).mapM check).foldl (· + ·) 0
  reset
  return [counts.foldl (· + ·) 0]

def assignments (count : Nat) : String :=
  textOf ((List.range count).map fun i => "set var" ++ toString i ++ " = " ++ toString i)

def greetingProgram : String :=
  textOf ["set greeting = \"hello\"", "print(greeting)"]

/-- The files of the command lines below. -/
def files (statements : Nat) : List (String × String) :=
  [("greeting.g", greetingProgram), ("faulty.g", assignments statements ++ "missing = 1\n"),
    ("broken.g", "set ok = 1\n&\n")]

def commandLines : List (List String) :=
  [["greeting.g", "--log", "3"], ["program.txt"], ["elsewhere.g"], ["faulty.g", "--log", "2"],
    ["faulty.g", "--log", "3"], ["broken.g"]]

/-- The number of characters that are printed for a few command lines. -/
def compiling (statements : Nat) : Draft.Action (List Nat) := do
  let read (name : String) : Option String := (files statements).lookup name
  let counts ← commandLines.mapM fun arguments => do
    reset
    printedBy fun draft =>
      match CommandLine.run arguments read { toDraft := draft, source := "" } with
      | .ok _ last => .ok () last.toDraft
      | .error failure last => .error failure last.toDraft
  return [counts.foldl (· + ·) 0]

/-- What a workload counts: a number, or a list of numbers. -/
def countsOf : List Nat → Value
  | [count] => .int count
  | counts => .list (counts.map fun (count : Nat) => .int count)

end Scriptlet.Bench
