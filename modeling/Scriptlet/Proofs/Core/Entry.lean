import Scriptlet.Proofs.Core.Conditionals
import Scriptlet.Proofs.Core.Printing

/-!
The code of whole programs: the function that generation starts from, what all statements together add
to it, and what a run of the finished module does.
-/

namespace Scriptlet

/-- A run of a module comes to its end, and `trace` is what it has printed, in order. -/
def Machine.Yields (module : Ir.Module) (input : List UInt8) (trace : List (List UInt8)) : Prop :=
  ∃ start steps last, State.start? module input = some start ∧ start.run steps = (.finished, last) ∧
    last.world.printed.reverse = trace

namespace Core

open Ir (Instruction Operand)
open Machine (State Leads)

/-! ### Statements of all kinds -/

mutual

theorem Stmt.generates : ∀ stmt : Stmt, stmt.Generates
  | .declare id name value => generates_declare id name value
  | .assign id name value => generates_assign id name value
  | .print id argument value => generates_print id argument value
  | .block body => by
      intro origin layout g g' s slots next depth operand hready hfits h
      obtain ⟨s', hgenerated⟩ := body.generates origin layout g g' s slots next depth operand hready
        ⟨hfits.stands, hfits.noted, hfits.placed, hfits.sound, hfits.marked, hfits.orderly⟩ h
      exact ⟨s', slots, hgenerated, rfl⟩
  | .cond _ _ body rest => generates_cond body.generates rest.generates
  | .loop _ _ body => generates_loop body.generates
  | .breakOut id => generates_break id

theorem Block.generates : ∀ body : Block, body.Generates
  | .mk _ statements => generates_block statements.generates

theorem Stmts.generates : ∀ statements : Stmts, statements.Generates
  | .nil => generates_nil
  | .cons head tail => generates_cons head.generates tail.generates

theorem Branches.generates : ∀ branches : Branches, branches.Generates
  | .none => generates_none
  | .otherwise body => generates_otherwise body.generates
  | .elif _ body rest => generates_elif body.generates rest.generates

end

mutual

/-- Outside of loops nothing always jumps. -/
theorem Stmt.jumps_of_isOrderly : ∀ stmt : Stmt, stmt.isOrderly false = true → stmt.jumps = false
  | .declare .., _ | .assign .., _ | .print .., _ | .loop .., _ => rfl
  | .block body, h => body.jumps_of_isOrderly h
  | .cond _ _ body _, h => by
      rw [Stmt.isOrderly, Bool.and_eq_true] at h
      rw [Stmt.jumps, body.jumps_of_isOrderly h.1, Bool.false_and]
  | .breakOut _, h => by simp [Stmt.isOrderly] at h

theorem Block.jumps_of_isOrderly : ∀ body : Block, body.isOrderly false = true → body.jumps = false
  | .mk _ statements, h => statements.jumps_of_isOrderly h

theorem Stmts.jumps_of_isOrderly :
    ∀ statements : Stmts, statements.isOrderly false = true → statements.jumps = false
  | .nil, _ => rfl
  | .cons head tail, h => by
      rw [Stmts.isOrderly, Bool.and_eq_true, Bool.and_eq_true] at h
      rw [Stmts.jumps, head.jumps_of_isOrderly h.1.1, tail.jumps_of_isOrderly h.2, ite_self]

end

/-! ### Generation from start to end -/

/-- The main function before anything is generated. -/
def entrySite : Site :=
  ⟨((Ir.Function.new "main" ⟨.void, [], false⟩).appendBlock "entry").2, [], false⟩

theorem ready_start {table : ScopeTable} (hwalked : Walked table [[]] 1) (hinside : table.path ≠ [])
    (draft : Draft) : Ready draft table (Generation.start table draft) entrySite [[]] 1 := by
  have hstage : Stage (Generation.start table draft) entrySite := ⟨rfl, by decide, rfl⟩
  have hnamed : entrySite.function.Named := by
    have hempty : (Ir.Function.new "main" ⟨.void, [], false⟩).Named := fun name h => by
      simp [Ir.Function.block?, Ir.Function.new] at h
    exact (Ir.Function.appended_appendBlock hempty "entry").named hempty
  refine ⟨hstage, ⟨⟨hstage.current, rfl, hnamed⟩, rfl, by simp [entrySite]⟩, hwalked, by simp [Kept], ?_, hinside,
    Cached.refl _, Extends.refl _⟩
  intro target htarget
  cases htarget

/-- What is left of generation when all statements have been generated. -/
def finishMain : Emit Unit := do
  unless ← Emit.isTerminated do Emit.terminate (.ret none)

/-- The code of the statements is that of the main function, which ends behind them. -/
def Compiled (statements : Stmts) (module : Ir.Module) : Prop :=
  ∃ f printing after finish, module = ⟨.function f :: extras printing⟩ ∧ f.name = "main" ∧
    Develops entrySite.function "entry" f ∧
    ∀ w : Machine.Setting, w.function = f → (printing = true → Prints w) →
      Simulates w none 1 [[]] ⟨"entry", 0⟩ (Stmts.exec · statements) after finish ∧
        codeAt w finish = [.ret none]

theorem compiled_of_ok {table : ScopeTable} {draft : Draft} {statements : Stmts} {u v : PUnit}
    {g g' : Generation} {depth : Nat} (hwalked : Walked table [[]] 1) (hpath : table.path = [0])
    (hentered : table.entered = [0])
    (hfits : statements.part.Fits draft.graph table 0 0 1 [[]] false)
    (hloop : (forIn statements.values PUnit.unit fun statement _ => do
      let _ ← Emit.visitWithin depth statement
      pure (ForInStep.yield PUnit.unit) : Emit PUnit) (Generation.start table draft) = .ok u g)
    (hfinish : finishMain g = .ok v g') : Compiled statements g'.module := by
  have hready := ready_start hwalked (by simp [hpath]) draft
  have hcurrent : (Generation.start table draft).table.current = 0 := by
    simp [ScopeTable.current, Generation.start, hpath]
  have hchild : (Generation.start table draft).table.entered.headD 0 = 0 := by
    simp [Generation.start, hentered]
  obtain ⟨s, after, hgenerated⟩ := statements.generates draft table _ g entrySite [[]] 1 depth u hready
    (by rw [hcurrent, hchild]; exact hfits) hloop
  have hopen := hgenerated.goesOn (statements.jumps_of_isOrderly hfits.orderly)
  obtain ⟨_, _, hended, hret⟩ := bind_eq_ok.1 hfinish
  obtain ⟨rfl, rfl⟩ := eq_of_eq_ok (Emit.isTerminated_open hopen) hended
  obtain ⟨f, rfl, -, hgrows, hclosed⟩ := terminate_ok hgenerated.grows.stage hopen rfl hret
  have hblock : f.block? g.place.block = some ⟨g.place.block, s.code ++ [.ret none]⟩ := hclosed.block
  refine ⟨f, s.printing, after, s.pos g, congrArg Ir.Module.mk hgrows.stage.globals, hgrows.stage.name,
    (hgenerated.grows.trans hgrows).develops, fun w hw hprints => ⟨hgenerated.simulates w ?_ hprints, ?_⟩⟩
  · refine hgrows.develops.final ⟨fun place block hplace => ?_⟩
    exact ⟨block, by rw [hw, hplace], Grown.refl _ _⟩
  · simp [codeAt, Site.pos, hw, hblock]

/-! ### Runs of the module -/

/-- The texts that prints use are laid out before the run. -/
theorem layOut_printTexts : ∀ entry ∈ printTexts, ∃ address,
    (Machine.layOut (extras true) [] {}).1.lookup entry.1 = some address ∧
      (Machine.layOut (extras true) [] {}).2.textAt? address = some entry.2 := by
  have hcheck : ∀ entry ∈ printTexts, ((Machine.layOut (extras true) [] {}).1.lookup entry.1).any fun address =>
      (Machine.layOut (extras true) [] {}).2.textAt? address == some entry.2 := by
    decide +kernel
  intro entry hentry
  obtain ⟨address, hlookup, htext⟩ := Option.any_eq_true .. |>.1 (hcheck entry hentry)
  exact ⟨address, hlookup, by simpa using htext⟩

theorem block?_of_first? {f : Ir.Function} {name : String} (h : f.first? = some name) :
    ∃ block, f.blocks.head? = some block ∧ f.block? name = some block := by
  unfold Ir.Function.first? at h
  unfold Ir.Function.block?
  cases hblocks : f.blocks with
  | nil => simp [hblocks] at h
  | cons block rest =>
      rw [hblocks, List.head?_cons, Option.map_some, Option.some.injEq] at h
      exact ⟨block, rfl, by simp [h]⟩

def settingOf (f : Ir.Function) (printing : Bool) (input : List UInt8) : Machine.Setting where
  module := ⟨.function f :: extras printing⟩
  globals := (Machine.layOut (extras printing) [] {}).1
  input := input
  function := f

theorem start?_eq {f : Ir.Function} (printing : Bool) (input : List UInt8) (hname : f.name = "main")
    (hfirst : f.first? = some "entry") :
    State.start? ⟨.function f :: extras printing⟩ input =
      some (stateAt (settingOf f printing input) ⟨"entry", 0⟩ [] (Machine.layOut (extras printing) [] {}).2 []) := by
  obtain ⟨block, hhead, hblock⟩ := block?_of_first? hfirst
  simp only [State.start?, Ir.Module.function?_cons_function, hname, if_true, State.enter?, hhead, stateAt, codeAt,
    settingOf, hblock, Machine.Setting.stateAt, List.zip_nil_right, Option.bind_eq_bind, Option.bind_some, Option.pure_def,
    Option.map_some, Option.getD_some, List.drop_zero, Machine.layOut]

theorem prints_settingOf (f : Ir.Function) (hname : f.name = "main") (input : List UInt8) :
    Prints (settingOf f true input) := by
  refine ⟨⟨Ir.Function.new "printf" ⟨Ir.Ty.i64, [Ir.Ty.text], true⟩, ?_, rfl⟩, fun entry hentry => ?_⟩
  · show Ir.Module.function? ⟨.function f :: extras true⟩ "printf" = _
    rw [Ir.Module.function?_cons_function, hname, if_neg (by decide)]
    rfl
  · obtain ⟨address, hlookup, -⟩ := layOut_printTexts entry hentry
    exact ⟨address, hlookup⟩

theorem covers_start (f : Ir.Function) (printing : Bool) (input : List UInt8) :
    Covers (settingOf f printing input) [[]] [[]] [] (Machine.layOut (extras printing) [] {}).2 := by
  refine ⟨.cons .nil .nil, by simp, fun entry hentry address haddress => ?_⟩
  cases printing with
  | false => cases haddress
  | true =>
      obtain ⟨address', hlookup, htext⟩ := layOut_printTexts entry hentry
      rw [Option.some.inj (haddress.symm.trans hlookup), htext]

/-- A run of the module of a program prints what the program does. -/
theorem Compiled.yields_iff {statements : Stmts} {module : Ir.Module} (h : Compiled statements module)
    (id : NodeId) (input : List UInt8) (trace : List (List UInt8)) :
    Machine.Yields module input trace ↔ (Program.mk id statements).Terminates trace := by
  obtain ⟨f, printing, after, finish, rfl, hname, hdevelops, hcode⟩ := h
  have hstart := start?_eq printing input hname (hdevelops.first (by decide))
  obtain ⟨hsimulates, hret⟩ := hcode (settingOf f printing input) rfl fun hprinting => by
    subst hprinting
    exact prints_settingOf f hname input
  have hreached : ∀ fuel, Reached _ _ fuel none 1 [[]] after finish (statements.exec fuel { scopes := [[]] }) :=
    fun fuel => hsimulates fuel { scopes := [[]] } [] _ (covers_start f printing input)
  -- A program that has come to its end takes the machine to the return.
  have hdone : ∀ fuel store, statements.exec fuel { scopes := [[]] } = .done store →
      ∃ steps last, (stateAt (settingOf f printing input) ⟨"entry", 0⟩ [] (Machine.layOut (extras printing) [] {}).2
        []).run steps = (.finished, last) ∧ last.world.printed = store.printed := by
    intro fuel store hexec
    have hend := hreached fuel
    rw [hexec] at hend
    obtain ⟨count, registers, memory, hleads, -⟩ := hend
    have hlast : (stateAt (settingOf f printing input) finish registers memory store.printed).run 1 =
        (.finished, { (settingOf f printing input).stateAt [] registers memory store.printed with frames := [] }) := by
      rw [stateAt, hret]
      rfl
    exact ⟨count + 1, _, Machine.run_of_leads hleads hlast, rfl⟩
  constructor
  · rintro ⟨start, steps, last, hsome, hrun, rfl⟩
    obtain rfl := Option.some.inj (hstart.symm.trans hsome)
    cases hexec : statements.exec steps { scopes := [[]] } with
    | done store =>
        obtain ⟨steps', last', hrun', hprinted⟩ := hdone steps store hexec
        exact ⟨steps, store, hexec, by rw [← hprinted, Machine.last_eq hrun hrun' (by simp) (by simp)]⟩
    | broke store =>
        have hend := hreached steps
        rw [hexec] at hend
        obtain ⟨_, _, _, _, hnone, -⟩ := hend
        cases hnone
    | timeout =>
        have hend := hreached steps
        rw [hexec] at hend
        obtain ⟨count, _, hle, hleads⟩ := hend
        have := Machine.lt_of_leads_of_run hleads hrun (by simp)
        omega
    | stuck =>
        have hend := hreached steps
        rw [hexec] at hend
        exact hend.elim
  · rintro ⟨fuel, store, hexec, rfl⟩
    obtain ⟨steps, last, hrun, hprinted⟩ := hdone fuel store hexec
    exact ⟨_, steps, last, hstart, hrun, by rw [hprinted]⟩

end Core

end Scriptlet
