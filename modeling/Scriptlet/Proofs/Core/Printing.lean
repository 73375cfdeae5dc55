import Scriptlet.Proofs.Core.Statements

/-!
The code of prints: a call of the print function with a format for numbers, or one of two such calls with
a word for a truth value.
-/

namespace Scriptlet.Core

open Ir (Instruction Operand)

section Globals

variable {g g' : Generation} {s : Site} {name : String} {found : Ir.Global}

/-- Once something is printed, all that prints need is there. -/
theorem require_printf (hstage : Stage g s) :
    Emit.require "printf" g =
      .ok () { g with module := ⟨.function s.function :: Emit.requirements "printf"⟩ } := by
  obtain ⟨⟨name, prototype, arguments, names, blocks⟩, code, printing⟩ := s
  obtain ⟨draft, table, ⟨globals⟩, place, anchor, count, exit⟩ := g
  obtain ⟨-, rfl, rfl⟩ := hstage
  cases printing <;> rfl

theorem global_ok (hstage : Stage g s) (hprinting : s.printing = true) (hname : name ≠ "main")
    (hfound : (Emit.requirements "printf").find? (fun global => global.name == name) = some found) :
    Emit.global name g = .ok found g := by
  have hglobal : g.module.global? name = some found := by
    rw [Ir.Module.global?, hstage.globals, List.find?_cons_of_neg, extras, if_pos hprinting, hfound]
    simpa [Ir.Global.name, hstage.name] using hname.symm
  simp only [Emit.global, Emit.global?, bind_eq_ok, get_eq_ok, pure_eq_ok]
  exact ⟨some found, g, ⟨g, g, ⟨rfl, rfl⟩, hglobal, rfl⟩, by simp⟩

end Globals

def printer : Ir.Global :=
  Emit.external "printf" ⟨Ir.Ty.i64, [Ir.Ty.text], true⟩

section Prints

variable {origin : Draft} {layout : ScopeTable} {g g' g₁ g₂ g₃ : Generation} {s s' s₁ : Site}
  {f f' : Ir.Function} {slots : Scopes Slot} {next depth size : Nat} {operand value : Operand} {u v : Unit}
  {code instructions : List Instruction} {text format result block merge : String}
variable {e : Expr} {id : NodeId}

theorem writes_text (hopen : g.Open f instructions)
    (h : Emit.toText (.global text (.array size Ir.Ty.i8)) g = .ok operand g') :
    ∃ result f', operand = .register result Ir.Ty.text ∧
      Writes g f [.convert result .bitcast (.global text (.array size Ir.Ty.i8)) Ir.Ty.text] g' f' ∧
      Fresh result f.names.used f'.names.used := by
  simp only [Emit.toText, Emit.convert, bind_eq_ok, Emit.typeOf_eq_ok] at h
  obtain ⟨_, _, ⟨htype, rfl⟩, h⟩ := h
  obtain rfl := Option.some.inj htype
  exact writes_emit hopen (fun _ => rfl) h

theorem writes_print (hopen : g.Open f instructions)
    (h : Emit.call printer [.register format Ir.Ty.text, value] g = .ok operand g') :
    ∃ name prototype f', Writes g f [callPrintf name prototype (.register format Ir.Ty.text) value] g' f' ∧
      name ∉ f.names.used := by
  simp only [printer, Emit.external, Emit.call, bind_eq_ok] at h
  obtain ⟨_, g₁, hcheck, h⟩ := h
  obtain rfl : g = g₁ := by
    have hok : Emit.checkArguments 1 [Ir.Ty.text] [.register format Ir.Ty.text, value] g = .ok () g := rfl
    exact ((EStateM.Result.ok.injEq ..).mp (hok.symm.trans hcheck)).2
  obtain ⟨name, f', -, hwrites, hfresh⟩ := writes_emit hopen (fun _ => rfl) h
  exact ⟨name, _, f', hwrites, hfresh.not_mem⟩

theorem showsWord_ok (hstage : Stage g s) (hopen : g.Open s.function s.code) (hempty : s.code = [])
    (htext : Emit.toText (.global text (.array size Ir.Ty.i8)) g = .ok value g₁)
    (hcall : Emit.call printer [.register format Ir.Ty.text, value] g₁ = .ok operand g₂)
    (hbranch : Emit.branchTo ⟨"main", merge⟩ g₂ = .ok u g₃) :
    ∃ s', Grows g s g₃ s' ∧ Steady g g₃ ∧ g₃.Closed s'.function s'.code ∧
      ∀ w, Final w s'.function → ShowsWord w s.function.names.used g.place.block text format merge := by
  obtain ⟨shown, f₁, rfl, hwrites₁, hshown⟩ := writes_text hopen htext
  obtain ⟨name, prototype, f₂, hwrites₂, hname⟩ := writes_print (hwrites₁.isOpen hopen) hcall
  have hwrites := hwrites₁.trans hopen.name hwrites₂
  have hgrows₂ := grows_writes hstage hwrites
  obtain ⟨f₃, rfl, hwrote, hgrows₃, hclosed⟩ := terminate_ok hgrows₂.stage (hwrites.isOpen hopen) rfl hbranch
  refine ⟨_, hgrows₂.trans hgrows₃, hwrites.steady.trans ⟨rfl, rfl, rfl⟩, hclosed, fun w hfinal => ?_⟩
  have hblock : f₃.block? g₂.place.block = some ⟨g₂.place.block, _⟩ := hclosed.block
  rw [hwrites.place, hempty, List.append_assoc] at hblock
  have hcode := hfinal.code hblock (Or.inl (by simp))
  exact ⟨shown, name, prototype, _, _, hshown.not_mem, fun hmem => hname (hwrites₁.wrote.used hmem), hcode⟩

theorem ShowsWord.mono {w : Machine.Setting} {used used' : List String} (h : ShowsWord w used' block text format merge)
    (hused : used ⊆ used') : ShowsWord w used block text format merge := by
  obtain ⟨shown, name, prototype, type, rest, hshown, hname, hcode⟩ := h
  exact ⟨shown, name, prototype, type, rest, fun hmem => hshown (hused hmem), fun hmem => hname (hused hmem), hcode⟩

theorem printTruth_ok (hstage : Stage g s) (hopen : g.Open s.function s.code) (hprinting : s.printing = true)
    (hcode : s.code ≠ [])
    (h : Emit.printTruth printer (.register format Ir.Ty.text) (.register result Ir.Ty.i1) g = .ok u g') :
    ∃ yes no merge s', Grows g s g' s' ∧ g'.Open s'.function s'.code ∧ g'.table = g.table ∧
      g'.loopExit = g.loopExit ∧ s'.pos g' = ⟨merge, 0⟩ ∧
      ∀ w, Final w s'.function →
        (∃ rest, codeAt w (s.pos g) = .branchIf (.register result Ir.Ty.i1) yes no :: rest) ∧
        ShowsWord w s.function.names.used yes "true_str" format merge ∧
        ShowsWord w s.function.names.used no "false_str" format merge ∧
        ∀ name ∈ [yes, no, merge], (w.function.block? name).isSome := by
  simp only [Emit.printTruth, bind_eq_ok] at h
  obtain ⟨trueText, _, htrue, falseText, _, hfalse, yes, g₁, hyes, no, g₂, hno, merge, g₃, hmerge, _, g₄, hbranch, _, g₅,
    hgoYes, shownYes, g₆, htextYes, _, g₇, hcallYes, _, g₈, hjumpYes, _, g₉, hgoNo, shownNo, g₁₀, htextNo, _, g₁₁,
    hcallNo, _, g₁₂, hjumpNo, hgoMerge⟩ := h
  obtain ⟨rfl, rfl⟩ := eq_of_eq_ok (global_ok hstage hprinting (by decide) rfl) htrue
  obtain ⟨rfl, rfl⟩ := eq_of_eq_ok (global_ok hstage hprinting (by decide) rfl) hfalse
  obtain ⟨yes, no, merge, f₃, rfl, rfl, rfl, rfl, hgrows₃, hopen₃, hnodup, hblocks⟩ :=
    appendBlocks_ok hstage hopen hyes hno hmerge
  obtain ⟨f₄, rfl, hwrote, hgrows₄, hclosed₄⟩ := terminate_ok hgrows₃.stage hopen₃ rfl hbranch
  have hgrows := hgrows₃.trans hgrows₄
  have hempty₄ : ∀ name ∈ [yes, no, merge], f₄.block? name = some ⟨name, []⟩ := fun name hname => by
    rw [hwrote.there name (hopen.place_ne (hblocks name hname).1), (hblocks name hname).2]
  simp only [List.nodup_cons, List.mem_cons, List.not_mem_nil, or_false, not_or] at hnodup
  obtain ⟨⟨hyesNo, hyesMerge⟩, hnoMerge, -⟩ := hnodup
  -- The word for true.
  obtain ⟨rfl, hopen₅⟩ := goToEnd_ok hgrows₄.stage hclosed₄.named (hempty₄ yes (by simp)) hgoYes
  have hgrows₅ := hgrows.move (hblocks yes (by simp)).1 0 []
  obtain ⟨s₈, hgrows₈, hsteady₈, hclosed₈, hshowsYes⟩ :=
    showsWord_ok (s := ⟨f₄, [], s.printing⟩) hgrows₅.stage hopen₅ rfl htextYes hcallYes hjumpYes
  have hempty₈ : ∀ name ∈ [no, merge], s₈.function.block? name = some ⟨name, []⟩ := fun name hname => by
    have hmem : name ∈ [yes, no, merge] := List.mem_cons_of_mem _ hname
    have hne : name ≠ yes := by
      rintro rfl
      simp [hyesNo, hyesMerge] at hname
    rw [hgrows₈.develops.others name hne (by rw [hempty₄ name hmem]; rfl), hempty₄ name hmem]
  -- The word for false.
  obtain ⟨rfl, hopen₉⟩ := goToEnd_ok hgrows₈.stage hclosed₈.named (hempty₈ no (by simp)) hgoNo
  have hgrows₉ := (hgrows₅.trans hgrows₈).move (hblocks no (by simp)).1 0 []
  obtain ⟨s₁₂, hgrows₁₂, hsteady₁₂, hclosed₁₂, hshowsNo⟩ :=
    showsWord_ok (s := { s₈ with code := [] }) hgrows₉.stage hopen₉ rfl htextNo hcallNo hjumpNo
  have hempty₁₂ : s₁₂.function.block? merge = some ⟨merge, []⟩ := by
    rw [hgrows₁₂.develops.others merge (Ne.symm hnoMerge) (by rw [hempty₈ merge (by simp)]; rfl), hempty₈ merge (by simp)]
  obtain ⟨rfl, hopen'⟩ := goToEnd_ok hgrows₁₂.stage hclosed₁₂.named hempty₁₂ hgoMerge
  refine ⟨yes, no, merge, { s₁₂ with code := [] }, (hgrows₉.trans hgrows₁₂).move (hblocks merge (by simp)).1 0 [], hopen',
    hsteady₁₂.table.trans hsteady₈.table, hsteady₁₂.loopExit.trans hsteady₈.loopExit, rfl, fun w hfinal => ?_⟩
  have hfinal₈ : Final w s₈.function := hgrows₁₂.develops.final hfinal
  have hfinal₄ : Final w f₄ := hgrows₈.develops.final hfinal₈
  have hblock : f₄.block? g.place.block = some ⟨g.place.block, _⟩ := hclosed₄.block
  have hlength := List.length_pos_iff.2 hcode
  refine ⟨⟨_, hfinal₄.code hblock (Or.inl ?_)⟩, (hshowsYes w hfinal₈).mono hgrows.develops.used,
    (hshowsNo w hfinal).mono (List.Subset.trans hgrows.develops.used hgrows₈.develops.used),
    fun name hname => hfinal₄.isSome (by rw [hempty₄ name hname]; rfl)⟩
  simp only [List.length_append, List.length_singleton]
  omega

theorem require_ok (hstage : Stage g s) (hopen : g.Open s.function s.code)
    (h : Emit.require "printf" g = .ok u g') :
    Grows g s g' { s with printing := true } ∧ g'.Open s.function s.code ∧ Steady g g' := by
  obtain ⟨-, rfl⟩ := eq_of_eq_ok (require_printf hstage) h
  have hstage' : Stage { g with module := ⟨.function s.function :: Emit.requirements "printf"⟩ }
      { s with printing := true } := ⟨hstage.place, hstage.name, rfl⟩
  exact ⟨⟨hstage', Develops.refl _ _, Or.inl rfl, fun _ => rfl, Cached.refl _⟩,
    ⟨⟨hstage'.current, hopen.block, hopen.named⟩, hopen.anchor, hopen.plain⟩, rfl, rfl, rfl⟩

theorem format_ok (hready : Ready origin layout g s slots next) (hwrites : Writes g s.function code g₁ f)
    (hrequire : Emit.require "printf" g₁ = .ok u g₂)
    (htext : Emit.toText (.global text (.array size Ir.Ty.i8)) g₂ = .ok operand g₃) :
    ∃ format f', operand = .register format Ir.Ty.text ∧ Steady g g₃ ∧
      Grows g s g₃ ⟨f', s.code ++ code ++
        [.convert format .bitcast (.global text (.array size Ir.Ty.i8)) Ir.Ty.text], true⟩ ∧
      g₃.Open f' (s.code ++ code ++
        [.convert format .bitcast (.global text (.array size Ir.Ty.i8)) Ir.Ty.text]) ∧
      Fresh format f.names.used f'.names.used := by
  have hgrows₁ := grows_writes hready.stage hwrites
  obtain ⟨hgrows₂, hopen₂, hsteady⟩ :=
    require_ok hgrows₁.stage (hwrites.isOpen hready.isOpen) hrequire
  obtain ⟨format, f', rfl, hwrites₃, hformat⟩ := writes_text hopen₂ htext
  have hgrows₃ := grows_writes hgrows₂.stage hwrites₃
  exact ⟨format, f', rfl, (hwrites.steady.trans hsteady).trans hwrites₃.steady,
    (hgrows₁.trans hgrows₂).trans hgrows₃, hwrites₃.isOpen hopen₂, hformat⟩

theorem generated_printInt {argument : NodeId} (hready : Ready origin layout g s slots next)
    (hwrites : Writes g s.function code g₁ f)
    (hcomputes : ∀ w, Computes w slots s.function.names.used code result f.names.used e .int)
    (hrequire : Emit.require "printf" g₁ = .ok u g₂)
    (htext : Emit.toText (Emit.constantText "print_fmt_int" "%lld\n").operand g₂ = .ok value g₃)
    (hcall : Emit.call printer [value, .register result Ir.Ty.i64] g₃ = .ok operand g') :
    ∃ s', Generated 0 slots next 0 0 false (Stmt.exec · (.print id argument e)) g s slots g' s' := by
  obtain ⟨format, f₃, rfl, hsteady, hgrows₃, hopen₃, hformat⟩ := format_ok hready hwrites hrequire htext
  obtain ⟨name, prototype, f₄, hwrites₄, hname⟩ := writes_print hopen₃ hcall
  have hopen := hwrites₄.isOpen hopen₃
  rw [List.append_assoc, List.append_assoc] at hopen
  have hgrows := hgrows₃.trans (grows_writes hgrows₃.stage hwrites₄)
  refine ⟨_, generated_open hready hgrows (hsteady.trans hwrites₄.steady) hopen fun w hprints hcode => ?_⟩
  rw [List.append_assoc] at hcode
  exact simulates_printInt (hprints rfl) hready.kept (hcomputes w) hformat.not_mem
    (fun hmem => hname (hformat.subset hmem)) hcode

theorem generated_printBool {argument : NodeId} (hready : Ready origin layout g s slots next)
    (hwrites : Writes g s.function code g₁ f)
    (hcomputes : ∀ w, Computes w slots s.function.names.used code result f.names.used e .bool)
    (hrequire : Emit.require "printf" g₁ = .ok u g₂)
    (htext : Emit.toText (Emit.constantText "print_fmt_bool" "%s\n").operand g₂ = .ok value g₃)
    (htruth : Emit.printTruth printer value (.register result Ir.Ty.i1) g₃ = .ok v g') :
    ∃ s', Generated 0 slots next 0 0 false (Stmt.exec · (.print id argument e)) g s slots g' s' := by
  obtain ⟨format, f₃, rfl, hsteady, hgrows₃, hopen₃, hformat⟩ := format_ok hready hwrites hrequire htext
  obtain ⟨yes, no, merge, s', hgrows', hopen, htable, hexit, hpos, hcode⟩ :=
    printTruth_ok hgrows₃.stage hopen₃ rfl (by simp) htruth
  have hgrows := hgrows₃.trans hgrows'
  refine ⟨s', hgrows, hexit.trans hsteady.loopExit, ?_, hready.kept.mono hgrows.develops.used, fun _ => hopen, by simp,
    fun w hfinal hprints => ?_⟩
  · rw [htable, hsteady.table]
    exact Advanced.refl hready.walked
  · obtain ⟨⟨rest, hrest⟩, hyes, hno, hopen'⟩ := hcode w hfinal
    rw [List.append_assoc] at hopen₃
    have hstart := codeAt_open hopen₃ hsteady.place (hgrows'.develops.final hfinal) true
    rw [← List.append_assoc s.code, hrest, List.append_assoc] at hstart
    rw [hpos]
    exact simulates_printBool (hprints (hgrows'.printing rfl)) hready.kept (hcomputes w) hformat hstart hyes
      hno (hopen' yes (by simp)) (hopen' no (by simp)) (hopen' merge (by simp))

theorem firstArgument_ok {argument : NodeId} {found : Value}
    (hshown : Shown g.graph id .call [(.name, .text "print"), (.args, .list [.node argument])])
    (hargument : Shown g.graph argument .argument [(.value, e.value)])
    (h : Emit.firstArgument (.node id) g = .ok found g') : found = e.value ∧ g' = g := by
  simp only [Emit.firstArgument, bind_eq_ok, Emit.attribute_eq_ok] at h
  obtain ⟨args, _, ⟨hargs, rfl⟩, items, _, hitems, h⟩ := h
  obtain rfl : args = .list [.node argument] := hshown.get_eq hargs
  obtain ⟨rfl, rfl⟩ := lift_itemsOf_list_eq_ok.1 hitems
  simp only [List.head?_cons, Emit.attribute_eq_ok] at h
  exact ⟨hargument.get_eq h.1 (by simp), h.2.symm⟩

theorem Expr.reading_eq {graph : Graph} {types : Types} {ty : Ty}
    (hmarked : ∀ id ty, (id, some ty) ∈ e.shows types → noted graph id = some ty) (hty : e.typeIn types = some ty) :
    e.reading graph = some ty := by
  cases e with
  | var id name => exact hmarked id ty (by simpa [Expr.shows, Expr.typeIn] using hty.symm)
  | _ => exact hty

def formatOf : Ty → Ir.Global
  | .int => Emit.constantText "print_fmt_int" "%lld\n"
  | .bool => Emit.constantText "print_fmt_bool" "%s\n"

theorem generates_print (id argument : NodeId) (value : Expr) : (Stmt.print id argument value).Generates := by
  intro origin layout g g' s slots next depth operand hready hfits h
  obtain ⟨depth, rfl, hnode⟩ := visitWithin_node h
  obtain ⟨⟨hshown, hargument, hstands⟩, hnoted, -, hsound, hmarked, -⟩ := hfits
  have hshownAt : ∀ draft, Cached origin draft → Shown draft.graph id .call _ ∧
      Shown draft.graph argument .argument _ := fun draft hcached =>
    ⟨hcached.retyped.shown hshown,
      hcached.retyped.shown hargument⟩
  obtain ⟨hshown₀, hargument₀⟩ := hshownAt _ hready.cached
  simp only [hshown₀.kind, Emit.emitNode, Emit.emitCall, bind_eq_ok, Emit.attribute_eq_ok] at hnode
  obtain ⟨name, _, ⟨hname, rfl⟩, hprint⟩ := hnode
  obtain rfl : name = .text "print" := hshown₀.get_eq hname
  replace hprint : Emit.emitPrint (Emit.visitWithin depth) (.node id) g = .ok operand g' := hprint
  simp only [Emit.emitPrint, bind_eq_ok, Emit.typeOf_eq_ok] at hprint
  obtain ⟨_, _, hfirst, given, g₁, hvisit, _, _, hsecond, type, g₂, htype, _, _, ⟨hgiven, rfl⟩, hprint⟩ := hprint
  obtain ⟨rfl, rfl⟩ := firstArgument_ok hshown₀ hargument₀ hfirst
  obtain ⟨ty, code, result, f₁, rfl, hty, hnonempty, hwrites, hcomputes⟩ :=
    hready.coded ⟨hstands, hnoted⟩ hsound hvisit
  have hcached₁ := hready.cached.trans hwrites.cached
  obtain ⟨hshown₁, hargument₁⟩ := hshownAt _ hcached₁
  obtain ⟨rfl, rfl⟩ := firstArgument_ok hshown₁ hargument₁ hsecond
  obtain ⟨draft, rfl, hcached, read, rfl, hreads⟩ :=
    typeOf_generation (Expr.Tidy.retyped ⟨hstands, hnoted⟩ hcached₁.retyped) htype
  obtain rfl := Option.some.inj hgiven
  have hwrites₂ := hwrites.remember hcached
  have hread : read = some ty ∨ read = none := by
    refine hreads.imp (fun heq => ?_) And.left
    rw [heq, hwrites.cached.reading, hready.cached.reading]
    exact Expr.reading_eq hmarked hty
  have hname : Emit.printFormat? ty.ir = some (formatOf ty).name := by cases ty <;> rfl
  rw [hname] at hprint
  simp only [bind_eq_ok] at hprint
  obtain ⟨_, g₃, hrequire, _, _, hglobal, format, g₄, htext, _, _, hprinter, hshow⟩ := hprint
  obtain ⟨hgrows₃, hopen₃, -⟩ :=
    require_ok (grows_writes hready.stage hwrites₂).stage (hwrites₂.isOpen hready.isOpen) hrequire
  have hformat : Emit.global (formatOf ty).name g₃ = .ok (formatOf ty) g₃ :=
    global_ok hgrows₃.stage rfl (by cases ty <;> decide) (by cases ty <;> rfl)
  obtain ⟨rfl, rfl⟩ := eq_of_eq_ok hformat hglobal
  cases ty with
  | int =>
      obtain ⟨_, _, -, -, hgrows₄, -⟩ := format_ok hready hwrites₂ hrequire htext
      obtain ⟨rfl, rfl⟩ := eq_of_eq_ok (global_ok hgrows₄.stage rfl (by decide) rfl) hprinter
      rcases hread with rfl | rfl
      · obtain ⟨_, g₅, hcall, hdone⟩ := bind_eq_ok.1 hshow
        obtain ⟨-, rfl⟩ := pure_eq_ok.1 hdone
        obtain ⟨s', hgenerated⟩ := generated_printInt hready hwrites₂ hcomputes hrequire htext hcall
        exact ⟨s', slots, hgenerated, rfl⟩
      · obtain ⟨_, _, -, hfail⟩ := bind_eq_ok.1 hshow
        simp at hfail
  | bool =>
      obtain ⟨_, _, -, -, hgrows₄, -⟩ := format_ok hready hwrites₂ hrequire htext
      obtain ⟨rfl, rfl⟩ := eq_of_eq_ok (global_ok hgrows₄.stage rfl (by decide) rfl) hprinter
      rcases hread with rfl | rfl
      · obtain ⟨_, g₅, htruth, hdone⟩ := bind_eq_ok.1 hshow
        obtain ⟨-, rfl⟩ := pure_eq_ok.1 hdone
        obtain ⟨s', hgenerated⟩ := generated_printBool hready hwrites₂ hcomputes hrequire htext htruth
        exact ⟨s', slots, hgenerated, rfl⟩
      · obtain ⟨_, _, -, hfail⟩ := bind_eq_ok.1 hshow
        simp at hfail

end Prints

end Scriptlet.Core
