import Scriptlet.Proofs.Core.Statements

/-!
The code of conditionals.  Each branch that comes to its end jumps to the merge block, which is made
when the first such branch ends.
-/

namespace Scriptlet.Core

open Ir (Instruction Operand)

/-- The branches of a conditional have been generated, from the block in which the first condition is
computed to the end of the last branch. -/
structure Merged (slots : Scopes Slot) (next blocks size : Nat) (jumps : Bool)
    (run : Nat → Store → Outcome) (g : Generation) (s : Site) (merge : Option BlockRef)
    (g' : Generation) (s' : Site) (merge' : Option BlockRef) : Prop where
  grows : Grows g s g' s'
  loopExit : g'.loopExit = g.loopExit
  advanced : Advanced g.table slots next blocks size g'.table slots
  closed : g'.Closed s'.function s'.code
  awaits : Awaits s'.function merge' g'.place.block
  fresh : merge' = merge ∨
    merge = none ∧ ∀ ref, merge' = some ref → s.function.block? ref.block = none
  stays : jumps = true → merge' = merge
  joins : jumps = false → merge'.isSome
  simulates : ∀ w, Final w s'.function → (s'.printing = true → Prints w) →
    ∀ finish : Pos, (∀ ref, merge' = some ref → finish = ⟨ref.block, 0⟩) →
      Simulates w g.loopExit 0 slots (s.pos g) run slots finish

section Branches

variable {origin : Draft} {layout : ScopeTable} {g g' g₁ g₂ g₃ g₄ g₅ : Generation} {s s' s₁ : Site}
  {slots : Scopes Slot} {next blocks size depth : Nat} {operand : Operand} {condition : Expr}
  {merge merge' : Option BlockRef} {jumps : Bool} {run : Nat → Store → Outcome} {u v : Unit}
  {yes no : BlockRef} {base base' : String}
variable {body : Block} {rest : Branches}

theorem Grows.block?_eq (h : Grows g s g' s') {name : String} (hname : name ≠ g.place.block)
    (hsome : (s.function.block? name).isSome) : s'.function.block? name = s.function.block? name :=
  h.develops.others name hname hsome

theorem Grows.place_ne (h : Grows g s g' s') {name : String} (hname : name ≠ g.place.block)
    (hsome : (s.function.block? name).isSome) : name ≠ g'.place.block := by
  rintro rfl
  rcases h.place with hsame | hnone
  · exact hname hsame
  · rw [hnone] at hsome
    cases hsome

theorem Awaits.grows (h : Awaits s.function merge g.place.block) (hgrows : Grows g s g' s') :
    Awaits s'.function merge g'.place.block := by
  intro ref href
  obtain ⟨hmain, hempty, hne⟩ := h ref href
  have hsome : (s.function.block? ref.block).isSome := by rw [hempty]; rfl
  exact ⟨hmain, by rw [hgrows.block?_eq hne hsome, hempty], hgrows.place_ne hne hsome⟩

theorem endBranch_ok (hstage : Stage g s) (hawaits : Awaits s.function merge g.place.block)
    (hgoes : jumps = false → g.Open s.function s.code)
    (hends : jumps = true → g.Closed s.function s.code) (h : Emit.endBranch merge g = .ok merge' g') :
    ∃ s', Grows g s g' s' ∧ Steady g g' ∧ g'.Closed s'.function s'.code ∧
      Awaits s'.function merge' g'.place.block ∧
      (merge' = merge ∨ merge = none ∧ ∀ ref, merge' = some ref → s.function.block? ref.block = none) ∧
      (jumps = true → merge' = merge) ∧ (jumps = false → merge'.isSome) ∧
      ∀ w, Final w s'.function → jumps = false → ∀ ref, merge' = some ref →
        JumpsTo w s'.function.names.used (s.pos g) ref.block := by
  cases jumps with
  | true =>
      obtain ⟨rfl, s', hclosed, hgrows, hsteady⟩ := endBranch_closed hstage (hends rfl) h
      exact ⟨s', hgrows, hsteady, hclosed, hawaits.grows hgrows, Or.inl rfl, fun _ => rfl, by simp, by simp⟩
  | false =>
      obtain ⟨m, f', rfl, hmerge, hempty, hne, hgrows, hclosed, hsteady⟩ :=
        endBranch_open hstage (hgoes rfl) hawaits h
      have hplace : g'.place.block = g.place.block := by rw [hsteady.place]
      refine ⟨_, hgrows, hsteady, hclosed, ?_, ?_, by simp, fun _ => rfl, ?_⟩
      · rintro _ ⟨⟩
        exact ⟨rfl, hempty, by rwa [hplace]⟩
      · refine hmerge.imp Eq.symm fun hnone => ⟨hnone.1, ?_⟩
        rintro _ ⟨⟩
        exact hnone.2
      · rintro w hfinal - _ ⟨⟩
        have hblock := hclosed.block
        rw [hplace] at hblock
        exact hfinal.jumpsTo hblock (by rw [hempty]; rfl)

/-- A block that ends with a condition and a branch decides. -/
theorem Final.decides {w : Machine.Setting} {f : Ir.Function} {used used' : List String} {code before : List Instruction}
    {block result yes no : String} (hfinal : Final w f) (hcomputes : Computes w slots used code result used' condition .bool)
    (hkept : Kept slots used) (hcode : code ≠ [])
    (hblock : f.block? block = some ⟨block, before ++ code ++ [.branchIf (.register result Ir.Ty.i1) yes no]⟩)
    (hyes : (f.block? yes).isSome) (hno : (f.block? no).isSome) : Decides w slots ⟨block, before.length⟩ condition yes no := by
  have hlength := List.length_pos_iff.2 hcode
  rw [List.append_assoc] at hblock
  have hstart := hfinal.code hblock (Or.inl (by simp only [List.length_append, List.length_singleton]; omega))
  rw [List.append_assoc] at hstart
  exact hcomputes.decides hkept hstart (hfinal.isSome hyes) (hfinal.isSome hno)

/-- Code that computes a condition and goes on in one of two new blocks. -/
structure Forks (slots : Scopes Slot) (condition : Expr) (g : Generation) (s : Site) (yes no : String)
    (g' : Generation) (s' : Site) : Prop where
  grows : Grows g s g' s'
  isOpen : g'.Open s'.function s'.code
  table : g'.table = g.table
  loopExit : g'.loopExit = g.loopExit
  start : s'.pos g' = ⟨yes, 0⟩
  other : s'.function.block? no = some ⟨no, []⟩
  otherNew : s.function.block? no = none
  apart : no ≠ g'.place.block
  decides : ∀ w, Final w s'.function → Decides w slots (s.pos g) condition yes no

theorem forks_ok (hready : Ready origin layout g s slots next) (htidy : condition.Tidy origin.graph)
    (hbool : condition.typeIn (slotTypes slots) ≠ some .int) (hsound : condition.Sound (slotTypes slots))
    (hcondition : Emit.visitWithin depth condition.value g = .ok operand g₁)
    (hyes : Emit.appendBlock base g₁ = .ok yes g₂) (hno : Emit.appendBlock base' g₂ = .ok no g₃)
    (hbranch : Emit.branchIf operand yes no g₃ = .ok u g₄) (hgo : Emit.goToEnd yes g₄ = .ok v g₅) :
    ∃ yes' no' s', yes = ⟨"main", yes'⟩ ∧ no = ⟨"main", no'⟩ ∧ s'.code = [] ∧
      Forks slots condition g s yes' no' g₅ s' := by
  obtain ⟨ty, code, result, f₁, rfl, hty, hcode, hwrites, hcomputes⟩ :=
    hready.coded htidy hsound hcondition
  obtain rfl : ty = .bool := by
    cases ty
    · exact absurd hty hbool
    · rfl
  have hgrows₁ := grows_writes hready.stage hwrites
  have hopen₁ := hwrites.isOpen hready.isOpen
  obtain ⟨yes', f₂, rfl, rfl, happended₂, hgrows₂, hopen₂⟩ := appendBlock_ok hgrows₁.stage hopen₁ hyes
  obtain ⟨no', f₃, rfl, rfl, happended₃, hgrows₃, hopen₃⟩ := appendBlock_ok hgrows₂.stage hopen₂ hno
  obtain ⟨f₄, rfl, hwrote₄, hgrows₄, hclosed₄⟩ := terminate_ok hgrows₃.stage hopen₃ rfl hbranch
  have hgrows := ((hgrows₁.trans hgrows₂).trans hgrows₃).trans hgrows₄
  -- Both blocks are new, and they are two.
  have hnoneYes := happended₂.none hopen₁.named
  have hnoneNo := happended₃.none hopen₂.named
  have hyesPlace := hopen₁.place_ne hnoneYes
  have hnoPlace := hopen₂.place_ne hnoneNo
  have hapart : yes' ≠ no' := by
    rintro rfl
    simp [happended₂.here] at hnoneNo
  have hblockYes : f₄.block? yes' = some ⟨yes', []⟩ := by
    rw [hwrote₄.there yes' hyesPlace, happended₃.there yes' hapart, happended₂.here]
  have hblockNo : f₄.block? no' = some ⟨no', []⟩ := by
    rw [hwrote₄.there no' hnoPlace, happended₃.here]
  obtain ⟨rfl, hopen₅⟩ := goToEnd_ok hgrows₄.stage hclosed₄.named hblockYes hgo
  refine ⟨yes', no', ⟨f₄, [], s.printing⟩, rfl, rfl, rfl,
    hgrows.move (hgrows₁.develops.none hnoneYes) 0 [], hopen₅, hwrites.table, by rw [hwrites.state]; rfl, rfl,
    hblockNo, (hgrows₁.trans hgrows₂).develops.none hnoneNo, hapart.symm, ?_⟩
  intro w hfinal
  have hblock : f₄.block? g₁.place.block = some ⟨g₁.place.block, s.code ++ code ++ _⟩ := hclosed₄.block
  rw [hwrites.place] at hblock
  exact hfinal.decides (hcomputes w) hready.kept hcode hblock (by rw [hblockYes]; rfl) (by rw [hblockNo]; rfl)

/-- What follows the branches with a condition has been visited. -/
def VisitedLast (depth : Nat) (last : Value) (g g' : Generation) : Prop :=
  if last.isNull then g' = g else ∃ operand, Emit.visitWithin depth last g = .ok operand g'

def Branches.Generates (branches : Branches) : Prop :=
  ∀ origin layout g g₁ g₂ g' s slots next depth position merge merge₁ merge',
    Ready origin layout g s slots next → Awaits s.function merge g.place.block →
    branches.part.Fits origin.graph layout g.table.current (g.table.entered.headD 0) next
      (slotTypes slots) g.loopExit.isSome →
    Emit.emitBranches (Emit.visitWithin depth) position branches.pairs merge g = .ok merge₁ g₁ →
    (Cached g.toDraft g₁.toDraft → VisitedLast depth branches.last g₁ g₂) → Emit.endBranch merge₁ g₂ = .ok merge' g' →
    ∃ s', Merged slots next branches.blocks branches.size branches.jumps (Branches.exec · branches)
      g s merge g' s' merge'

/-- A part that leaves the slots as they are, and the end of the branch behind it. -/
theorem Generated.merged (h : Generated 0 slots next blocks size jumps run g s slots g₁ s₁)
    (hawaits : Awaits s.function merge g.place.block)
    (hnever : jumps = true → ∀ fuel store next, run fuel store ≠ .done next)
    (hend : Emit.endBranch merge g₁ = .ok merge' g') :
    ∃ s', Merged slots next blocks size jumps run g s merge g' s' merge' := by
  obtain ⟨s', hgrows, hsteady, hclosed, hawaits', hfresh, hstays, hjoins, hjumpsTo⟩ :=
    endBranch_ok h.grows.stage (hawaits.grows h.grows) h.goesOn h.ended hend
  refine ⟨s', h.grows.trans hgrows, hsteady.loopExit.trans h.loopExit, ?_, hclosed, hawaits', ?_, hstays, hjoins,
    fun w hfinal hprints finish hfinish => ?_⟩
  · rw [hsteady.table]
    exact h.advanced
  · exact hfresh.imp_right fun hnew => ⟨hnew.1, fun ref href => h.grows.develops.none (hnew.2 ref href)⟩
  · have hsimulates := h.simulates w (hgrows.develops.final hfinal)
      fun hprinting => hprints (hgrows.printing hprinting)
    cases jumps with
    | true => exact hsimulates.of_never_done (hnever rfl) slots finish
    | false =>
        obtain ⟨ref, href⟩ := Option.isSome_iff_exists.1 (hjoins rfl)
        rw [hfinish ref href]
        exact hsimulates.jump (h.kept.mono hgrows.develops.used) (hjumpsTo w hfinal rfl ref href)

theorem generates_none : Branches.none.Generates := by
  intro origin layout g g₁ g₂ g' s slots next depth position merge merge₁ merge' hready hawaits hfits
    hbranches hlast hend
  simp only [Branches.pairs, Emit.emitBranches, pure_eq_ok] at hbranches
  obtain ⟨rfl, rfl⟩ := hbranches
  obtain rfl : g₂ = g := hlast (Cached.refl _)
  refine Generated.merged ⟨Grows.refl hready.stage, rfl, Advanced.refl hready.walked, hready.kept,
    fun _ => hready.isOpen, by simp [Branches.jumps], fun w _ _ => ?_⟩ hawaits
    (by simp [Branches.jumps]) hend
  intro fuel store registers memory hcovers
  exact ⟨0, registers, memory, Machine.Leads.refl _, hcovers⟩

theorem generates_otherwise (hbody : body.Generates) : (Branches.otherwise body).Generates := by
  intro origin layout g g₁ g₂ g' s slots next depth position merge merge₁ merge' hready hawaits hfits
    hbranches hlast hend
  simp only [Branches.pairs, Emit.emitBranches, pure_eq_ok] at hbranches
  obtain ⟨rfl, rfl⟩ := hbranches
  obtain ⟨operand, hvisit⟩ : ∃ operand, Emit.visitWithin depth body.value g = .ok operand g₂ := by
    cases body
    exact hlast (Cached.refl _)
  obtain ⟨hstands, hnoted, hplaced, hsound, hmarked, horderly⟩ := hfits
  obtain ⟨s₂, hgenerated⟩ := hbody origin layout g g₂ s slots next depth operand hready
    ⟨hstands, hnoted, hplaced, hsound, hmarked, horderly⟩ hvisit
  exact hgenerated.merged hawaits (fun hjumps _ _ _ => body.not_done_of_jumps hjumps) hend

section Arm

variable {body : Block} {rest : Branches} {yes' no' : String} {s₁ s₂ s₃ : Site} {merge₁ : Option BlockRef}

/-- Behind the first branch, generation goes on where its condition does not hold. -/
theorem ready_other (hready : Ready origin layout g s slots next)
    (hawaits : Awaits s.function merge g.place.block) (hforks : Forks slots condition g s yes' no' g₁ s₁)
    (hbody : Merged slots next 1 body.size body.jumps (Block.exec · body) g₁ s₁ merge g₂ s₂ merge₁)
    (hgo : Emit.goToEnd ⟨"main", no'⟩ g₂ = .ok u g₃) :
    g₃ = { g₂ with place := ⟨"main", no'⟩, anchor := 0 } ∧
      Ready origin layout g₃ { s₂ with code := [] } slots (next + body.size) ∧
      Awaits s₂.function merge₁ g₃.place.block ∧ Grows g s g₃ { s₂ with code := [] } := by
  have hsome : (s₁.function.block? no').isSome := by rw [hforks.other]; rfl
  have hempty : s₂.function.block? no' = some ⟨no', []⟩ := by
    rw [hbody.grows.block?_eq hforks.apart hsome, hforks.other]
  obtain ⟨rfl, hopen⟩ := goToEnd_ok hbody.grows.stage hbody.closed.named hempty hgo
  have hgrows := (hforks.grows.trans hbody.grows).move hforks.otherNew 0 []
  have htable : g₁.table = g.table := hforks.table
  have hadvanced := hbody.advanced
  rw [htable] at hadvanced
  refine ⟨rfl, ⟨hgrows.stage, hopen, hadvanced.walked, hready.kept.mono hgrows.develops.used, fun target htarget => ?_,
    by rw [hadvanced.path]; exact hready.inside, hready.cached.trans hgrows.cached,
    hready.layout.trans hadvanced.layout⟩, fun ref href => ?_, hgrows⟩
  · exact hgrows.develops.isSome (hready.exit target (by rw [← hforks.loopExit, ← hbody.loopExit]; exact htarget))
  · obtain ⟨hmain, hblock, -⟩ := hbody.awaits ref href
    refine ⟨hmain, hblock, ?_⟩
    -- A merge block from before was there before this one; a new one came later.
    show ref.block ≠ no'
    rintro rfl
    rcases hbody.fresh with rfl | ⟨-, hnew⟩
    · have := (hawaits ref href).2.1
      rw [hforks.otherNew] at this
      cases this
    · rw [hnew ref href] at hsome
      cases hsome

/-- One more branch in front: its condition and its body, and then the others. -/
theorem merged_arm (hforks : Forks slots condition g s yes' no' g₁ s₁)
    (hbody : Merged slots next 1 body.size body.jumps (Block.exec · body) g₁ s₁ merge g₂ s₂ merge₁)
    (hmove : g₃ = { g₂ with place := ⟨"main", no'⟩, anchor := 0 }) (hgrows : Grows g s g₃ { s₂ with code := [] })
    (hrest : Merged slots (next + body.size) blocks size rest.jumps (Branches.exec · rest) g₃
      { s₂ with code := [] } merge₁ g₄ s₃ merge') :
    Merged slots next (1 + blocks) (body.size + size) (body.jumps && rest.jumps)
      (Branches.exec · (.elif condition body rest)) g s merge g₄ s₃ merge' := by
  subst hmove
  have hadvanced := hbody.advanced
  rw [hforks.table] at hadvanced
  have hexit : g₂.loopExit = g.loopExit := hbody.loopExit.trans hforks.loopExit
  -- The merge block of the first branch is the one of all branches.
  have hkeep : ∀ ref, merge₁ = some ref → merge' = some ref := by
    rintro ref rfl
    exact hrest.fresh.resolve_right fun hnone => by simp at hnone
  refine ⟨hgrows.trans hrest.grows, hrest.loopExit.trans hexit, hadvanced.trans hrest.advanced, hrest.closed,
    hrest.awaits, ?_, fun hjumps => ?_, fun hjumps => ?_, fun w hfinal hprints finish hfinish => ?_⟩
  · rcases hrest.fresh with rfl | ⟨rfl, hnew⟩
    · exact hbody.fresh.imp_right fun hnew =>
        ⟨hnew.1, fun ref href => hforks.grows.develops.none (hnew.2 ref href)⟩
    · refine Or.inr ⟨?_, fun ref href => hgrows.develops.none (hnew ref href)⟩
      exact hbody.fresh.elim Eq.symm And.left
  · rw [Bool.and_eq_true] at hjumps
    rw [hrest.stays hjumps.2, hbody.stays hjumps.1]
  · cases hbodyJumps : body.jumps with
    | false =>
        obtain ⟨ref, href⟩ := Option.isSome_iff_exists.1 (hbody.joins hbodyJumps)
        rw [hkeep ref href]
        rfl
    | true => exact hrest.joins (by simpa [hbodyJumps] using hjumps)
  · have hfinal₂ : Final w s₂.function := hrest.grows.develops.final hfinal
    have htrue := hbody.simulates w hfinal₂ (fun hprinting => hprints (hrest.grows.printing hprinting)) finish
      fun ref href => hfinish ref (hkeep ref href)
    rw [hforks.start, hforks.loopExit] at htrue
    have hfalse : Simulates w g₂.loopExit 0 slots ⟨no', 0⟩ (Branches.exec · rest) slots finish :=
      hrest.simulates w hfinal hprints finish hfinish
    rw [hexit] at hfalse
    exact simulates_choice (hforks.decides w (hbody.grows.develops.final hfinal₂)) htrue hfalse
      fun fuel store => Branches.exec.eq_3 fuel store condition body rest

end Arm

theorem Forks.ready {yes' no' : String} (h : Forks slots condition g s yes' no' g₁ s₁)
    (hready : Ready origin layout g s slots next) : Ready origin layout g₁ s₁ slots next := by
  refine hready.move h.grows h.isOpen h.table fun target htarget => ?_
  rw [h.loopExit] at htarget
  exact h.grows.develops.isSome (hready.exit target htarget)

/-- The first branch, and then the others.  What is visited is read off the node on the way, so it is known
only if nothing but notes has changed until then. -/
theorem arms_ok (hbody : body.Generates) (hrest : rest.Generates) {g₆ g₇ g₈ g₉ g₁₀ : Generation}
    {merge₁ merge₂ : Option BlockRef} {operand' : Operand} {u' : Unit} {position : Nat}
    (hready : Ready origin layout g s slots next) (hawaits : Awaits s.function merge g.place.block)
    (hfits : (Branches.elif condition body rest).part.Fits origin.graph layout g.table.current
      (g.table.entered.headD 0) next (slotTypes slots) g.loopExit.isSome)
    (hcondition : Emit.visitWithin depth condition.value g = .ok operand g₁)
    (hyes : Emit.appendBlock base g₁ = .ok yes g₂) (hno : Emit.appendBlock base' g₂ = .ok no g₃)
    (hbranch : Emit.branchIf operand yes no g₃ = .ok u g₄) (hgoYes : Emit.goToEnd yes g₄ = .ok v g₅)
    (hvisit : Cached g.toDraft g₅.toDraft → Emit.visitWithin depth body.value g₅ = .ok operand' g₆)
    (hendBody : Emit.endBranch merge g₆ = .ok merge₁ g₇) (hgoNo : Emit.goToEnd no g₇ = .ok u' g₈)
    (hbranches : Cached g.toDraft g₈.toDraft →
      Emit.emitBranches (Emit.visitWithin depth) position rest.pairs merge₁ g₈ = .ok merge₂ g₉)
    (hlast : Cached g.toDraft g₉.toDraft → VisitedLast depth rest.last g₉ g₁₀)
    (hend : Emit.endBranch merge₂ g₁₀ = .ok merge' g') :
    ∃ s', Merged slots next (1 + rest.blocks) (body.size + rest.size) (body.jumps && rest.jumps)
      (Branches.exec · (.elif condition body rest)) g s merge g' s' merge' := by
  obtain ⟨htidy, hbool, hsound, hfitsBody, hfitsRest⟩ := hfits.elif
  obtain ⟨yes', no', s₁, rfl, rfl, hcode, hforks⟩ :=
    forks_ok hready htidy hbool hsound hcondition hyes hno hbranch hgoYes
  rw [← hforks.table, ← hforks.loopExit] at hfitsBody
  obtain ⟨s₂, hgenerated⟩ := hbody origin layout g₅ g₆ s₁ slots next depth operand' (hforks.ready hready)
    hfitsBody (hvisit hforks.grows.cached)
  obtain ⟨s₃, hmerged⟩ := hgenerated.merged (hawaits.grows hforks.grows)
    (fun hjumps _ _ _ => body.not_done_of_jumps hjumps) hendBody
  obtain ⟨hmove, hreadyRest, hawaitsRest, hgrows⟩ := ready_other hready hawaits hforks hmerged hgoNo
  have hadvanced := hmerged.advanced
  rw [hforks.table] at hadvanced
  rw [← hadvanced.current, ← hadvanced.entered, ← hforks.loopExit, ← hmerged.loopExit] at hfitsRest
  obtain ⟨s₄, hmergedRest⟩ := hrest origin layout g₈ g₉ g₁₀ g' _ slots _ depth position merge₁ merge₂ merge'
    hreadyRest hawaitsRest (by rw [hmove]; exact hfitsRest) (hbranches hgrows.cached)
    (fun hcached => hlast (hgrows.cached.trans hcached)) hend
  exact ⟨s₄, merged_arm hforks hmerged hmove hgrows hmergedRest⟩

theorem generates_elif (hbody : body.Generates) (hrest : rest.Generates) :
    (Branches.elif condition body rest).Generates := by
  intro origin layout g g₁ g₂ g' s slots next depth position merge merge₁ merge' hready hawaits hfits
    hbranches hlast hend
  simp only [Branches.pairs, Emit.emitBranches, Emit.pairOf, bind_eq_ok, lift_itemsOf_tuple_eq_ok] at hbranches
  obtain ⟨_, _, ⟨_, _, ⟨rfl, rfl⟩, hpair⟩, hbranches⟩ := hbranches
  obtain ⟨rfl, rfl⟩ := pure_eq_ok.1 hpair
  dsimp only at hbranches
  obtain ⟨operand, g₄, hcondition, yes, g₅, hyes, no, g₆, hno, _, g₇, hbranch, _, g₈, hgoYes, _, g₉, hvisit,
    merge₂, g₁₀, hendBody, _, g₁₁, hgoNo, hbranches⟩ := hbranches
  exact arms_ok hbody hrest hready hawaits hfits hcondition hyes hno hbranch hgoYes (fun _ => hvisit)
    hendBody hgoNo (fun _ => hbranches) hlast hend

/-- At the end of a conditional, generation goes on at the merge block if there is one. -/
theorem Merged.generated (h : Merged slots next blocks size jumps run g s none g₁ s₁ merge')
    (hready : Ready origin layout g s slots next)
    (hgo : (match merge' with
      | some target => Emit.goToEnd target
      | _ => pure ()) g₁ = .ok u g') :
    ∃ s', Generated 0 slots next blocks size jumps run g s slots g' s' := by
  have hkept := hready.kept.mono h.grows.develops.used
  cases merge' with
  | none =>
      obtain ⟨-, rfl⟩ := pure_eq_ok.1 hgo
      have hjumps : jumps = true := by
        by_contra hgoes
        simpa using h.joins (by simpa using hgoes)
      exact ⟨s₁, h.grows, h.loopExit, h.advanced, hkept, by simp [hjumps], fun _ => h.closed,
        fun w hfinal hprints => h.simulates w hfinal hprints _ (by simp)⟩
  | some target =>
      obtain ⟨hmain, hempty, -⟩ := h.awaits target rfl
      obtain ⟨function, m⟩ := target
      obtain rfl : function = "main" := hmain
      obtain ⟨rfl, hopen⟩ := goToEnd_ok h.grows.stage h.closed.named hempty hgo
      have hnew : s.function.block? m = none := by
        rcases h.fresh with hsame | ⟨-, hnew⟩
        · simp at hsame
        · exact hnew _ rfl
      have hjumps : jumps = false := by
        by_contra hends
        simpa using h.stays (by simpa using hends)
      refine ⟨{ s₁ with code := [] }, h.grows.move hnew 0 [], h.loopExit, h.advanced, hkept, fun _ => hopen,
        by simp [hjumps], fun w hfinal hprints => h.simulates w hfinal hprints _ ?_⟩
      rintro _ ⟨⟩
      rfl

theorem generates_cond {id : NodeId} (hbody : body.Generates) (hrest : rest.Generates) :
    (Stmt.cond id condition body rest).Generates := by
  intro origin layout g g' s slots next depth operand hready hfits h
  obtain ⟨depth, rfl, hnode⟩ := visitWithin_node h
  obtain ⟨hshown, hfitsArms⟩ := hfits.cond
  have hshown' := hready.cached.retyped.shown hshown
  simp only [hshown'.kind, Emit.emitNode, Emit.silently, Emit.emitConditional, bind_eq_ok, Emit.attribute_eq_ok, pure_eq_ok] at hnode
  obtain ⟨u, last, ⟨value, _, ⟨hvalue, rfl⟩, operand, g₁, hcondition, yes, g₂, hyes, no, g₃, hno, _, g₄, hbranch, _, g₅,
    hgoYes, block, _, ⟨hblock, rfl⟩, result, g₆, hvisit, merge₁, g₇, hendBody, _, g₈, hgoNo, branches, _, ⟨hpairs, rfl⟩,
    _, _, hlength, items, _, hitems, merge₂, g₉, hbranches, otherwise, _, ⟨hotherwise, rfl⟩, hlast⟩, rfl, rfl⟩ := hnode
  obtain rfl := (lift_lengthOf_state hlength).symm
  obtain rfl := (lift_itemsOf_state hitems).symm
  have hshownAt : ∀ draft, Cached g.toDraft draft → Shown draft.graph id .conditional _ :=
    fun draft hcached => hcached.retyped.shown hshown'
  obtain ⟨g₁₀, merge', g₁₁, hvisited, hend, hgo⟩ : ∃ g₁₀ merge' g₁₁, VisitedLast depth otherwise g₉ g₁₀ ∧
      Emit.endBranch merge₂ g₁₀ = .ok merge' g₁₁ ∧ (match merge' with
        | some target => Emit.goToEnd target
        | _ => pure ()) g₁₁ = .ok u last := by
    unfold VisitedLast
    split at hlast
    · simp only [bind_eq_ok] at hlast
      obtain ⟨merge', g₁₁, hend, hgo⟩ := hlast
      exact ⟨g₉, merge', g₁₁, by simp [*], hend, hgo⟩
    · simp only [bind_eq_ok] at hlast
      obtain ⟨operand', g₁₀, hvisit, merge', g₁₁, hend, hgo⟩ := hlast
      exact ⟨g₁₀, merge', g₁₁, by simp [*], hend, hgo⟩
  obtain rfl : value = condition.value := hshown'.get_eq hvalue
  have hvisitBody : Cached g.toDraft g₅.toDraft → Emit.visitWithin depth body.value g₅ = .ok result g₆ := by
    intro hcached
    obtain rfl : block = body.value := (hshownAt _ hcached).get_eq hblock
    exact hvisit
  have hvisitRest : Cached g.toDraft g₈.toDraft →
      Emit.emitBranches (Emit.visitWithin depth) 0 rest.pairs merge₁ g₈ = .ok merge₂ g₉ := by
    intro hcached
    obtain rfl : branches = .list rest.pairs := (hshownAt _ hcached).get_eq hpairs
    obtain ⟨rfl, -⟩ := lift_itemsOf_list_eq_ok.1 hitems
    exact hbranches
  have hvisitLast : Cached g.toDraft g₉.toDraft → VisitedLast depth rest.last g₉ g₁₀ := by
    intro hcached
    obtain rfl : otherwise = rest.last := (hshownAt _ hcached).get_eq hotherwise
    exact hvisited
  obtain ⟨s₁, hmerged⟩ := arms_ok hbody hrest hready (by simp [Awaits]) hfitsArms hcondition hyes hno
    hbranch hgoYes hvisitBody hendBody hgoNo hvisitRest hvisitLast hend
  obtain ⟨s', hgenerated⟩ := hmerged.generated hready hgo
  exact ⟨s', slots, hgenerated, rfl⟩

end Branches

/-! ### Loops -/

section Loops

variable {origin : Draft} {layout : ScopeTable} {g g' g₁ g₂ g₃ g₄ : Generation} {s s' s₁ : Site}
  {slots : Scopes Slot} {next blocks size : Nat} {head into out : BlockRef} {base₁ base₂ base₃ : String}
  {u v : Unit}

/-- The blocks of a loop have been made, and generation stands at the first of them. -/
structure LoopStarts (origin : Draft) (layout : ScopeTable) (slots : Scopes Slot) (next : Nat)
    (g : Generation) (s : Site) (head into out : String) (g' : Generation) (s' : Site) : Prop where
  grows : Grows g s g' s'
  ready : Ready origin layout g' s' slots next
  table : g'.table = g.table
  draft : g'.toDraft = g.toDraft
  exit : g'.loopExit = some out
  place : s'.pos g' = ⟨head, 0⟩
  nodup : [head, into, out].Nodup
  new : ∀ name ∈ [head, into, out], s.function.block? name = none
  empty : ∀ name ∈ [head, into, out], s'.function.block? name = some ⟨name, []⟩
  jumpsTo : ∀ w, Final w s'.function → JumpsTo w s'.function.names.used (s.pos g) head

theorem LoopStarts.apart {head into out : String}
    (h : LoopStarts origin layout slots next g s head into out g' s') :
    (into ≠ head ∧ out ≠ head) ∧ out ≠ into := by
  have hnodup := h.nodup
  simp only [List.nodup_cons, List.mem_cons, List.not_mem_nil, or_false, not_or] at hnodup
  exact ⟨⟨Ne.symm hnodup.1.1, Ne.symm hnodup.1.2⟩, Ne.symm hnodup.2.1⟩

theorem loopStarts_ok (hready : Ready origin layout g s slots next)
    (h₁ : Emit.appendBlock base₁ g = .ok head g₁) (h₂ : Emit.appendBlock base₂ g₁ = .ok into g₂)
    (h₃ : Emit.appendBlock base₃ g₂ = .ok out g₃)
    (hbranch : Emit.branchTo head { g₃ with loopExit := some out.block } = .ok u g₄)
    (hgo : Emit.goToEnd head g₄ = .ok v g') :
    ∃ a b c s', head = ⟨"main", a⟩ ∧ into = ⟨"main", b⟩ ∧ out = ⟨"main", c⟩ ∧
      g₃.loopExit = g.loopExit ∧ LoopStarts origin layout slots next g s a b c g' s' := by
  obtain ⟨a, b, c, f₁, rfl, rfl, rfl, rfl, hgrows₁, hopen₁, hnodup, hblocks⟩ :=
    appendBlocks_ok hready.stage hready.isOpen h₁ h₂ h₃
  have hstage : Stage { g.put f₁ g.anchor with loopExit := some c } { s with function := f₁ } :=
    hgrows₁.stage.congr rfl rfl
  obtain ⟨f₂, rfl, hwrote, hgrows₂, hclosed⟩ :=
    terminate_ok (s := { s with function := f₁ }) hstage (hopen₁.congr rfl rfl rfl) rfl hbranch
  have hgrows₂' : Grows (g.put f₁ g.anchor) { s with function := f₁ } _ _ :=
    ⟨hgrows₂.stage, hgrows₂.develops, hgrows₂.place, hgrows₂.printing, hgrows₂.cached⟩
  -- None of the new blocks is the one that the jump to the loop stands in.
  have hempty : ∀ name ∈ [a, b, c], f₂.block? name = some ⟨name, []⟩ := fun name hname => by
    rw [hwrote.there name (hready.isOpen.place_ne (hblocks name hname).1), (hblocks name hname).2]
  obtain ⟨rfl, hopen⟩ := goToEnd_ok hgrows₂.stage hclosed.named (hempty a (by simp)) hgo
  have hgrows := (hgrows₁.trans hgrows₂').move (hblocks a (by simp)).1 0 []
  refine ⟨a, b, c, ⟨f₂, [], s.printing⟩, rfl, rfl, rfl, rfl, hgrows, hready.move hgrows hopen rfl ?_, rfl, rfl, rfl, rfl,
    hnodup, fun name hname => (hblocks name hname).1, hempty, fun w hfinal => ?_⟩
  · rintro _ ⟨⟩
    show (f₂.block? c).isSome
    rw [hempty c (by simp)]
    rfl
  · exact hfinal.jumpsTo hclosed.block (by rw [hempty a (by simp)]; rfl)

theorem loopEnters_ok {condition : Expr} {depth : Nat} {operand : Operand} {head into out : String}
    (hready : Ready origin layout g s slots next)
    (hstarts : LoopStarts origin layout slots next g s head into out g₁ s₁)
    (htidy : condition.Tidy origin.graph) (hbool : condition.typeIn (slotTypes slots) ≠ some .int)
    (hsound : condition.Sound (slotTypes slots))
    (hcondition : Emit.visitWithin depth condition.value g₁ = .ok operand g₂)
    (hbranch : Emit.branchIf operand ⟨"main", into⟩ ⟨"main", out⟩ g₂ = .ok u g₃)
    (hgo : Emit.goToEnd ⟨"main", into⟩ g₃ = .ok v g') :
    ∃ s', Grows g s g' s' ∧ Develops s₁.function head s'.function ∧
      Ready origin layout g' s' slots next ∧ g'.table = g.table ∧ g'.loopExit = some out ∧
      s'.pos g' = ⟨into, 0⟩ ∧ ∀ w, Final w s'.function → Decides w slots ⟨head, 0⟩ condition into out := by
  obtain ⟨ty, code, result, f₂, rfl, hty, hcode, hwrites, hcomputes⟩ :=
    hstarts.ready.coded htidy hsound hcondition
  obtain rfl : ty = .bool := by
    cases ty
    · exact absurd hty hbool
    · rfl
  have hplace : g₁.place.block = head := congrArg Pos.block hstarts.place
  have hstart : s₁.code = [] := List.length_eq_zero_iff.1 (congrArg Pos.offset hstarts.place)
  have hgrows₂ := grows_writes hstarts.ready.stage hwrites
  obtain ⟨f₃, rfl, hwrote, hgrows₃, hclosed⟩ :=
    terminate_ok hgrows₂.stage (hwrites.isOpen hstarts.ready.isOpen) rfl hbranch
  have hdevelops := (hgrows₂.trans hgrows₃).develops
  rw [hplace] at hdevelops
  have hempty : f₃.block? into = some ⟨into, []⟩ := by
    rw [hdevelops.others into hstarts.apart.1.1 (by rw [hstarts.empty into (by simp)]; rfl),
      hstarts.empty into (by simp)]
  obtain ⟨rfl, hopen⟩ := goToEnd_ok hgrows₃.stage hclosed.named hempty hgo
  have hgrows := (hstarts.grows.trans (hgrows₂.trans hgrows₃)).move (hstarts.new into (by simp)) 0 []
  have hexit : g₂.loopExit = some out := by
    rw [hwrites.state]
    exact hstarts.exit
  have htable := hwrites.table.trans hstarts.table
  have hout : (f₃.block? out).isSome := hdevelops.isSome (by rw [hstarts.empty out (by simp)]; rfl)
  refine ⟨⟨f₃, [], s₁.printing⟩, hgrows, hdevelops, hready.move hgrows hopen htable fun target htarget => ?_, htable, hexit, rfl,
    fun w hfinal => ?_⟩
  · obtain rfl : out = target := Option.some.inj (hexit.symm.trans htarget)
    exact hout
  · have hblock : f₃.block? g₂.place.block = some ⟨g₂.place.block, s₁.code ++ code ++ _⟩ := hclosed.block
    rw [hwrites.place, hplace, hstart] at hblock
    exact hfinal.decides (hcomputes w) hstarts.ready.kept hcode hblock (by rw [hempty]; rfl) hout

theorem loopBack_ok {jumps : Bool} {ended : Bool} {head : String} (hstage : Stage g s)
    (hgoes : jumps = false → g.Open s.function s.code)
    (hends : jumps = true → g.Closed s.function s.code) (hhead : (s.function.block? head).isSome)
    (hended : Emit.isTerminated g = .ok ended g₁)
    (h : if ended then g' = g₁ else Emit.branchTo ⟨"main", head⟩ g₁ = .ok u g') :
    ∃ s', Grows g s g' s' ∧ Steady g g' ∧ g'.Closed s'.function s'.code ∧
      ∀ w, Final w s'.function → jumps = false → JumpsTo w s'.function.names.used (s.pos g) head := by
  cases jumps with
  | true =>
      obtain ⟨rfl, rfl⟩ := eq_of_eq_ok (Emit.isTerminated_closed (hends rfl)) hended
      obtain rfl : g' = g := h
      exact ⟨s, Grows.refl hstage, ⟨rfl, rfl, rfl⟩, hends rfl, by simp⟩
  | false =>
      obtain ⟨rfl, rfl⟩ := eq_of_eq_ok (Emit.isTerminated_open (hgoes rfl)) hended
      obtain ⟨f', rfl, hwrote, hgrows, hclosed⟩ := terminate_ok hstage (hgoes rfl) rfl h
      exact ⟨_, hgrows, ⟨rfl, rfl, rfl⟩, hclosed, fun w hfinal _ =>
        hfinal.jumpsTo hclosed.block (hgrows.develops.isSome hhead)⟩

end Loops

theorem generates_loop {id : NodeId} {condition : Expr} {body : Block} (hbody : body.Generates) :
    (Stmt.loop id condition body).Generates := by
  intro origin layout g g' s slots next depth operand hready hfits h
  obtain ⟨depth, rfl, hnode⟩ := visitWithin_node h
  obtain ⟨hshown, htidy, hbool, hsound, hfitsBody⟩ := hfits.loop
  have hshown' := hready.cached.retyped.shown hshown
  simp only [hshown'.kind, Emit.emitNode, Emit.silently, Emit.emitLoop, bind_eq_ok, Emit.attribute_eq_ok, pure_eq_ok, get_eq_ok, modify_eq_ok] at hnode
  obtain ⟨u, g'', ⟨head, g₁, happend₁, into, g₂, happend₂, out, g₃, happend₃, _, _, ⟨rfl, rfl⟩, _, _, rfl, _, g₄, hbranch,
    _, g₅, hgoHead, value, _, ⟨hvalue, rfl⟩, operand, g₆, hcondition, _, g₇, hfork, _, g₈, hgoInto, block, _, ⟨hblock, rfl⟩,
    result, g₉, hvisit, ended, g₁₀, hended, hback⟩, rfl, rfl⟩ := hnode
  obtain ⟨head, into, out, s₁, rfl, rfl, rfl, houter, hstarts⟩ :=
    loopStarts_ok hready happend₁ happend₂ happend₃ hbranch hgoHead
  obtain rfl : value = condition.value := hshown'.get_eq (by rw [← hstarts.draft]; exact hvalue) (by simp)
  obtain ⟨s₈, hgrows₈, hdevelops₈, hready₈, htable, hexit, hpos, hdecides⟩ :=
    loopEnters_ok hready hstarts htidy hbool hsound hcondition hfork hgoInto
  obtain rfl : block = body.value :=
    (hgrows₈.cached.retyped.shown hshown').get_eq hblock
  obtain ⟨s₉, hgenerated⟩ := hbody origin layout g₈ g₉ s₈ slots next depth result hready₈
    (by rw [htable, hexit]; exact hfitsBody) hvisit
  obtain ⟨g₁₁, hreturn, g₁₂, hgoOut, rfl⟩ : ∃ g₁₁,
      (if ended then g₁₁ = g₁₀ else Emit.branchTo ⟨"main", head⟩ g₁₀ = .ok () g₁₁) ∧
      ∃ g₁₂, Emit.goToEnd ⟨"main", out⟩ g₁₁ = .ok () g₁₂ ∧ { g₁₂ with loopExit := g₃.loopExit } = g'' := by
    cases ended with
    | true =>
        simp only [if_true, bind_eq_ok, modify_eq_ok] at hback
        obtain ⟨_, g₁₂, hgo, rfl⟩ := hback
        exact ⟨g₁₀, rfl, g₁₂, hgo, rfl⟩
    | false =>
        simp only [Bool.false_eq_true, if_false, bind_eq_ok, modify_eq_ok] at hback
        obtain ⟨_, g₁₁, hbranch, _, g₁₂, hgo, rfl⟩ := hback
        exact ⟨g₁₁, hbranch, g₁₂, hgo, rfl⟩
  have hhead : (s₉.function.block? head).isSome :=
    hgenerated.grows.develops.isSome (hdevelops₈.isSome (by rw [hstarts.empty head (by simp)]; rfl))
  obtain ⟨s₁₁, hgrows₁₁, hsteady, hclosed, hjumpsTo⟩ :=
    loopBack_ok hgenerated.grows.stage hgenerated.goesOn hgenerated.ended hhead hended hreturn
  have hempty₈ : s₈.function.block? out = some ⟨out, []⟩ := by
    rw [hdevelops₈.others out hstarts.apart.1.2 (by rw [hstarts.empty out (by simp)]; rfl),
      hstarts.empty out (by simp)]
  have hgrows := hgenerated.grows.trans hgrows₁₁
  have houtPlace : out ≠ g₈.place.block := by
    show out ≠ (s₈.pos g₈).block
    rw [hpos]
    exact hstarts.apart.2
  have hempty : s₁₁.function.block? out = some ⟨out, []⟩ := by
    rw [hgrows.block?_eq houtPlace (by rw [hempty₈]; rfl), hempty₈]
  obtain ⟨rfl, hopen⟩ := goToEnd_ok hgrows₁₁.stage hclosed.named hempty hgoOut
  have hall := (hgrows₈.trans hgrows).move (hstarts.new out (by simp)) 0 []
  refine ⟨{ s₁₁ with code := [] }, slots, ⟨hall.congr rfl rfl rfl, houter, ?_,
    hready.kept.mono hall.develops.used, fun _ => hopen.congr rfl rfl rfl, by simp [Stmt.jumps], ?_⟩, rfl⟩
  · have hadvanced := hgenerated.advanced
    rw [htable, ← hsteady.table] at hadvanced
    exact hadvanced
  · intro w hfinal hprints
    have hfinal₈ := hgrows.develops.final hfinal
    have hfinal₁ := hdevelops₈.final hfinal₈
    have hround := hgenerated.simulates w (hgrows₁₁.develops.final hfinal)
      fun hprinting => hprints (hgrows₁₁.printing hprinting)
    rw [hexit, hpos] at hround
    have hbodyRound : Simulates w (some out) 0 slots ⟨into, 0⟩ (Block.exec · body) slots ⟨head, 0⟩ := by
      cases hjumps : body.jumps with
      | true => exact hround.of_never_done (fun _ _ _ => body.not_done_of_jumps hjumps) slots _
      | false => exact hround.jump (hgenerated.kept.mono hgrows₁₁.develops.used) (hjumpsTo w hfinal hjumps)
    exact simulates_loop hstarts.ready.kept (hstarts.jumpsTo w hfinal₁) (hdecides w hfinal₈) hbodyRound

end Scriptlet.Core
