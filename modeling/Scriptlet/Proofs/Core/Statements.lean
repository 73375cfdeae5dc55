import Scriptlet.Proofs.Core.Branching

/-!
What generating the code of a statement does, and the statements without inner code: declarations,
assignments and breaks, and lists of statements.

What is asked of a statement is said of the graph and the table of scopes with which generation starts,
and so need not be carried along.
-/

namespace Scriptlet.Core

open Ir (Instruction Operand)

mutual

/-- No integer stands where a truth value is asked for. -/
def Stmt.Sound (types : Types) : Stmt → Prop
  | .declare _ _ value | .assign _ _ value | .print _ _ value => value.Sound types
  | .block body => body.Sound types
  | .cond _ condition body rest =>
      (condition.typeIn types ≠ some .int ∧ condition.Sound types) ∧ body.Sound types ∧ rest.Sound types
  | .loop _ condition body =>
      (condition.typeIn types ≠ some .int ∧ condition.Sound types) ∧ body.Sound types
  | .breakOut _ => True

def Block.Sound (types : Types) : Block → Prop
  | .mk _ statements => statements.Sound ([] :: types)

def Stmts.Sound (types : Types) : Stmts → Prop
  | .nil => True
  | .cons head tail => head.Sound types ∧ tail.Sound (head.typesAfter types)

def Branches.Sound (types : Types) : Branches → Prop
  | .none => True
  | .otherwise body => body.Sound types
  | .elif condition body rest =>
      (condition.typeIn types ≠ some .int ∧ condition.Sound types) ∧ body.Sound types ∧ rest.Sound types

end

/-- What analysis and generation see of a part of a program. -/
structure Part where
  Stands : Graph → Prop
  ids : List NodeId
  reads : Types → List (NodeId × Option Ty)
  shows : Types → List (NodeId × Option Ty)
  size : Nat
  blocks : Nat
  Placed : ScopeTable → Nat → Nat → Nat → Prop
  Sound : Types → Prop
  isOrderly : Bool → Bool

def Stmt.part (stmt : Stmt) : Part :=
  ⟨stmt.Stands, stmt.ids, stmt.reads, stmt.shows, stmt.size, stmt.blocks, stmt.Placed, stmt.Sound, stmt.isOrderly⟩

def Block.part (body : Block) : Part :=
  ⟨body.Stands, body.ids, body.reads, body.shows, body.size, 1, body.Placed, body.Sound, body.isOrderly⟩

def Stmts.part (statements : Stmts) : Part :=
  ⟨statements.Stands, statements.ids, statements.reads, statements.shows, statements.size, statements.blocks,
    statements.Placed, statements.Sound, statements.isOrderly⟩

def Branches.part (branches : Branches) : Part :=
  ⟨branches.Stands, branches.ids, branches.reads, branches.shows, branches.size, branches.blocks, branches.Placed,
    branches.Sound, branches.isOrderly⟩

/-- What is asked of a part of a program: it stands in the graph, the table has its scopes, and its types
are right, also those noted where variables are printed. -/
structure Part.Fits (part : Part) (graph : Graph) (layout : ScopeTable) (scope child next : Nat)
    (types : Types) (inLoop : Bool) : Prop where
  stands : part.Stands graph
  noted : ∀ id ∈ part.ids, Noted graph id
  placed : part.Placed layout scope child next
  sound : part.Sound types
  marked : ∀ id ty, (id, some ty) ∈ part.shows types → Core.noted graph id = some ty
  orderly : part.isOrderly inLoop = true

section Fits

variable {graph : Graph} {layout : ScopeTable} {scope child next : Nat} {types : Types} {inLoop : Bool}
variable {id : NodeId} {condition : Expr} {body : Block}

theorem Part.Fits.cons {head : Stmt} {tail : Stmts}
    (h : (Stmts.cons head tail).part.Fits graph layout scope child next types inLoop) :
    head.part.Fits graph layout scope child next types inLoop ∧
      tail.part.Fits graph layout scope (child + head.blocks) (next + head.size)
        (head.typesAfter types) inLoop ∧
      (tail = .nil ∨ head.jumps = false) := by
  obtain ⟨hstands, hnoted, hplaced, hsound, hmarked, horderly⟩ := h
  simp only [Stmts.part, Stmts.ids, Stmts.shows, Stmts.isOrderly, List.mem_append, Bool.and_eq_true] at hnoted hmarked horderly
  refine ⟨⟨hstands.1, fun id hid => hnoted id (Or.inl hid), hplaced.1, hsound.1,
      fun id ty hid => hmarked id ty (Or.inl hid), horderly.1.1⟩,
    ⟨hstands.2, fun id hid => hnoted id (Or.inr hid), hplaced.2, hsound.2,
      fun id ty hid => hmarked id ty (Or.inr hid), horderly.2⟩, ?_⟩
  cases tail with
  | nil => exact Or.inl rfl
  | cons => exact Or.inr (by simpa [Stmts.isEmpty] using horderly.1.2)

theorem Part.Fits.statements {statements : Stmts}
    (h : (Block.mk id statements).part.Fits graph layout scope child next types inLoop) :
    Shown graph id .block [(.statements, .list statements.values)] ∧
      (layout.scope scope).children[child]? = some next ∧
      statements.part.Fits graph layout next 0 (next + 1) ([] :: types) inLoop := by
  obtain ⟨hstands, hnoted, hplaced, hsound, hmarked, horderly⟩ := h
  exact ⟨hstands.1, hplaced.1, hstands.2, hnoted, hplaced.2, hsound, hmarked, horderly⟩

/-- A conditional asks for what its branches ask for. -/
theorem Part.Fits.cond {rest : Branches}
    (h : (Stmt.cond id condition body rest).part.Fits graph layout scope child next types inLoop) :
    Shown graph id .conditional [(.comparison, condition.value), (.block, body.value),
      (.elifNodes, .list rest.pairs), (.elseBlock, rest.last)] ∧
      (Branches.elif condition body rest).part.Fits graph layout scope child next types inLoop := by
  obtain ⟨hstands, hnoted, hplaced, hsound, hmarked, horderly⟩ := h
  exact ⟨hstands.1, hstands.2, hnoted, hplaced, hsound, hmarked, horderly⟩

theorem Part.Fits.elif {rest : Branches}
    (h : (Branches.elif condition body rest).part.Fits graph layout scope child next types inLoop) :
    condition.Tidy graph ∧ condition.typeIn types ≠ some .int ∧ condition.Sound types ∧
      body.part.Fits graph layout scope child next types inLoop ∧
      rest.part.Fits graph layout scope (child + 1) (next + body.size) types inLoop := by
  obtain ⟨hstands, hnoted, hplaced, hsound, hmarked, horderly⟩ := h
  simp only [Branches.part, Branches.ids, Branches.shows, Branches.isOrderly, List.mem_append,
    Bool.and_eq_true, or_assoc] at hnoted hmarked horderly
  exact ⟨⟨hstands.1, fun id hid => hnoted id (Or.inl hid)⟩, hsound.1.1, hsound.1.2,
    ⟨hstands.2.1, fun id hid => hnoted id (Or.inr (Or.inl hid)), hplaced.1, hsound.2.1,
      fun id ty hid => hmarked id ty (Or.inl hid), horderly.1⟩,
    ⟨hstands.2.2, fun id hid => hnoted id (Or.inr (Or.inr hid)), hplaced.2, hsound.2.2,
      fun id ty hid => hmarked id ty (Or.inr hid), horderly.2⟩⟩

theorem Part.Fits.loop (h : (Stmt.loop id condition body).part.Fits graph layout scope child next types inLoop) :
    Shown graph id .loop [(.comparison, condition.value), (.block, body.value)] ∧
      condition.Tidy graph ∧ condition.typeIn types ≠ some .int ∧ condition.Sound types ∧
      body.part.Fits graph layout scope child next types true := by
  obtain ⟨hstands, hnoted, hplaced, hsound, hmarked, horderly⟩ := h
  simp only [Stmt.part, Stmt.ids, List.mem_append] at hnoted
  exact ⟨hstands.1, ⟨hstands.2.1, fun id hid => hnoted id (Or.inl hid)⟩, hsound.1.1, hsound.1.2,
    hstands.2.2, fun id hid => hnoted id (Or.inr hid), hplaced, hsound.2, hmarked, horderly⟩

end Fits

/-! ### States between statements -/

/-- Generation stands at an open block; the variables have their slots.  The graph and the table have
come from those of the start. -/
structure Ready (origin : Draft) (layout : ScopeTable) (g : Generation) (s : Site) (slots : Scopes Slot)
    (next : Nat) : Prop where
  stage : Stage g s
  isOpen : g.Open s.function s.code
  walked : Walked g.table slots next
  kept : Kept slots s.function.names.used
  exit : ∀ target, g.loopExit = some target → (s.function.block? target).isSome
  inside : g.table.path ≠ []
  cached : Cached origin g.toDraft
  layout : Extends layout g.table

def Site.pos (s : Site) (g : Generation) : Pos :=
  ⟨g.place.block, s.code.length⟩

/-- The table has gone on by the scopes of a part of the program. -/
structure Advanced (table : ScopeTable) (slots : Scopes Slot) (next blocks size : Nat)
    (table' : ScopeTable) (after : Scopes Slot) : Prop where
  walked : Walked table' after (next + size)
  layout : Extends table table'
  path : table'.path = table.path
  entered : table'.entered.headD 0 = table.entered.headD 0 + blocks
  outer : table'.entered.tail = table.entered.tail
  tail : after.tail = slots.tail

/-- The code of a part of the program has been generated. -/
structure Generated (lost : Nat) (slots : Scopes Slot) (next blocks size : Nat) (jumps : Bool)
    (run : Nat → Store → Outcome) (g : Generation) (s : Site) (after : Scopes Slot) (g' : Generation)
    (s' : Site) : Prop where
  grows : Grows g s g' s'
  loopExit : g'.loopExit = g.loopExit
  advanced : Advanced g.table slots next blocks size g'.table after
  kept : Kept after s'.function.names.used
  goesOn : jumps = false → g'.Open s'.function s'.code
  ended : jumps = true → g'.Closed s'.function s'.code
  simulates : ∀ w, Final w s'.function → (s'.printing = true → Prints w) →
    Simulates w g.loopExit lost slots (s.pos g) run after (s'.pos g')

section States

variable {origin : Draft} {layout table table₁ table₂ : ScopeTable} {g g' g₁ : Generation} {s s' s₁ : Site}
  {slots after after₁ after₂ : Scopes Slot} {next blocks blocks₁ size size₁ lost : Nat} {jumps : Bool}
  {run : Nat → Store → Outcome}

theorem Advanced.refl (h : Walked table slots next) : Advanced table slots next 0 0 table slots :=
  ⟨h, Extends.refl _, rfl, rfl, rfl, rfl⟩

theorem Advanced.trans (h : Advanced table slots next blocks size table₁ after₁)
    (h₁ : Advanced table₁ after₁ (next + size) blocks₁ size₁ table₂ after₂) :
    Advanced table slots next (blocks + blocks₁) (size + size₁) table₂ after₂ := by
  refine ⟨?_, h.layout.trans h₁.layout, h₁.path.trans h.path, ?_, h₁.outer.trans h.outer,
    h₁.tail.trans h.tail⟩
  · rw [← Nat.add_assoc]
    exact h₁.walked
  · rw [h₁.entered, h.entered, Nat.add_assoc]

theorem Advanced.current (h : Advanced table slots next blocks size table₁ after) :
    table₁.current = table.current := by
  unfold ScopeTable.current
  rw [h.path]

theorem Generated.ready (h : Generated lost slots next blocks size jumps run g s after g' s')
    (hready : Ready origin layout g s slots next) (hjumps : jumps = false) :
    Ready origin layout g' s' after (next + size) := by
  refine ⟨h.grows.stage, h.goesOn hjumps, h.advanced.walked, h.kept, fun target htarget => ?_,
    by rw [h.advanced.path]; exact hready.inside, hready.cached.trans h.grows.cached, hready.layout.trans h.advanced.layout⟩
  rw [h.loopExit] at htarget
  exact h.grows.develops.isSome (hready.exit target htarget)

/-- Generation has gone on to another open block, and no scope has been entered. -/
theorem Ready.move (hready : Ready origin layout g s slots next) (hgrows : Grows g s g' s')
    (hopen : g'.Open s'.function s'.code) (htable : g'.table = g.table)
    (hexit : ∀ target, g'.loopExit = some target → (s'.function.block? target).isSome) :
    Ready origin layout g' s' slots next := by
  obtain ⟨-, -, hwalked, hkept, -, hinside, hcached, hlayout⟩ := hready
  rw [← htable] at hwalked hinside hlayout
  exact ⟨hgrows.stage, hopen, hwalked, hkept.mono hgrows.develops.used, hexit,
    hinside, hcached.trans hgrows.cached, hlayout⟩

/-- Code that has been written into the current block stays. -/
theorem codeAt_open {code : List Instruction} {f' : Ir.Function} {w : Machine.Setting}
    (hopen : g'.Open f' (s.code ++ code)) (hplace : g'.place = g.place) (hfinal : Final w f')
    (printing : Bool) :
    codeAt w (s.pos g) = code ++ codeAt w ((Site.mk f' (s.code ++ code) printing).pos g') := by
  have hblock := hopen.block
  rw [hplace] at hblock
  simp only [Site.pos, hplace]
  exact hfinal.code hblock (Or.inr fun instruction hmem =>
    hopen.plain instruction (List.mem_append_right _ hmem))

/-- A statement that only writes code at the end of the block. -/
theorem generated_open {code code' : List Instruction} {f' : Ir.Function} {printing : Bool}
    (hready : Ready origin layout g s slots next) (hgrows : Grows g s g' ⟨f', code', printing⟩)
    (hsteady : Steady g g') (hopen : g'.Open f' (s.code ++ code))
    (hsimulates : ∀ w, (printing = true → Prints w) →
      codeAt w (s.pos g) = code ++ codeAt w ((Site.mk f' (s.code ++ code) printing).pos g') →
      Simulates w g.loopExit lost slots (s.pos g) run slots
        ((Site.mk f' (s.code ++ code) printing).pos g')) :
    Generated lost slots next 0 0 false run g s slots g' ⟨f', s.code ++ code, printing⟩ := by
  refine ⟨hgrows.withCode _, hsteady.loopExit, ?_, hready.kept.mono hgrows.develops.used, fun _ => hopen, by simp,
    fun w hfinal hprints => hsimulates w hprints (codeAt_open hopen hsteady.place hfinal printing)⟩
  rw [hsteady.table]
  exact Advanced.refl hready.walked

end States

/-! ### Simple statements -/

def Stmt.Generates (stmt : Stmt) : Prop :=
  ∀ origin layout g g' s slots next depth operand, Ready origin layout g s slots next →
    stmt.part.Fits origin.graph layout g.table.current (g.table.entered.headD 0) next (slotTypes slots)
      g.loopExit.isSome →
    Emit.visitWithin depth stmt.value g = .ok operand g' →
    ∃ s' after, Generated 0 slots next stmt.blocks stmt.size stmt.jumps (Stmt.exec · stmt) g s after g' s' ∧
      slotTypes after = stmt.typesAfter (slotTypes slots)

section Simple

variable {origin : Draft} {layout : ScopeTable} {g g' g₁ : Generation} {s s' : Site} {u : Unit}
  {slots after : Scopes Slot} {next depth : Nat} {id : NodeId} {e : Expr} {operand : Operand}

theorem table_eq_ok {table : ScopeTable} : Emit.table g = .ok table g' ↔ g.table = table ∧ g = g' := by
  simp [Emit.table, and_comm]

theorem changeTable_eq_ok {change : ScopeTable → Except Fault ScopeTable} :
    Emit.changeTable change g = .ok u g' ↔ ∃ table, change g.table = .ok table ∧ { g with table } = g' := by
  simp only [Emit.changeTable, bind_eq_ok, table_eq_ok, orFail_eq_ok, modify_eq_ok]
  constructor
  · rintro ⟨_, _, ⟨rfl, rfl⟩, table, _, ⟨hchange, rfl⟩, h⟩
    exact ⟨table, hchange, h⟩
  · rintro ⟨table, hchange, h⟩
    exact ⟨_, g, ⟨rfl, rfl⟩, table, g, ⟨hchange, rfl⟩, h⟩

theorem irType_eq_ok {type : Value} {ty : Ir.Ty} (h : Emit.irType type g = .ok ty g') : g' = g := by
  unfold Emit.irType at h
  split at h
  case h_6 => simp at h
  all_goals exact ((pure_eq_ok.1 h).2).symm

theorem fitValue_eq_ok {node name : Value} {fitted : Operand} {result : String} {ty : Ty}
    {expected : Ir.Ty} (h : Emit.fitValue node name (.register result ty.ir) expected g = .ok fitted g') :
    fitted = .register result ty.ir ∧ g' = g := by
  simp only [Emit.fitValue, bind_eq_ok, Emit.typeOf_eq_ok] at h
  obtain ⟨_, _, ⟨htype, rfl⟩, h⟩ := h
  obtain rfl := Option.some.inj htype
  simp only [ir_beq_double, Bool.false_and, Bool.false_eq_true, if_false] at h
  split at h
  case isTrue =>
    obtain ⟨rfl, rfl⟩ := pure_eq_ok.1 h
    exact ⟨rfl, rfl⟩
  case isFalse => simp at h

theorem Ready.coded (hready : Ready origin layout g s slots next) (htidy : e.Tidy origin.graph)
    (hsound : e.Sound (slotTypes slots)) (h : Emit.visitWithin depth e.value g = .ok operand g') :
    Coded slots e g s.function operand g' :=
  e.emits depth g g' operand s.function s.code slots next hready.isOpen
    (htidy.retyped hready.cached.retyped) hready.walked hready.kept hsound h

theorem generates_assign (id : NodeId) (name : String) (value : Expr) :
    (Stmt.assign id name value).Generates := by
  intro origin layout g g' s slots next depth operand hready hfits h
  obtain ⟨depth, rfl, hnode⟩ := visitWithin_node h
  obtain ⟨⟨hshown, hstands⟩, hnoted, -, hsound, -, -⟩ := hfits
  have hshown' := hready.cached.retyped.shown hshown
  simp only [hshown'.kind, Emit.emitNode, Emit.silently, Emit.emitUpdate, bind_eq_ok, Emit.attribute_eq_ok,
    table_eq_ok, pure_eq_ok] at hnode
  obtain ⟨_, _, ⟨_, _, ⟨hname, rfl⟩, _, _, ⟨rfl, rfl⟩, hupdate⟩, rfl, rfl⟩ := hnode
  obtain rfl : _ = Value.text name := hshown'.get_eq hname
  split at hupdate
  · simp at hupdate
  simp only [bind_eq_ok, Emit.attribute_eq_ok, table_eq_ok, orFail_eq_ok] at hupdate
  obtain ⟨_, _, ⟨hvalue, rfl⟩, given, g₁, hvisit, _, _, ⟨rfl, rfl⟩, _, _, ⟨-, rfl⟩, expected, _, htype, _, _,
    ⟨rfl, rfl⟩, reference, _, ⟨hreference, rfl⟩, hstore⟩ := hupdate
  obtain rfl : _ = value.value := hshown'.get_eq hvalue
  obtain rfl := irType_eq_ok htype
  obtain ⟨ty, code, result, f₁, rfl, hty, -, hwrites, hcomputes⟩ :=
    hready.coded ⟨hstands, hnoted⟩ hsound hvisit
  cases reference with
  | none => simp at hstore
  | some reference =>
      rw [hwrites.table] at hreference
      obtain ⟨slot, hslot, rfl⟩ := hready.walked.reference hreference
      simp only [bind_eq_ok] at hstore
      obtain ⟨_, _, hfit, hstore⟩ := hstore
      obtain ⟨rfl, rfl⟩ := fitValue_eq_ok hfit
      obtain ⟨width, hwidth⟩ : ∃ width, slot.ty.ir = .int width := by cases slot.ty <;> exact ⟨_, rfl⟩
      simp only [Emit.recorded, hwidth] at hstore
      obtain ⟨hsame, f₂, hwrites₂⟩ := writes_store (hwrites.isOpen hready.isOpen) hstore
      rw [← hwidth] at hsame hwrites₂
      obtain rfl : ty = slot.ty := Ty.ir_injective (Option.some.inj hsame)
      have hall := hwrites.trans hready.isOpen.name hwrites₂
      refine ⟨_, slots, generated_open hready (grows_writes hready.stage hall) hall.steady (hall.isOpen hready.isOpen)
        fun w _ hcode => ?_, rfl⟩
      rw [List.append_assoc] at hcode
      exact simulates_assign hready.kept (hcomputes w) hslot hcode

theorem slotTypes_declare (slots : Scopes Slot) (name register : String) (ty : Ty) :
    slotTypes (slots.declare name ⟨register, ty⟩) = (slotTypes slots).declare name (some ty) := by
  cases slots <;> rfl

theorem kept_declare {used used' : List String} {name register : String} {ty : Ty} (h : Kept slots used)
    (hused : used ⊆ used') (hregister : register ∈ used') :
    Kept (slots.declare name ⟨register, ty⟩) used' := by
  cases slots with
  | nil => exact h.mono hused
  | cons entries outer =>
      intro entry hentry
      simp only [Scopes.declare, List.flatten_cons, List.cons_append, List.mem_cons] at hentry
      rcases hentry with rfl | hentry
      · exact hregister
      · exact hused (h entry (by simpa using hentry))

theorem generates_declare (id : NodeId) (name : String) (value : Expr) :
    (Stmt.declare id name value).Generates := by
  intro origin layout g g' s slots next depth operand hready hfits h
  obtain ⟨depth, rfl, hnode⟩ := visitWithin_node h
  obtain ⟨⟨hshown, hstands⟩, hnoted, hplaced, hsound, -, -⟩ := hfits
  have hshown' := hready.cached.retyped.shown hshown
  simp only [hshown'.kind, Emit.emitNode, Emit.silently, Emit.emitDeclaration, bind_eq_ok, Emit.attribute_eq_ok,
    table_eq_ok, pure_eq_ok, Emit.typeOf_eq_ok] at hnode
  obtain ⟨_, _, ⟨_, _, ⟨hname, rfl⟩, _, _, ⟨rfl, rfl⟩, _, _, ⟨hvalue, rfl⟩, given, g₁, hvisit, _, _, ⟨htype, rfl⟩,
    slotOperand, g₂, halloca, _, g₃, hstore, hset⟩, rfl, rfl⟩ := hnode
  obtain rfl : _ = Value.text name := hshown'.get_eq hname
  obtain rfl : _ = value.value := hshown'.get_eq hvalue
  obtain ⟨ty, code, result, f₁, rfl, hty, -, hwrites, hcomputes⟩ :=
    hready.coded ⟨hstands, hnoted⟩ hsound hvisit
  obtain rfl := Option.some.inj htype
  obtain ⟨width, hwidth⟩ : ∃ width, ty.ir = .int width := by cases ty <;> exact ⟨_, rfl⟩
  rw [hwidth] at halloca
  obtain ⟨slot, f₂, rfl, hwrites₂, hslot⟩ :=
    writes_alloca (hwrites.isOpen hready.isOpen) halloca
  obtain ⟨-, f₃, hwrites₃⟩ := writes_store (hwrites₂.isOpen (hwrites.isOpen hready.isOpen)) hstore
  rw [← hwidth] at hwrites₂ hwrites₃
  have hall := (hwrites.trans hready.isOpen.name hwrites₂).trans hready.isOpen.name hwrites₃
  obtain ⟨table, hchange, rfl⟩ := changeTable_eq_ok.1 hset
  rw [hall.table] at hchange
  obtain ⟨hwalked, hextends, hpath, hentered⟩ :=
    hready.walked.declare ⟨slot, ty⟩ (hready.layout.names _ _ hplaced) hready.inside hchange
  have hlevels : slots ≠ [] := by
    rintro rfl
    exact hready.inside (List.forall₂_nil_right_iff.1 hready.walked.levels)
  refine ⟨⟨f₃, _, s.printing⟩, slots.declare name ⟨slot, ty⟩,
    ⟨(grows_writes hready.stage hall).congr rfl rfl rfl, ?_, ?_, ?_, fun _ => ?_, by simp [Stmt.jumps], ?_⟩, ?_⟩
  · exact hall.steady.loopExit
  · refine ⟨hwalked, hextends, hpath, ?_, ?_, ?_⟩
    · rw [hentered]
      rfl
    · rw [hentered]
    · cases slots <;> rfl
  · exact kept_declare hready.kept hall.wrote.used (hwrites₃.wrote.used hslot.mem)
  · exact (hall.isOpen hready.isOpen).congr rfl rfl rfl
  · intro w hfinal _
    have hcode := codeAt_open (hall.isOpen hready.isOpen) hall.place hfinal s.printing
    rw [List.append_assoc, List.append_assoc] at hcode
    exact simulates_declare hready.kept hlevels (hcomputes w) hslot.not_mem hcode
  · rw [slotTypes_declare]
    simp only [Stmt.typesAfter, hty]

theorem generates_break (id : NodeId) : (Stmt.breakOut id).Generates := by
  intro origin layout g g' s slots next depth operand hready hfits h
  obtain ⟨depth, rfl, hnode⟩ := visitWithin_node h
  have hshown : Shown g.graph id .breaking [] :=
    hready.cached.retyped.shown hfits.stands
  simp only [hshown.kind, Emit.emitNode, Emit.silently, Emit.emitBreak, bind_eq_ok, get_eq_ok, pure_eq_ok] at hnode
  obtain ⟨_, _, ⟨_, _, ⟨rfl, rfl⟩, hbranch⟩, rfl, rfl⟩ := hnode
  obtain ⟨target, htarget⟩ := Option.isSome_iff_exists.1 (show g.loopExit.isSome = true from hfits.orderly)
  rw [htarget] at hbranch
  obtain ⟨f', rfl, hwrote, hgrows, hclosed⟩ := terminate_ok hready.stage hready.isOpen rfl hbranch
  refine ⟨_, slots, ⟨hgrows, rfl, Advanced.refl hready.walked, hready.kept.mono hwrote.used, by simp [Stmt.jumps],
    fun _ => hclosed, fun w hfinal _ => ?_⟩, rfl⟩
  rw [htarget]
  exact simulates_break (hready.kept.mono hwrote.used)
    (hfinal.jumpsTo hclosed.block (hgrows.develops.isSome (hready.exit target htarget)))

end Simple

/-! ### Lists of statements, and blocks -/

def Stmts.Generates (statements : Stmts) : Prop :=
  ∀ origin layout g g' s slots next depth u, Ready origin layout g s slots next →
    statements.part.Fits origin.graph layout g.table.current (g.table.entered.headD 0) next
      (slotTypes slots) g.loopExit.isSome →
    (forIn statements.values PUnit.unit fun statement _ => do
      let _ ← Emit.visitWithin depth statement
      pure (ForInStep.yield PUnit.unit) : Emit PUnit) g = .ok u g' →
    ∃ s' after, Generated 1 slots next statements.blocks statements.size statements.jumps
      (Stmts.exec · statements) g s after g' s'

def Block.Generates (body : Block) : Prop :=
  ∀ origin layout g g' s slots next depth operand, Ready origin layout g s slots next →
    body.part.Fits origin.graph layout g.table.current (g.table.entered.headD 0) next (slotTypes slots)
      g.loopExit.isSome →
    Emit.visitWithin depth body.value g = .ok operand g' →
    ∃ s', Generated 0 slots next 1 body.size body.jumps (Block.exec · body) g s slots g' s'

theorem generates_nil : Stmts.nil.Generates := by
  intro origin layout g g' s slots next depth u hready hfits h
  simp only [Stmts.values, List.forIn_nil, pure_eq_ok] at h
  obtain ⟨-, rfl⟩ := h
  exact ⟨s, slots, Grows.refl hready.stage, rfl, Advanced.refl hready.walked, hready.kept,
    fun _ => hready.isOpen, by simp [Stmts.jumps], fun w _ _ => simulates_nil⟩

theorem generates_cons {head : Stmt} {tail : Stmts} (hhead : head.Generates) (htail : tail.Generates) :
    (Stmts.cons head tail).Generates := by
  intro origin layout g g' s slots next depth u hready hfits h
  obtain ⟨hfitsHead, hfitsTail, hend⟩ := hfits.cons
  simp only [Stmts.values, List.forIn_cons, bind_eq_ok, pure_eq_ok] at h
  obtain ⟨_, _, ⟨_, g₁, hvisit, rfl, rfl⟩, hrest⟩ := h
  obtain ⟨s₁, middle, hgenerated, htypes⟩ :=
    hhead origin layout g g₁ s slots next depth _ hready hfitsHead hvisit
  have hmiddle := hgenerated.advanced.tail
  rcases hend with rfl | hgoes
  · -- Nothing follows, so the head may end in a jump.
    simp only [Stmts.values, List.forIn_nil, pure_eq_ok] at hrest
    obtain ⟨-, rfl⟩ := hrest
    obtain ⟨hgrows, hexit, hadvanced, hkept, hopen, hclosed, hsimulates⟩ := hgenerated
    exact ⟨s₁, middle, hgrows, hexit, hadvanced, hkept, hopen, hclosed, fun w hfinal hprints =>
      simulates_cons (hsimulates w hfinal hprints).lose simulates_nil hmiddle⟩
  · have hready₁ := hgenerated.ready hready hgoes
    rw [← hgenerated.advanced.current, ← hgenerated.advanced.entered, ← htypes, ← hgenerated.loopExit] at hfitsTail
    obtain ⟨s₂, after, htailGenerated⟩ :=
      htail origin layout g₁ g' s₁ middle (next + head.size) depth u hready₁ hfitsTail hrest
    have hjumps : (Stmts.cons head tail).jumps = tail.jumps := by
      cases tail with
      | nil => simp [Stmts.jumps, Stmts.isEmpty, hgoes]
      | cons => simp [Stmts.jumps, Stmts.isEmpty]
    refine ⟨s₂, after, hgenerated.grows.trans htailGenerated.grows, htailGenerated.loopExit.trans hgenerated.loopExit,
      hgenerated.advanced.trans htailGenerated.advanced, htailGenerated.kept, ?_, ?_, fun w hfinal hprints => ?_⟩
    · rw [hjumps]
      exact htailGenerated.goesOn
    · rw [hjumps]
      exact htailGenerated.ended
    · have htailSimulates := htailGenerated.simulates w hfinal hprints
      rw [hgenerated.loopExit] at htailSimulates
      exact simulates_cons (hgenerated.simulates w (htailGenerated.grows.develops.final hfinal)
        fun hprinting => hprints (htailGenerated.grows.printing hprinting)).lose htailSimulates hmiddle

theorem generates_block {id : NodeId} {statements : Stmts} (hstatements : statements.Generates) :
    (Block.mk id statements).Generates := by
  intro origin layout g g' s slots next depth operand hready hfits h
  obtain ⟨depth, rfl, hnode⟩ := visitWithin_node h
  obtain ⟨hshown, hchild, hfitsStatements⟩ := hfits.statements
  have hshown' := hready.cached.retyped.shown hshown
  simp only [hshown'.kind, Emit.emitNode, Emit.silently, Emit.emitBlock, bind_eq_ok, changeTable_eq_ok,
    Emit.attribute_eq_ok, pure_eq_ok] at hnode
  obtain ⟨_, _, ⟨_, _, ⟨inner, henter, rfl⟩, _, _, ⟨hvalues, rfl⟩, items, _, hitems, _, g₂, hvisit, outer, hexit, rfl⟩,
    rfl, rfl⟩ := hnode
  obtain rfl : _ = Value.list statements.values := hshown'.get_eq hvalues
  obtain ⟨rfl, rfl⟩ : statements.values = items ∧ _ = _ := by simpa using hitems
  obtain ⟨hwalked, hextends, hpath, hentered⟩ :=
    hready.walked.enter henter (hready.layout.children _ _ _ hchild)
  have hready₁ : Ready origin layout { g with table := inner } s ([] :: slots) (next + 1) :=
    ⟨hready.stage.congr rfl rfl, hready.isOpen.congr rfl rfl rfl, hwalked, hready.kept, hready.exit, by simp [hpath],
      hready.cached, hready.layout.trans hextends⟩
  have hcurrent : inner.current = next := by simp [ScopeTable.current, hpath]
  have hfirst : inner.entered.headD 0 = 0 := by simp [hentered]
  obtain ⟨s₂, after, hgenerated⟩ :=
    hstatements origin layout _ g₂ s _ (next + 1) depth _ hready₁ (by
      show statements.part.Fits _ _ inner.current (inner.entered.headD 0) _ ([] :: slotTypes slots) _
      rw [hcurrent, hfirst]
      exact hfitsStatements) hvisit
  obtain ⟨hwalked₂, hextends₂, hpath₂, hentered₂⟩ := hgenerated.advanced.walked.leave hexit
  have htail : after.tail = slots := hgenerated.advanced.tail
  rw [htail, Nat.add_right_comm, Nat.add_assoc] at hwalked₂
  have hadvanced : Advanced g.table slots next 1 (Block.mk id statements).size outer slots := by
    refine ⟨hwalked₂, (hextends.trans hgenerated.advanced.layout).trans hextends₂, ?_, ?_, ?_, rfl⟩
    · rw [hpath₂, hgenerated.advanced.path]
      exact congrArg List.tail hpath
    · rw [hentered₂, hgenerated.advanced.outer]
      simp [hentered]
    · rw [hentered₂, hgenerated.advanced.outer]
      simp [hentered]
  obtain ⟨hstage, hdevelops, hplace, hprinting, hcached⟩ := hgenerated.grows
  refine ⟨s₂, ⟨hstage.congr rfl rfl, hdevelops, hplace, hprinting, hcached⟩, hgenerated.loopExit, hadvanced, ?_,
    fun hjumps => (hgenerated.goesOn hjumps).congr rfl rfl rfl,
    fun hjumps => (hgenerated.ended hjumps).congr rfl rfl rfl,
    fun w hfinal hprints => simulates_block (hgenerated.simulates w hfinal hprints) htail⟩
  intro entry hentry
  refine hgenerated.kept entry ?_
  rw [← htail] at hentry
  cases after with
  | nil => exact hentry
  | cons => simp only [List.flatten_cons, List.mem_append]; exact Or.inr hentry

end Scriptlet.Core
