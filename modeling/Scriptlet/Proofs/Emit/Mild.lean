import Scriptlet.Proofs.TypeNotes

/-!
Rules of conduct that the generator keeps whatever it does: they mind announcements, the graph and the
table of scopes, and not the module that is built.
-/

set_option synthInstance.maxSize 1000000

namespace Scriptlet

namespace Draft

variable {α : Type}

/-- Nothing is said and only notes are left behind. -/
def annotating : Rule Draft where
  step draft later := draft.graph.Noted later.graph ∧ later.journal.Agrees draft.journal
  stop failure draft later := failure.isOrdinary ∧ draft.graph.Noted later.graph ∧ later.journal.Agrees draft.journal
  refl _ := ⟨.refl _, .refl _⟩
  trans h h' := ⟨h.1.trans h'.1, h.2.trans h'.2⟩
  stop_of_step h h' := ⟨h'.1, h.1.trans h'.2.1, h.2.trans h'.2.2⟩
  step_of_stop _ h := h.2

instance : annotating.IsPatient :=
  ⟨fun _ h => ⟨h, .refl _, .refl _⟩⟩

instance (value : Value) : Obeys annotating (typeOf value) := by
  have h : Obeys noting (typeOf value) := inferInstance
  refine ⟨fun draft => ?_⟩
  cases hx : typeOf value draft with
  | ok a later => exact ⟨(h.step hx).1, (h.step hx).2 ▸ .refl _⟩
  | error failure later => exact ⟨(h.stop hx).1, (h.stop hx).2.1, (h.stop hx).2.2 ▸ .refl _⟩

end Draft

namespace Emit

open Ir (Ty Operand Instruction Global)

variable {type : Ty} {operand left right : Operand} {base name : String} {instruction : Instruction}
variable {failure : Failure} {indices : List Operand}

/-- A rule that minds only announcements, the graph and the table of scopes. -/
class Mild (rule : Rule Generation) : Prop where
  step_draft : ∀ (g : Generation) (draft : Draft), g.graph.Noted draft.graph → draft.journal.Agrees g.journal →
    rule.step g { g with toDraft := draft }
  stop_draft : ∀ (failure : Failure) (g : Generation) (draft : Draft), failure.isOrdinary → g.graph.Noted draft.graph →
    draft.journal.Agrees g.journal → rule.stop failure g { g with toDraft := draft }
  step : ∀ {g h : Generation}, h.toDraft = g.toDraft → h.table = g.table → rule.step g h
  fail : ∀ {α : Type} (fault : Fault), Obeys rule (fail fault : Emit α)
  report : ∀ report : Report, Obeys rule (liftM (liftM (Journal.report report) : Draft.Action Unit) : Emit Unit)
  refuse : ∀ {α : Type} (failure : Failure), Obeys rule (refuse failure : Emit α)

variable {α : Type} {rule : Rule Generation} [hrule : Mild rule]

theorem Mild.modify {change : Generation → Generation}
    (h : ∀ g, (change g).toDraft = g.toDraft ∧ (change g).table = g.table) : Obeys rule (modify change : Emit PUnit) :=
  .modify fun g => hrule.step (h g).1 (h g).2

instance (fault : Fault) : Obeys rule (fail fault : Emit α) :=
  hrule.fail fault

instance (report : Report) : Obeys rule (liftM (liftM (Journal.report report) : Draft.Action Unit) : Emit Unit) :=
  hrule.report report

instance : Obeys rule (refuse failure : Emit α) :=
  hrule.refuse failure

instance (x : Except Fault α) : Obeys rule (orFail x : Emit α) := by
  unfold orFail
  split <;> infer_instance

instance {x : Draft.Action α} [h : Obeys Draft.annotating x] : Obeys rule (liftM x : Emit α) := by
  refine ⟨fun g => ?_⟩
  show rule.Allows g (match x g.toDraft with
    | .ok value draft => EStateM.Result.ok value { g with toDraft := draft }
    | .error failure draft => .error failure { g with toDraft := draft })
  cases hx : x g.toDraft with
  | ok a draft => exact hrule.step_draft g draft (h.step hx).1 (h.step hx).2
  | error failure draft =>
      obtain ⟨hordinary, hnoted, hagrees⟩ := h.stop hx
      exact hrule.stop_draft failure g draft hordinary hnoted hagrees

instance [h : Holds failure.isOrdinary] : Obeys rule (throw failure : Emit α) :=
  .throw fun g => hrule.stop_draft failure g g.toDraft h.eq_true (.refl _) (.refl _)

instance : Obeys rule table := by
  unfold table
  infer_instance

instance : Obeys rule currentBlock := by
  refine .bind inferInstance fun generation => ?_
  split <;> infer_instance

instance : Obeys rule isTerminated := by
  unfold isTerminated
  infer_instance

instance (place : BlockRef) : Obeys rule (goToEnd place) := by
  have hplace : Obeys rule (modify fun generation => { generation with place } : Emit PUnit) :=
    hrule.modify fun _ => ⟨rfl, rfl⟩
  have hanchor : ∀ anchor, Obeys rule (modify fun generation => { generation with anchor } : Emit PUnit) :=
    fun _ => hrule.modify fun _ => ⟨rfl, rfl⟩
  unfold goToEnd
  infer_instance

instance (change : Ir.Function → α × Ir.Function) (default : α) : Obeys rule (modifyFunction name change default) := by
  refine .modifyGet fun g => ?_
  split
  · exact hrule.step rfl rfl
  · exact rule.refl g

instance : Obeys rule (appendBlock base) := by
  unfold appendBlock
  infer_instance

instance : Obeys rule (freshName base) := by
  unfold freshName
  infer_instance

instance : Obeys rule (insert instruction) :=
  hrule.modify fun _ => ⟨rfl, rfl⟩

instance (make : String → Instruction) : Obeys rule (emit type make base) := by
  unfold emit
  infer_instance

instance : Obeys rule (emitVoid instruction) := by
  unfold emitVoid
  infer_instance

instance : Obeys rule (terminate instruction) := by
  unfold terminate
  infer_instance

instance : Obeys rule (typeOf operand) := by
  unfold typeOf
  infer_instance

instance : Obeys rule (pointerTo type) := by
  unfold pointerTo
  split <;> infer_instance

instance : Obeys rule (alloca type base) := by
  unfold alloca
  infer_instance

instance (value target : Operand) : Obeys rule (store value target) := by
  refine .bind inferInstance fun type => ?_
  split <;> infer_instance

instance (source : Operand) : Obeys rule (load source base) := by
  refine .bind inferInstance fun type => ?_
  split <;> infer_instance

instance (opcode : Ir.Opcode) : Obeys rule (binary opcode left right) := by
  unfold binary
  infer_instance

instance : Obeys rule (complement operand) := by
  unfold complement
  infer_instance

instance (relation : Ir.Relation) : Obeys rule (compareInts relation left right) := by
  unfold compareInts
  infer_instance

instance (relation : Ir.Relation) : Obeys rule (compareDoubles relation left right) := by
  unfold compareDoubles
  infer_instance

instance (conversion : Ir.Conversion) : Obeys rule (convert conversion operand type) := by
  unfold convert
  infer_instance

instance : Obeys rule (toDouble operand) := by
  unfold toDouble
  infer_instance

instance : Obeys rule (toText operand) := by
  unfold toText
  infer_instance

instance (index : Operand) : Obeys rule (indexed type index) := by
  refine .bind inferInstance fun found => ?_
  split
  · split <;> infer_instance
  · infer_instance

instance (last : Ty) : Obeys rule (indexedAll last type indices) := by
  induction indices generalizing last type with
  | nil => exact inferInstanceAs (Obeys rule (pure _))
  | cons index rest ih =>
      unfold indexedAll
      infer_instance

instance (base : Operand) : Obeys rule (elementPointer base indices) := by
  unfold elementPointer
  infer_instance

theorem mild_checkArguments :
    ∀ position parameters arguments, Obeys rule (checkArguments position parameters arguments)
  | _, [], _ => inferInstanceAs (Obeys rule (pure _))
  | _, _ :: _, [] => inferInstanceAs (Obeys rule (fail _))
  | position, expected :: parameters, argument :: arguments => by
      have hrest := mild_checkArguments (position + 1) parameters arguments
      unfold checkArguments
      infer_instance

instance (callee : Global) (arguments : List Operand) : Obeys rule (call callee arguments) := by
  have harguments : ∀ position parameters arguments, Obeys rule (checkArguments position parameters arguments) :=
    mild_checkArguments
  unfold call
  split <;> infer_instance

instance (target : Option String) : Obeys rule (branch target) := by
  unfold branch
  infer_instance

instance (target : BlockRef) : Obeys rule (branchTo target) := by
  unfold branchTo
  infer_instance

instance (condition : Operand) (yes no : BlockRef) : Obeys rule (branchIf condition yes no) := by
  unfold branchIf
  infer_instance

instance : Obeys rule (global? name) := by
  unfold global?
  infer_instance

instance : Obeys rule (global name) := by
  refine .bind inferInstance fun found => ?_
  split <;> infer_instance

instance (added : Global) : Obeys rule (addGlobal added) := by
  have hmodule : ∀ module, Obeys rule (modify fun generation => { generation with module } : Emit PUnit) :=
    fun _ => hrule.modify fun _ => ⟨rfl, rfl⟩
  unfold addGlobal
  infer_instance

instance (needed : Global) : Obeys rule (ensureGlobal needed) := by
  unfold ensureGlobal
  infer_instance

instance : Obeys rule (require name) := by
  unfold require
  infer_instance

instance (pointer : Operand) : Obeys rule (clearBuffer pointer) := by
  unfold clearBuffer
  infer_instance

/-! #### Expressions -/

section Visits

variable (visit : Value → Emit Operand) [hvisit : ∀ value, Obeys rule (visit value)]
variable {node operator : Value} {left right value receiver : Operand}
variable {sort : String} {merge : Option BlockRef} {position : Nat}

instance (type : Value) : Obeys rule (irType type) := by
  unfold irType
  split <;> infer_instance

instance (constant : Ir.Constant) : Obeys rule (constantInSlot type constant base) := by
  unfold constantInSlot
  infer_instance

instance (text : String) : Obeys rule (textInSlot text) := by
  have hcount : ∀ stringCount, Obeys rule (modify fun generation => { generation with stringCount } : Emit PUnit) :=
    fun _ => hrule.modify fun _ => ⟨rfl, rfl⟩
  unfold textInSlot
  infer_instance

instance : Obeys rule (emitString node) := by
  refine .bind inferInstance fun value => ?_
  split <;> infer_instance

instance : Obeys rule (emitReference node) := by
  refine .bind inferInstance fun name => .bind inferInstance fun _ => .bind inferInstance fun _ =>
    .bind inferInstance fun reference => ?_
  split <;> infer_instance

instance : Obeys rule (power left right) := by
  unfold power
  infer_instance

instance : Obeys rule (unknownOperator sort operator) := by
  unfold unknownOperator
  infer_instance

instance : Obeys rule (doubleOperation sort operator left right) := by
  unfold doubleOperation
  split <;> infer_instance

instance : Obeys rule (intOperation operator left right) := by
  unfold intOperation
  split <;> infer_instance

instance : Obeys rule (emitUnary visit node) := by
  unfold emitUnary negateDouble negateInt
  refine .bind inferInstance fun _ => .bind inferInstance fun operand => .bind inferInstance fun operator => ?_
  split <;> infer_instance

instance : Obeys rule (relation operator) := by
  unfold relation
  split
  · split <;> infer_instance
  · infer_instance

instance : Obeys rule (emitLogical visit node) := by
  refine .bind inferInstance fun _ => .bind inferInstance fun left => .bind inferInstance fun _ =>
    .bind inferInstance fun right => .bind inferInstance fun operator => ?_
  split <;> infer_instance

instance (place : Operand) (parts : List Value) : Obeys rule (appendParts visit node place parts) := by
  induction parts generalizing place with
  | nil => exact inferInstanceAs (Obeys rule (pure _))
  | cons part rest ih =>
      unfold appendParts asText writeNumber
      dsimp only
      split <;> infer_instance

/-! #### Calls -/

instance : Obeys rule (firstArgument node) := by
  refine .bind inferInstance fun _ => .bind inferInstance fun items => ?_
  split <;> infer_instance

instance : Obeys rule (emitPrint visit node) := by
  unfold emitPrint printTruth
  refine .bind inferInstance fun _ => .bind inferInstance fun value => .bind inferInstance fun _ =>
    .bind inferInstance fun type => .bind inferInstance fun ty => ?_
  split
  · refine .bind inferInstance fun _ => .bind inferInstance fun _ => .bind inferInstance fun format =>
      .bind inferInstance fun printf => ?_
    dsimp only
    split <;> infer_instance
  · infer_instance

instance : Obeys rule (emitCall visit node) := by
  unfold emitCall emitInput emitArguments
  refine .bind inferInstance fun name => ?_
  split <;> infer_instance

instance : Obeys rule (emitMethod visit node) := by
  unfold emitMethod callToInteger callToDouble callLength
  refine .bind inferInstance fun _ => .bind inferInstance fun receiver => .bind inferInstance fun name =>
    .bind inferInstance fun receiverType => ?_
  extract_lets type known
  have hknown : ∀ u, Obeys rule (known u) := by
    intro u
    unfold known
    split <;> infer_instance
  clear_value known
  infer_instance

/-! #### Statements -/

instance (name : Value) (expected : Ty) : Obeys rule (fitValue node name value expected) := by
  refine .bind inferInstance fun given => ?_
  split
  · infer_instance
  · split
    · refine .bind inferInstance fun line => ?_
      dsimp only
      split <;> infer_instance
    · infer_instance

instance : Obeys rule (emitUpdate visit node) := by
  refine .bind inferInstance fun name => .bind inferInstance fun table => ?_
  extract_lets known
  have hknown : ∀ u, Obeys rule (known u) := by
    intro u
    refine .bind inferInstance fun _ => .bind inferInstance fun value => .bind inferInstance fun _ =>
      .bind inferInstance fun _ => .bind inferInstance fun expected => .bind inferInstance fun _ =>
      .bind inferInstance fun reference => ?_
    split <;> infer_instance
  clear_value known
  infer_instance

instance : Obeys rule padBlock := by
  have hanchor : Obeys rule (modify fun generation => { generation with anchor := 0 } : Emit PUnit) :=
    hrule.modify fun _ => ⟨rfl, rfl⟩
  unfold padBlock
  infer_instance

instance : Obeys rule (endBranch merge) := by
  refine .bind inferInstance fun _ => .bind inferInstance fun ended => ?_
  dsimp only
  split
  · infer_instance
  · split <;> infer_instance

instance (value : Value) : Obeys rule (pairOf value) := by
  refine .bind inferInstance fun items => ?_
  split <;> infer_instance

instance (branches : List Value) : Obeys rule (emitBranches visit position branches merge) := by
  induction branches generalizing position merge with
  | nil => exact inferInstanceAs (Obeys rule (pure _))
  | cons branch rest ih =>
      unfold emitBranches
      infer_instance

instance : Obeys rule (emitConditional visit node) := by
  refine .bind inferInstance fun _ => .bind inferInstance fun value => .bind inferInstance fun yes =>
    .bind inferInstance fun no => .bind inferInstance fun _ => .bind inferInstance fun _ => .bind inferInstance fun _ =>
    .bind inferInstance fun _ => .bind inferInstance fun merge => .bind inferInstance fun _ =>
    .bind inferInstance fun branches => .bind inferInstance fun _ => .bind inferInstance fun _ =>
    .bind inferInstance fun merge => .bind inferInstance fun otherwise => ?_
  extract_lets last
  have hlast : ∀ u, Obeys rule (last u) := by
    intro u
    refine .bind inferInstance fun merge => ?_
    split <;> infer_instance
  clear_value last
  infer_instance

instance : Obeys rule (emitLoop visit node) := by
  have hexit : ∀ loopExit, Obeys rule (modify fun generation => { generation with loopExit } : Emit PUnit) :=
    fun _ => hrule.modify fun _ => ⟨rfl, rfl⟩
  unfold emitLoop
  infer_instance

instance [∀ change, Obeys rule (changeTable change)] (function : String) (parameters : List Value) :
    Obeys rule (emitParameters function position parameters) := by
  induction parameters generalizing position with
  | nil => exact inferInstanceAs (Obeys rule (pure _))
  | cons parameter rest ih =>
      unfold emitParameters
      infer_instance

instance : Obeys rule returnToMain := by
  refine .bind inferInstance fun g => ?_
  split
  · split <;> infer_instance
  · infer_instance

instance : Obeys rule (returnable value) := by
  unfold returnable
  split <;> infer_instance

instance : Obeys rule (emitProgram visit node) := by
  refine .bind inferInstance fun outcome => ?_
  split <;> infer_instance

instance [∀ change, Obeys rule (changeTable change)] (kind : Kind) : Obeys rule (emitNode visit node kind) := by
  cases kind <;>
    simp only [emitNode, silently, emitInteger, emitDouble, emitBoolean, emitBinary, emitComparison, compareTexts, emitConcat,
      emitDeclaration, emitBlock, emitBreak, emitFunction, emitReturn] <;>
    infer_instance

end Visits

instance [∀ change, Obeys rule (changeTable change)] (depth : Nat) (value : Value) : Obeys rule (visitWithin depth value) := by
  induction depth generalizing value with
  | zero => exact inferInstanceAs (Obeys rule (fail _))
  | succ depth ih =>
      refine .bind inferInstance fun graph => ?_
      split <;> infer_instance

end Emit

end Scriptlet
