import Scriptlet.Proofs.Core.Places
import Scriptlet.Proofs.Core.Simulation
import Scriptlet.Proofs.Core.Typing
import Scriptlet.Proofs.Emission

/-!
The code that is generated for expressions: it goes to the end of the current block, has no jumps, and
computes the value.
-/

namespace Scriptlet

@[simp] theorem Ir.Ty.beq_int (type : Ty) (width : Nat) : (type == .int width) = true ↔ type = .int width := by
  show Ty.beq type (.int width) = true ↔ _
  cases type <;> simp [Ty.beq]

@[simp] theorem Emit.typeOf_eq_ok {operand : Ir.Operand} {type : Ir.Ty} {g g' : Generation} :
    Emit.typeOf operand g = .ok type g' ↔ operand.type? = some type ∧ g = g' := by
  rw [Emit.typeOf, orFail_eq_ok, Ir.Operand.type]
  cases operand.type? <;> simp

@[simp] theorem Emit.refuse_ne_ok {α : Type} {failure : Failure} {a : α} {g g' : Generation} :
    ¬ (Emit.refuse failure : Emit α) g = .ok a g' := by
  simp [Emit.refuse]

namespace Core

open Ir (Instruction Operand)

theorem Ty.ir_injective {a b : Ty} (h : a.ir = b.ir) : a = b := by
  cases a <;> cases b <;> simp_all [Ty.ir]

/-- The code of an expression has been written; besides, some types have been remembered. -/
structure Writes (g : Generation) (f : Ir.Function) (code : List Instruction) (g' : Generation)
    (f' : Ir.Function) : Prop where
  state : g' = { g.put f' (g.anchor + code.length) with toDraft := g'.toDraft }
  wrote : f.Wrote g.place.block code f'
  plain : ∀ instruction ∈ code, instruction.isTerminator = false
  cached : Cached g.toDraft g'.toDraft

section Writes

variable {g g' g₁ g₂ : Generation} {f f' f₁ f₂ : Ir.Function} {code code₁ : List Instruction}
  {instructions : List Instruction}

theorem Writes.isOpen (h : Writes g f code g' f') (hopen : g.Open f instructions) :
    g'.Open f' (instructions ++ code) := by
  have hput := hopen.wrote h.wrote h.plain
  rw [h.state]
  exact ⟨⟨hput.current, hput.block, hput.named⟩, hput.anchor, hput.plain⟩

theorem Writes.place (h : Writes g f code g' f') : g'.place = g.place := by
  rw [h.state]
  rfl

theorem Writes.table (h : Writes g f code g' f') : g'.table = g.table := by
  rw [h.state]
  rfl

theorem Writes.trans (hname : f.name = g.place.function) (h : Writes g f code g₁ f₁)
    (h₁ : Writes g₁ f₁ code₁ g₂ f₂) : Writes g f (code ++ code₁) g₂ f₂ := by
  refine ⟨?_, ?_, fun instruction hmem => ?_, h.cached.trans h₁.cached⟩
  · rw [h₁.state, h.state]
    have hput : ((g.put f₁ (g.anchor + code.length)).put f₂ (g.anchor + code.length + code₁.length)) =
        g.put f₂ (g.anchor + (code ++ code₁).length) := by
      rw [Generation.put_put (h.wrote.name.trans hname), List.length_append, Nat.add_assoc]
    show ({ (g.put f₁ (g.anchor + code.length)).put f₂ (g.anchor + code.length + code₁.length) with
      toDraft := g₂.toDraft } : Generation) = _
    rw [hput]
  · have hwrote₁ := h₁.wrote
    rw [h.place] at hwrote₁
    exact h.wrote.trans hwrote₁
  · exact (List.mem_append.1 hmem).elim (h.plain instruction) (h₁.plain instruction)

/-- Types may be remembered after the code has been written. -/
theorem Writes.remember (h : Writes g f code g' f') {draft : Draft} (hcached : Cached g'.toDraft draft) :
    Writes g f code { g' with toDraft := draft } f' := by
  refine ⟨?_, h.wrote, h.plain, h.cached.trans hcached⟩
  rw [h.state]

/-! ### Single instructions -/

variable {operand left right : Operand} {type : Ir.Ty} {width : Nat} {base name : String} {u : Unit}
  {make : String → Instruction}

theorem writes_emit (hopen : g.Open f instructions)
    (hplain : ∀ name, (make name).isTerminator = false) (h : Emit.emit type make base g = .ok operand g') :
    ∃ result f', operand = .register result type ∧ Writes g f [make result] g' f' ∧
      Fresh result f.names.used f'.names.used := by
  obtain ⟨f', heq, hwrote, hmem⟩ := Emit.emit_open hopen type make base
  rw [heq] at h
  obtain ⟨rfl, rfl⟩ := (EStateM.Result.ok.injEq ..).mp h
  exact ⟨_, f', rfl, ⟨rfl, hwrote, by simpa using hplain _, Cached.refl _⟩, f.names.fresh_not_used base, hmem, hwrote.used⟩

theorem writes_emitVoid {instruction : Instruction} (hopen : g.Open f instructions)
    (hplain : instruction.isTerminator = false) (h : Emit.emitVoid instruction g = .ok u g') :
    ∃ f', Writes g f [instruction] g' f' := by
  obtain ⟨f', heq, hwrote⟩ := Emit.emitVoid_open hopen instruction
  rw [heq] at h
  obtain ⟨-, rfl⟩ := (EStateM.Result.ok.injEq ..).mp h
  exact ⟨f', rfl, hwrote, by simpa using hplain, Cached.refl _⟩

theorem writes_alloca (hopen : g.Open f instructions)
    (h : Emit.alloca (.int width) base g = .ok operand g') :
    ∃ slot f', operand = .register slot (.pointer (.int width)) ∧
      Writes g f [.alloca slot (.int width)] g' f' ∧ Fresh slot f.names.used f'.names.used :=
  writes_emit hopen (fun _ => rfl) h

theorem writes_store {slot : String} (hopen : g.Open f instructions)
    (h : Emit.store operand (.register slot (.pointer (.int width))) g = .ok u g') :
    operand.type? = some (.int width) ∧
      ∃ f', Writes g f [.store operand (.register slot (.pointer (.int width)))] g' f' := by
  simp only [Emit.store, bind_eq_ok, Emit.typeOf_eq_ok] at h
  obtain ⟨_, _, ⟨htarget, rfl⟩, h⟩ := h
  obtain rfl := Option.some.inj htarget
  simp only [bind_eq_ok, Emit.typeOf_eq_ok] at h
  obtain ⟨given, _, ⟨hgiven, rfl⟩, h⟩ := h
  split at h
  case isTrue heq =>
    rw [Ir.Ty.beq_int] at heq
    subst heq
    exact ⟨hgiven, writes_emitVoid hopen rfl h⟩
  case isFalse => simp at h

theorem writes_load {slot : String} (hopen : g.Open f instructions)
    (h : Emit.load (.register slot (.pointer type)) base g = .ok operand g') :
    ∃ result f', operand = .register result type ∧
      Writes g f [.load result type (.register slot (.pointer type))] g' f' ∧
      Fresh result f.names.used f'.names.used := by
  simp only [Emit.load, bind_eq_ok, Emit.typeOf_eq_ok] at h
  obtain ⟨_, _, ⟨hsource, rfl⟩, h⟩ := h
  obtain rfl := Option.some.inj hsource
  exact writes_emit hopen (fun _ => rfl) h

theorem writes_binary {opcode : Ir.Opcode} (hopen : g.Open f instructions)
    (hright : right.type? = some (.int width)) (h : Emit.binary opcode left right g = .ok operand g') :
    left.type? = some (.int width) ∧ ∃ result f', operand = .register result (.int width) ∧
      Writes g f [.binary result opcode (.int width) left right] g' f' ∧
      Fresh result f.names.used f'.names.used := by
  simp only [Emit.binary, bind_eq_ok, Emit.typeOf_eq_ok, hright] at h
  obtain ⟨leftType, _, ⟨hleft, rfl⟩, rightType, _, ⟨hrightType, rfl⟩, h⟩ := h
  obtain rfl := Option.some.inj hrightType
  split at h
  case isTrue heq =>
    rw [Ir.Ty.beq_int] at heq
    subst heq
    exact ⟨hleft, writes_emit hopen (fun _ => rfl) h⟩
  case isFalse => simp at h

end Writes

/-! ### Expressions -/

/-- The types of the variables that have slots. -/
def slotTypes (slots : Scopes Slot) : Types :=
  slots.map fun entries => entries.map fun entry => (entry.1, some entry.2.ty)

theorem find?_slotTypes (slots : Scopes Slot) (name : String) :
    (slotTypes slots).find? name = (slots.find? name).map fun slot => some slot.ty := by
  have hlookup : ∀ entries : List (String × Slot),
      (entries.map fun entry => (entry.1, some entry.2.ty)).lookup name =
        (entries.lookup name).map fun slot => some slot.ty := by
    intro entries
    induction entries with
    | nil => rfl
    | cons entry rest ih =>
        rw [List.map_cons, List.lookup_cons, List.lookup_cons]
        by_cases h : name = entry.1
        · simp [h]
        · simpa [beq_eq_false_iff_ne.2 h] using ih
  induction slots with
  | nil => rfl
  | cons entries outer ih =>
      simp only [slotTypes, List.map_cons, Scopes.find?, List.findSome?_cons, hlookup] at ih ⊢
      cases entries.lookup name with
      | none => exact ih
      | some slot => rfl

/-- No integer stands where a truth value is asked for. -/
def Expr.Sound (types : Types) : Expr → Prop
  | .int .. | .bool .. | .var .. => True
  | .neg _ operand => operand.Sound types
  | .not _ operand => operand.typeIn types ≠ some .int ∧ operand.Sound types
  | .arith _ _ left right | .compare _ _ left right => left.Sound types ∧ right.Sound types
  | .logic _ _ left right =>
      (left.typeIn types ≠ some .int ∧ left.Sound types) ∧
        right.typeIn types ≠ some .int ∧ right.Sound types

/-- The code of an expression has been generated. -/
def Coded (slots : Scopes Slot) (e : Expr) (g : Generation) (f : Ir.Function) (operand : Operand)
    (g' : Generation) : Prop :=
  ∃ ty code result f', operand = .register result ty.ir ∧ e.typeIn (slotTypes slots) = some ty ∧
    code ≠ [] ∧ Writes g f code g' f' ∧
    ∀ w, Computes w slots f.names.used code result f'.names.used e ty

def Expr.Emits (e : Expr) : Prop :=
  ∀ depth g g' operand f instructions slots next, g.Open f instructions → e.Tidy g.graph →
    Walked g.table slots next → Kept slots f.names.used → e.Sound (slotTypes slots) →
    Emit.visitWithin depth e.value g = .ok operand g' → Coded slots e g f operand g'

theorem visitWithin_node {depth : Nat} {id : NodeId} {g g' : Generation} {operand : Operand}
    (h : Emit.visitWithin depth (.node id) g = .ok operand g') :
    ∃ n, depth = n + 1 ∧
      Emit.emitNode (Emit.visitWithin n) (.node id) (g.graph.node id).kind g = .ok operand g' := by
  cases depth with
  | zero => simp [Emit.visitWithin] at h
  | succ n =>
      simp only [Emit.visitWithin, bind_eq_ok, lift_currentGraph_eq_ok] at h
      obtain ⟨_, _, ⟨rfl, rfl⟩, h⟩ := h
      exact ⟨n, rfl, h⟩

section Expressions

variable {g g' g₁ g₂ : Generation} {f f' f₁ f₂ : Ir.Function} {instructions : List Instruction}
  {slots : Scopes Slot} {next depth : Nat} {id : NodeId} {operand leftOperand rightOperand : Operand}
  {e left right : Expr}

theorem coded_literal {constant : Ir.Constant} {value : Val} {base : String}
    (hopen : g.Open f instructions) (htype : e.typeIn (slotTypes slots) = some value.ty)
    (hconstant : Machine.Word.ofConstant? value.ty.ir constant = some value.word)
    (heval : ∀ scopes, e.eval scopes = some value)
    (h : Emit.constantInSlot value.ty.ir constant base g = .ok operand g') :
    Coded slots e g f operand g' := by
  obtain ⟨width, hwidth⟩ : ∃ width, value.ty.ir = .int width := by cases value <;> exact ⟨_, rfl⟩
  simp only [Emit.constantInSlot, bind_eq_ok, hwidth] at h
  obtain ⟨_, g₁, halloca, _, g₂, hstore, hload⟩ := h
  obtain ⟨slot, f₁, rfl, hwrites₁, hslot⟩ := writes_alloca hopen halloca
  obtain ⟨-, f₂, hwrites₂⟩ := writes_store (hwrites₁.isOpen hopen) hstore
  obtain ⟨result, f₃, rfl, hwrites₃, hresult⟩ :=
    writes_load (hwrites₂.isOpen (hwrites₁.isOpen hopen)) hload
  have hwrites := (hwrites₁.trans hopen.name hwrites₂).trans hopen.name hwrites₃
  have hused := List.Subset.trans hwrites₁.wrote.used hwrites₂.wrote.used
  refine ⟨value.ty, _, result, f₃, by rw [hwidth], htype, by simp, hwrites, fun w => ?_⟩
  rw [← hwidth]
  exact computes_literal hconstant heval hslot.not_mem
    ⟨fun hmem => hresult.not_mem (hused hmem), hresult.mem, hwrites.wrote.used⟩

/-- The operands of an operation have been visited, and `rest` makes something of the results. -/
theorem coded_operands {kind : Kind} {operator : String} {rest : Value → Operand → Operand → Emit Operand}
    (hpair : e.IsPair left right kind operator) (hleft : left.Emits) (hright : right.Emits)
    (hopen : g.Open f instructions) (htidy : e.Tidy g.graph) (hwalked : Walked g.table slots next)
    (hkept : Kept slots f.names.used) (hsoundLeft : left.Sound (slotTypes slots))
    (hsoundRight : right.Sound (slotTypes slots))
    (hcode : ∀ visit node, Emit.emitNode visit node kind = do
      let left ← visit (← Draft.getField node .left)
      let right ← visit (← Draft.getField node .right)
      rest node left right)
    (h : Emit.visitWithin depth e.value g = .ok operand g') :
    ∃ leftTy rightTy leftCode rightCode leftResult rightResult, ∃ (f₁ f₂ : Ir.Function) (g₂ : Generation),
      left.typeIn (slotTypes slots) = some leftTy ∧ right.typeIn (slotTypes slots) = some rightTy ∧
      Writes g f (leftCode ++ rightCode) g₂ f₂ ∧
      (∀ w, Computes w slots f.names.used leftCode leftResult f₁.names.used left leftTy) ∧
      (∀ w, Computes w slots f₁.names.used rightCode rightResult f₂.names.used right rightTy) ∧
      rest e.value (.register leftResult leftTy.ir) (.register rightResult rightTy.ir) g₂ = .ok operand g' := by
  obtain ⟨n, -, h⟩ := visitWithin_node h
  obtain ⟨hshown, htidyLeft, -⟩ := hpair.tidy htidy
  simp only [hshown.kind, hcode, bind_eq_ok, Emit.attribute_eq_ok] at h
  obtain ⟨_, _, ⟨hl, rfl⟩, leftOperand, g₁, hvisitLeft, _, _, ⟨hr, rfl⟩, rightOperand, g₂, hvisitRight, hrest⟩ := h
  obtain rfl : _ = left.value := hshown.get_eq hl
  obtain ⟨leftTy, leftCode, leftResult, f₁, rfl, hleftTy, -, hwrites₁, hcomputesLeft⟩ :=
    hleft n g g₁ leftOperand f _ slots next hopen htidyLeft hwalked hkept hsoundLeft hvisitLeft
  obtain ⟨hshown₁, -, htidyRight⟩ := hpair.tidy (htidy.retyped hwrites₁.cached.retyped)
  obtain rfl : _ = right.value := hshown₁.get_eq hr
  obtain ⟨rightTy, rightCode, rightResult, f₂, rfl, hrightTy, -, hwrites₂, hcomputesRight⟩ :=
    hright n g₁ g₂ rightOperand f₁ _ slots next (hwrites₁.isOpen hopen) htidyRight (by rwa [hwrites₁.table])
      (hkept.mono hwrites₁.wrote.used) hsoundRight hvisitRight
  exact ⟨leftTy, rightTy, leftCode, rightCode, leftResult, rightResult, f₁, f₂, g₂, hleftTy, hrightTy,
    hwrites₁.trans hopen.name hwrites₂, hcomputesLeft, hcomputesRight, hrest⟩

theorem intOpcode?_symbol (op : Arith) : Emit.intOpcode? (.text op.symbol) = some op.opcode := by
  cases op <;> rfl

theorem ir_beq_i64 (ty : Ty) : (ty.ir == Ir.Ty.i64) = decide (ty = .int) := by
  cases ty <;> rfl

theorem ir_beq_i1 (ty : Ty) : (ty.ir == Ir.Ty.i1) = decide (ty = .bool) := by
  cases ty <;> rfl

theorem ir_beq_double (ty : Ty) : (ty.ir == Ir.Ty.double) = false := by
  cases ty <;> rfl

theorem eq_of_same {a b : Ty}
    (h : (decide (a = .int) && decide (b = .int) || decide (a = .bool) && decide (b = .bool)) = true) :
    a = b := by
  cases a <;> cases b <;> simp_all

theorem typeOf_generation (htidy : e.Tidy g.graph) {type : Value}
    (h : (liftM (Draft.typeOf e.value) : Emit Value) g = .ok type g') :
    ∃ draft, g' = { g with toDraft := draft } ∧ Cached g.toDraft draft ∧
      ∃ read, type = typeValue read ∧ e.Reads g.graph read := by
  obtain ⟨draft, htype, rfl⟩ := lift_eq_ok.1 h
  obtain ⟨hcached, hreads⟩ := typeOf_expr htidy htype
  exact ⟨draft, rfl, hcached, hreads⟩

theorem isText_string (type : Option Ty) : (typeValue type).isText TypeName.string = false := by
  rcases type with _ | _ | _ <;> rfl

theorem ofSymbol?_relationSymbol (relation : Ir.Relation) :
    Ir.Relation.ofSymbol? (relationSymbol relation) = some relation := by
  cases relation <;> rfl

theorem emits_arith (op : Arith) (hleft : left.Emits) (hright : right.Emits) :
    (Expr.arith id op left right).Emits := by
  intro depth g g' operand f instructions slots next hopen htidy hwalked hkept hsound h
  have hpair := Expr.IsPair.arith id op left right
  obtain ⟨leftTy, rightTy, leftCode, rightCode, leftResult, rightResult, f₁, f₂, g₂, hleftTy, hrightTy, hwrites,
    hcomputesLeft, hcomputesRight, hop⟩ :=
    coded_operands hpair hleft hright hopen htidy hwalked hkept hsound.1 hsound.2 (fun _ _ => rfl) h
  simp only [Expr.value, bind_eq_ok, Emit.attribute_eq_ok, Emit.typeOf_eq_ok] at hop
  obtain ⟨_, _, ⟨hlt, rfl⟩, _, _, ⟨hrt, rfl⟩, _, _, ⟨ho, rfl⟩, hop⟩ := hop
  obtain rfl := Option.some.inj hlt
  obtain rfl := Option.some.inj hrt
  obtain ⟨hshown, -⟩ := hpair.tidy (htidy.retyped hwrites.cached.retyped)
  obtain rfl : _ = Value.text op.symbol := hshown.get_eq ho
  simp only [ir_beq_i64, ir_beq_double, Bool.false_and, Bool.and_false, Bool.false_eq_true, if_false] at hop
  split at hop
  case isFalse => simp at hop
  case isTrue hint =>
    obtain ⟨rfl, rfl⟩ : leftTy = .int ∧ rightTy = .int := by simpa using hint
    simp only [Emit.intOperation, intOpcode?_symbol] at hop
    obtain ⟨-, result, f', rfl, hwrites', hfresh⟩ := writes_binary (hwrites.isOpen hopen) rfl hop
    exact ⟨.int, _, result, f', rfl, rfl, by simp, hwrites.trans hopen.name hwrites', fun w =>
      computes_arith op hkept (hcomputesLeft w) (hcomputesRight w) hfresh⟩

theorem emits_compare (relation : Ir.Relation) (hleft : left.Emits) (hright : right.Emits) :
    (Expr.compare id relation left right).Emits := by
  intro depth g g' operand f instructions slots next hopen htidy hwalked hkept hsound h
  have hpair := Expr.IsPair.compare id relation left right
  obtain ⟨leftTy, rightTy, leftCode, rightCode, leftResult, rightResult, f₁, f₂, g₂, hleftTy, hrightTy, hwrites,
    hcomputesLeft, hcomputesRight, hop⟩ :=
    coded_operands hpair hleft hright hopen htidy hwalked hkept hsound.1 hsound.2 (fun _ _ => rfl) h
  simp only [Expr.value, bind_eq_ok, Emit.attribute_eq_ok, Emit.typeOf_eq_ok] at hop
  obtain ⟨_, _, ⟨hlt, rfl⟩, _, _, ⟨hrt, rfl⟩, _, _, ⟨ho, rfl⟩, _, _, ⟨hl, rfl⟩, _, g₃, htype, hop⟩ := hop
  obtain rfl := Option.some.inj hlt
  obtain rfl := Option.some.inj hrt
  obtain ⟨hshown, htidyLeft, -⟩ := hpair.tidy (htidy.retyped hwrites.cached.retyped)
  obtain rfl : _ = Value.text (relationSymbol relation) := hshown.get_eq ho
  obtain rfl : _ = left.value := hshown.get_eq hl
  obtain ⟨draft, rfl, hcached, read, rfl, -⟩ := typeOf_generation htidyLeft htype
  have hwrites₃ := hwrites.remember hcached
  simp only [isText_string, ir_beq_i64, ir_beq_i1, ir_beq_double, Bool.false_and, Bool.and_false,
    Bool.false_eq_true, if_false] at hop
  split at hop
  case isFalse => simp at hop
  case isTrue hsame =>
    obtain rfl := eq_of_same hsame
    simp only [Emit.relation, ofSymbol?_relationSymbol, bind_eq_ok, pure_eq_ok] at hop
    obtain ⟨_, _, ⟨rfl, rfl⟩, hop⟩ := hop
    obtain ⟨result, f', rfl, hwrites', hfresh⟩ := writes_emit (hwrites₃.isOpen hopen) (fun _ => rfl) hop
    exact ⟨.bool, _, result, f', rfl, rfl, by simp, hwrites₃.trans hopen.name hwrites', fun w =>
      computes_compare relation hkept (hcomputesLeft w) (hcomputesRight w) hfresh⟩

theorem eq_bool_of_ne {type : Option Ty} {ty : Ty} (h : type = some ty) (hne : type ≠ some .int) : ty = .bool := by
  cases ty
  · exact absurd h hne
  · rfl

theorem emits_logic (op : Logic) (hleft : left.Emits) (hright : right.Emits) :
    (Expr.logic id op left right).Emits := by
  intro depth g g' operand f instructions slots next hopen htidy hwalked hkept hsound h
  have hpair := Expr.IsPair.logic id op left right
  obtain ⟨⟨hnotIntLeft, hsoundLeft⟩, hnotIntRight, hsoundRight⟩ := hsound
  obtain ⟨leftTy, rightTy, leftCode, rightCode, leftResult, rightResult, f₁, f₂, g₂, hleftTy, hrightTy, hwrites,
    hcomputesLeft, hcomputesRight, hop⟩ :=
    coded_operands hpair hleft hright hopen htidy hwalked hkept hsoundLeft hsoundRight (fun _ _ => rfl) h
  simp only [Expr.value, bind_eq_ok, Emit.attribute_eq_ok] at hop
  obtain ⟨_, _, ⟨ho, rfl⟩, hop⟩ := hop
  obtain ⟨hshown, -⟩ := hpair.tidy (htidy.retyped hwrites.cached.retyped)
  obtain rfl : _ = Value.text op.symbol := hshown.get_eq ho
  obtain rfl := eq_bool_of_ne hleftTy hnotIntLeft
  obtain rfl := eq_bool_of_ne hrightTy hnotIntRight
  have hbinary : Emit.binary op.opcode (.register leftResult Ir.Ty.i1) (.register rightResult Ir.Ty.i1) g₂ =
      .ok operand g' := by
    cases op <;> exact hop
  obtain ⟨-, result, f', rfl, hwrites', hfresh⟩ := writes_binary (hwrites.isOpen hopen) rfl hbinary
  exact ⟨.bool, _, result, f', rfl, rfl, by simp, hwrites.trans hopen.name hwrites', fun w =>
    computes_logic op hkept (hcomputesLeft w) (hcomputesRight w) hfresh⟩

/-- The operand of a sign or a negation has been visited, and `rest` makes something of the result. -/
theorem coded_operand {inner : Expr} {operator : String} {ty : Ty} {rest : Value → Operand → Value → Emit Operand}
    (hsingle : e.IsSingle inner operator ty) (hinner : inner.Emits) (hopen : g.Open f instructions)
    (htidy : e.Tidy g.graph) (hwalked : Walked g.table slots next) (hkept : Kept slots f.names.used)
    (hsound : inner.Sound (slotTypes slots))
    (hcode : ∀ visit node, Emit.emitNode visit node .unary = do
      let operand ← visit (← Draft.getField node .left)
      rest node operand (← Draft.getField node .operator))
    (h : Emit.visitWithin depth e.value g = .ok operand g') :
    ∃ ty code result, ∃ (f₁ : Ir.Function) (g₁ : Generation),
      inner.typeIn (slotTypes slots) = some ty ∧ Writes g f code g₁ f₁ ∧
      (∀ w, Computes w slots f.names.used code result f₁.names.used inner ty) ∧
      rest e.value (.register result ty.ir) (.text operator) g₁ = .ok operand g' := by
  obtain ⟨n, -, h⟩ := visitWithin_node h
  obtain ⟨hshown, htidyInner⟩ := hsingle.tidy htidy
  simp only [hshown.kind, hcode, bind_eq_ok, Emit.attribute_eq_ok] at h
  obtain ⟨_, _, ⟨hl, rfl⟩, operand, g₁, hvisit, _, _, ⟨ho, rfl⟩, hrest⟩ := h
  obtain rfl : _ = inner.value := hshown.get_eq hl
  obtain ⟨ty, code, result, f₁, rfl, hty, -, hwrites, hcomputes⟩ :=
    hinner n g g₁ operand f _ slots next hopen htidyInner hwalked hkept hsound hvisit
  obtain rfl : _ = Value.text operator := (hwrites.cached.retyped.shown hshown).get_eq ho
  exact ⟨ty, code, result, f₁, g₁, hty, hwrites, hcomputes, hrest⟩

theorem emits_neg {inner : Expr} (hinner : inner.Emits) : (Expr.neg id inner).Emits := by
  intro depth g g' operand f instructions slots next hopen htidy hwalked hkept hsound h
  obtain ⟨ty, code, result₁, f₁, g₁, hty, hwrites, hcomputes, hop⟩ :=
    coded_operand (.neg id inner) hinner hopen htidy hwalked hkept hsound (fun _ _ => rfl) h
  simp only [bind_eq_ok, Emit.typeOf_eq_ok] at hop
  obtain ⟨_, _, ⟨htype, rfl⟩, hop⟩ := hop
  obtain rfl := Option.some.inj htype
  simp only [ir_beq_double, ir_beq_i64, Bool.false_eq_true, if_false] at hop
  split at hop
  case isFalse => simp at hop
  case isTrue hint =>
    obtain rfl : ty = .int := by simpa using hint
    simp only [Emit.negateInt, bind_eq_ok, Emit.typeOf_eq_ok] at hop
    obtain ⟨_, _, ⟨htype, rfl⟩, hop⟩ := hop
    obtain rfl := Option.some.inj htype
    obtain ⟨-, result, f', rfl, hwrites', hfresh⟩ := writes_binary (hwrites.isOpen hopen) rfl hop
    exact ⟨.int, _, result, f', rfl, rfl, by simp, hwrites.trans hopen.name hwrites', fun w =>
      computes_neg (hcomputes w) hfresh⟩

theorem emits_not {inner : Expr} (hinner : inner.Emits) : (Expr.not id inner).Emits := by
  intro depth g g' operand f instructions slots next hopen htidy hwalked hkept hsound h
  obtain ⟨ty, code, result₁, f₁, g₁, hty, hwrites, hcomputes, hop⟩ :=
    coded_operand (.not id inner) hinner hopen htidy hwalked hkept hsound.2 (fun _ _ => rfl) h
  obtain rfl := eq_bool_of_ne hty hsound.1
  simp only [Emit.complement, bind_eq_ok, Emit.typeOf_eq_ok] at hop
  obtain ⟨_, _, ⟨htype, rfl⟩, hop⟩ := hop
  obtain rfl := Option.some.inj htype
  obtain ⟨-, result, f', rfl, hwrites', hfresh⟩ := writes_binary (hwrites.isOpen hopen) rfl hop
  exact ⟨.bool, _, result, f', rfl, rfl, by simp, hwrites.trans hopen.name hwrites', fun w =>
    computes_not (hcomputes w) hfresh⟩

theorem emits_var {name : String} : (Expr.var id name).Emits := by
  intro depth g g' operand f instructions slots next hopen htidy hwalked hkept hsound h
  obtain ⟨depth, rfl, hnode⟩ := visitWithin_node h
  have hshown : Shown g.graph id .reference [(.name, .text name)] := htidy.stands
  simp only [Expr.id, hshown.kind, Emit.emitNode, Emit.emitReference, bind_eq_ok, Emit.attribute_eq_ok, Emit.table, get_eq_ok, pure_eq_ok, orFail_eq_ok] at hnode
  obtain ⟨_, _, ⟨hname, rfl⟩, _, _, ⟨_, _, ⟨rfl, rfl⟩, rfl, rfl⟩, _, _, ⟨_, _, ⟨rfl, rfl⟩, rfl, rfl⟩,
    reference, _, ⟨href, rfl⟩, hload⟩ := hnode
  obtain rfl : _ = Value.text name := hshown.get_eq hname
  cases reference with
  | none => simp at hload
  | some reference =>
      obtain ⟨slot, hslot, rfl⟩ := hwalked.reference href
      obtain ⟨result, f', rfl, hwrites, hfresh⟩ := writes_load hopen hload
      refine ⟨slot.ty, _, result, f', rfl, ?_, by simp, hwrites, fun w =>
        computes_var hslot hfresh⟩
      simp only [Expr.typeIn, find?_slotTypes]
      rw [show slots.find? name = some slot from hslot]
      rfl

theorem emits_literal (value : Val) {kind : Kind} {written : Value} {base : String}
    (hstands : ∀ graph, e.Stands graph → Shown graph e.id kind [(.value, written)])
    (htype : ∀ types, e.typeIn types = some value.ty) (heval : ∀ scopes, e.eval scopes = some value)
    (hconstant : Machine.Word.ofConstant? value.ty.ir (Emit.intConstant written) = some value.word)
    (hcode : ∀ visit node, Emit.emitNode visit node kind = do
      Emit.constantInSlot value.ty.ir (Emit.intConstant (← Draft.getField node .value)) base) : e.Emits := by
  intro depth g g' operand f instructions slots next hopen htidy hwalked hkept hsound h
  obtain ⟨depth, rfl, hnode⟩ := visitWithin_node h
  have hshown := hstands _ htidy.stands
  simp only [hshown.kind, hcode, bind_eq_ok, Emit.attribute_eq_ok] at hnode
  obtain ⟨_, _, ⟨hvalue, rfl⟩, hnode⟩ := hnode
  obtain rfl : _ = written := hshown.get_eq hvalue
  exact coded_literal hopen (htype _) hconstant heval hnode

theorem Expr.emits (e : Expr) : e.Emits := by
  induction e with
  | int id value =>
      exact emits_literal (.int (Int64.ofInt value)) (fun _ h => h) (fun _ => rfl) (fun _ => rfl) rfl
        fun _ _ => rfl
  | bool id value =>
      exact emits_literal (.bool value) (fun _ h => h) (fun _ => rfl) (fun _ => rfl)
        (by cases value <;> rfl) fun _ _ => rfl
  | var id name => exact emits_var
  | arith id op left right hleft hright => exact emits_arith op hleft hright
  | neg id operand hoperand => exact emits_neg hoperand
  | not id operand hoperand => exact emits_not hoperand
  | compare id relation left right hleft hright => exact emits_compare relation hleft hright
  | logic id op left right hleft hright => exact emits_logic op hleft hright

end Expressions

end Core

end Scriptlet
