import Scriptlet.Proofs.Core.Cells

/-!
What it takes for code to carry out a program.

`Computes` is the contract of the code of an expression, `Simulates` that of the code of a statement.
There is one lemma for each construct; it asks for the contracts of the parts and for the instructions
that stand between them.
-/

namespace Scriptlet.Core

open Machine (Word Address Memory Registers Setting Object State Leads setRegister
  lookup_setRegister_self lookup_setRegister_of_ne)
open Ir (Instruction Operand)

theorem Val.word_ne_bytes (value : Val) (data : List UInt8) : value.word ≠ .bytes data := by
  cases value <;> simp [Val.word]

/-- A register that was not in use, and now it is, with all those that were. -/
structure Fresh (result : String) (used used' : List String) : Prop where
  not_mem : result ∉ used
  mem : result ∈ used'
  subset : used ⊆ used'

/-- Code without jumps that leaves the value of an expression in a register, changes no register that
was in use and no object that was there. -/
structure Computes (w : Setting) (slots : Scopes Slot) (used : List String) (code : List Instruction)
    (result : String) (used' : List String) (e : Expr) (ty : Ty) : Prop where
  used_subset : used ⊆ used'
  result_mem : result ∈ used'
  runs : ∀ scopes registers memory printed rest, Covers w slots scopes registers memory →
    ∃ value registers' memory', e.eval scopes = some value ∧ value.ty = ty ∧
      Leads (w.stateAt (code ++ rest) registers memory printed) code.length
        (w.stateAt rest registers' memory' printed) ∧
      registers'.lookup result = some value.word ∧
      (∀ name ∈ used, registers'.lookup name = registers.lookup name) ∧
      memory.Within memory'

section Expressions

variable {w : Setting} {slots : Scopes Slot} {used used₁ used₂ used' : List String}
  {code code₁ code₂ : List Instruction} {result result₁ result₂ : String} {e e₁ e₂ : Expr}
  {ty ty₁ ty₂ : Ty}

theorem lookup_of_not_mem {registers : Registers} {name other : String} {word : Word}
    (hname : name ∉ used) (hother : other ∈ used) :
    (setRegister name word registers).lookup other = registers.lookup other :=
  lookup_setRegister_of_ne (fun h : other = name => hname (h ▸ hother)) word registers

theorem computes_literal {constant : Ir.Constant} {value : Val} {slot : String}
    (hconstant : Word.ofConstant? value.ty.ir constant = some value.word)
    (heval : ∀ scopes, e.eval scopes = some value) (hslot : slot ∉ used) (hfresh : Fresh result used used') :
    Computes w slots used
      [.alloca slot value.ty.ir, .store (.constant value.ty.ir constant) (.register slot (.pointer value.ty.ir)),
        .load result value.ty.ir (.register slot (.pointer value.ty.ir))]
      result used' e value.ty := by
  refine ⟨hfresh.subset, hfresh.mem, fun scopes registers memory printed rest _ => ?_⟩
  have hobject : (memory.allocate value.ty.ir).2.objects[memory.objects.size]? = some (.word none) := by
    cases value <;> exact Memory.getElem?_allocate_size memory _
  have hstored : (((memory.allocate value.ty.ir).2.setObject memory.objects.size
      (.word (some value.word))).objects[memory.objects.size]? = some (.word (some value.word))) := by
    rw [Memory.getElem?_setObject, if_pos rfl, hobject]
    rfl
  refine ⟨value, _, _, heval scopes, rfl,
    Leads.step (Setting.step_alloca slot _) (Leads.step (Setting.step_store hconstant
      (lookup_setRegister_self slot _ _) (Memory.store?_word hobject value.word_ne_bytes))
      (Leads.of_step (Setting.step_load (lookup_setRegister_self slot _ _) (Memory.load?_word hstored)))),
    lookup_setRegister_self _ _ _, fun name hname => ?_, Memory.within_setObject_size memory _ _⟩
  rw [lookup_of_not_mem hfresh.not_mem hname, lookup_of_not_mem hslot hname]

theorem computes_var {id : NodeId} {name : String} {slot : Slot} (hslot : slots.find? name = some slot)
    (hfresh : Fresh result used used') :
    Computes w slots used
      [.load result slot.ty.ir (.register slot.register (.pointer slot.ty.ir))] result used'
      (.var id name) slot.ty := by
  refine ⟨hfresh.subset, hfresh.mem, fun scopes registers memory printed rest hcovers => ?_⟩
  obtain ⟨value, hvalue, -, hty, index, hregister, hobject⟩ := covers_find? hcovers.cells hslot
  exact ⟨value, _, _, hvalue, hty,
    Leads.of_step (Setting.step_load hregister (Memory.load?_word hobject)),
    lookup_setRegister_self _ _ _, fun name hname => lookup_of_not_mem hfresh.not_mem hname,
    Memory.Within.refl memory⟩

theorem computes_unary {instruction : Instruction} {f : Val → Val}
    (h₁ : Computes w slots used code₁ result₁ used₁ e₁ ty₁)
    (heval : ∀ scopes a, e₁.eval scopes = some a → a.ty = ty₁ → e.eval scopes = some (f a))
    (hty : ∀ a, a.ty = ty₁ → (f a).ty = ty)
    (hstep : ∀ registers memory printed rest a, a.ty = ty₁ →
      registers.lookup result₁ = some a.word →
      (w.stateAt (instruction :: rest) registers memory printed).step =
        .next (w.stateAt rest (setRegister result (f a).word registers) memory printed))
    (hfresh : Fresh result used₁ used') :
    Computes w slots used (code₁ ++ [instruction]) result used' e ty := by
  refine ⟨List.Subset.trans h₁.used_subset hfresh.subset, hfresh.mem, fun scopes registers memory printed rest hcovers => ?_⟩
  obtain ⟨a, registers₁, memory₁, heval₁, hty₁, hleads₁, hlookup₁, hkept₁, hwithin₁⟩ :=
    h₁.runs scopes registers memory printed (instruction :: rest) hcovers
  refine ⟨f a, setRegister result (f a).word registers₁, memory₁, heval scopes a heval₁ hty₁, hty a hty₁, ?_,
    lookup_setRegister_self _ _ _, fun name hname => ?_, hwithin₁⟩
  · rw [List.append_assoc, List.length_append]
    exact hleads₁.trans (Leads.of_step (hstep _ _ _ _ a hty₁ hlookup₁))
  · rw [lookup_of_not_mem hfresh.not_mem (h₁.used_subset hname), hkept₁ name hname]

theorem computes_operation {instruction : Instruction} {f : Val → Val → Val}
    (hkept : Kept slots used)
    (h₁ : Computes w slots used code₁ result₁ used₁ e₁ ty₁)
    (h₂ : Computes w slots used₁ code₂ result₂ used₂ e₂ ty₂)
    (heval : ∀ scopes a b, e₁.eval scopes = some a → e₂.eval scopes = some b → a.ty = ty₁ →
      b.ty = ty₂ → e.eval scopes = some (f a b))
    (hty : ∀ a b, a.ty = ty₁ → b.ty = ty₂ → (f a b).ty = ty)
    (hstep : ∀ registers memory printed rest a b, a.ty = ty₁ → b.ty = ty₂ →
      registers.lookup result₁ = some a.word → registers.lookup result₂ = some b.word →
      (w.stateAt (instruction :: rest) registers memory printed).step =
        .next (w.stateAt rest (setRegister result (f a b).word registers) memory printed))
    (hfresh : Fresh result used₂ used') :
    Computes w slots used (code₁ ++ code₂ ++ [instruction]) result used' e ty := by
  refine ⟨List.Subset.trans h₁.used_subset (List.Subset.trans h₂.used_subset hfresh.subset), hfresh.mem,
    fun scopes registers memory printed rest hcovers => ?_⟩
  obtain ⟨a, registers₁, memory₁, heval₁, hty₁, hleads₁, hlookup₁, hkept₁, hwithin₁⟩ :=
    h₁.runs scopes registers memory printed (code₂ ++ (instruction :: rest)) hcovers
  obtain ⟨b, registers₂, memory₂, heval₂, hty₂, hleads₂, hlookup₂, hkept₂, hwithin₂⟩ :=
    h₂.runs scopes registers₁ memory₁ printed (instruction :: rest)
      (hcovers.grow hkept hkept₁ hwithin₁)
  have hfirst : registers₂.lookup result₁ = some a.word := by
    rw [hkept₂ _ h₁.result_mem, hlookup₁]
  refine ⟨f a b, setRegister result (f a b).word registers₂, memory₂, heval scopes a b heval₁ heval₂ hty₁ hty₂, hty a b hty₁ hty₂, ?_,
    lookup_setRegister_self _ _ _, fun name hname => ?_, hwithin₁.trans hwithin₂⟩
  · rw [List.append_assoc, List.append_assoc, List.length_append, List.length_append]
    exact (hleads₁.trans hleads₂).trans
      (Leads.of_step (hstep _ _ _ _ a b hty₁ hty₂ hfirst hlookup₂))
  · rw [lookup_of_not_mem hfresh.not_mem (h₂.used_subset (h₁.used_subset hname)),
      hkept₂ name (h₁.used_subset hname), hkept₁ name hname]

end Expressions

/-! ### The operations of the language -/

def Arith.opcode : Arith → Ir.Opcode
  | add => .add | sub => .sub | mul => .mul

def Logic.opcode : Logic → Ir.Opcode
  | and => .and | or => .or

/-- The integer that a value is, or zero. -/
def Val.asInt : Val → Int64
  | int value => value
  | bool _ => 0

def Val.asBool : Val → Bool
  | int _ => false
  | bool value => value

theorem Val.eq_int {value : Val} (h : value.ty = .int) : value = .int value.asInt := by
  cases value <;> simp_all [Val.ty, Val.asInt]

theorem Val.eq_bool {value : Val} (h : value.ty = .bool) : value = .bool value.asBool := by
  cases value <;> simp_all [Val.ty, Val.asBool]

theorem holdsOfInts_eq (relation : Ir.Relation) (a b : Int64) :
    Machine.holdsOfInts relation a b = holds relation a.toInt b.toInt := by
  rw [Bool.eq_iff_iff]
  cases relation <;>
    simp [Machine.holdsOfInts, holds, Int64.lt_iff_toInt_lt, Int64.le_iff_toInt_le, Int64.toInt_inj]

/-- The order of the machine is the order of the numbers that values stand for. -/
theorem compareInts?_word (relation : Ir.Relation) {a b : Val} (h : a.ty = b.ty) :
    Machine.compareInts? relation a.word b.word = some (.truth (holds relation a.rank b.rank)) := by
  cases a with
  | int a =>
      cases b with
      | int b => simp [Machine.compareInts?, Val.word, Val.rank, holdsOfInts_eq]
      | bool b => simp [Val.ty] at h
  | bool a =>
      cases b with
      | int b => simp [Val.ty] at h
      | bool b => cases relation <;> cases a <;> cases b <;> rfl

section Operations

variable {w : Setting} {slots : Scopes Slot} {used used₁ used₂ used' : List String}
  {code₁ code₂ : List Instruction} {result result₁ result₂ : String} {e₁ e₂ : Expr} {ty : Ty}
  {id : NodeId}

theorem computes_arith (operator : Arith) (hkept : Kept slots used)
    (h₁ : Computes w slots used code₁ result₁ used₁ e₁ .int)
    (h₂ : Computes w slots used₁ code₂ result₂ used₂ e₂ .int)
    (hfresh : Fresh result used₂ used') :
    Computes w slots used
      (code₁ ++ code₂ ++ [.binary result operator.opcode Ir.Ty.i64 (.register result₁ Ir.Ty.i64)
        (.register result₂ Ir.Ty.i64)])
      result used' (.arith id operator e₁ e₂) .int := by
  refine computes_operation hkept h₁ h₂ (f := fun a b => .int (operator.apply a.asInt b.asInt)) ?_
    (fun _ _ _ _ => rfl) ?_ hfresh
  · intro scopes a b heval₁ heval₂ ha hb
    rw [Val.eq_int ha] at heval₁
    rw [Val.eq_int hb] at heval₂
    simp [Expr.eval, heval₁, heval₂]
  · intro registers memory printed rest a b ha hb hlookup₁ hlookup₂
    rw [Val.eq_int ha] at hlookup₁
    rw [Val.eq_int hb] at hlookup₂
    refine Setting.step_binary hlookup₁ hlookup₂ ?_
    cases operator <;> rfl

theorem computes_neg (h₁ : Computes w slots used code₁ result₁ used₁ e₁ .int)
    (hfresh : Fresh result used₁ used') :
    Computes w slots used
      (code₁ ++ [.binary result .sub Ir.Ty.i64 (.constant Ir.Ty.i64 (.int 0))
        (.register result₁ Ir.Ty.i64)])
      result used' (.neg id e₁) .int := by
  refine computes_unary h₁ (f := fun a => .int (0 - a.asInt)) ?_ (fun _ _ => rfl) ?_ hfresh
  · intro scopes a heval₁ ha
    rw [Val.eq_int ha] at heval₁
    simp [Expr.eval, heval₁]
  · intro registers memory printed rest a ha hlookup₁
    rw [Val.eq_int ha] at hlookup₁
    exact Setting.step_binary rfl hlookup₁ rfl

theorem computes_not (h₁ : Computes w slots used code₁ result₁ used₁ e₁ .bool)
    (hfresh : Fresh result used₁ used') :
    Computes w slots used
      (code₁ ++ [.binary result .xor Ir.Ty.i1 (.register result₁ Ir.Ty.i1)
        (.constant Ir.Ty.i1 (.int (-1)))])
      result used' (.not id e₁) .bool := by
  refine computes_unary h₁ (f := fun a => .bool (!a.asBool)) ?_ (fun _ _ => rfl) ?_ hfresh
  · intro scopes a heval₁ ha
    rw [Val.eq_bool ha] at heval₁
    simp [Expr.eval, heval₁]
  · intro registers memory printed rest a ha hlookup₁
    rw [Val.eq_bool ha] at hlookup₁
    refine Setting.step_binary hlookup₁ rfl ?_
    cases a.asBool <;> rfl

theorem computes_compare (relation : Ir.Relation) (hkept : Kept slots used)
    (h₁ : Computes w slots used code₁ result₁ used₁ e₁ ty)
    (h₂ : Computes w slots used₁ code₂ result₂ used₂ e₂ ty)
    (hfresh : Fresh result used₂ used') :
    Computes w slots used
      (code₁ ++ code₂ ++ [.compareInts result relation (.register result₁ ty.ir)
        (.register result₂ ty.ir)])
      result used' (.compare id relation e₁ e₂) .bool := by
  refine computes_operation hkept h₁ h₂ (f := fun a b => .bool (holds relation a.rank b.rank)) ?_
    (fun _ _ _ _ => rfl) ?_ hfresh
  · intro scopes a b heval₁ heval₂ ha hb
    simp [Expr.eval, heval₁, heval₂, ha, hb]
  · intro registers memory printed rest a b ha hb hlookup₁ hlookup₂
    exact Setting.step_compareInts hlookup₁ hlookup₂ (compareInts?_word relation (ha.trans hb.symm))

theorem computes_logic (operator : Logic) (hkept : Kept slots used)
    (h₁ : Computes w slots used code₁ result₁ used₁ e₁ .bool)
    (h₂ : Computes w slots used₁ code₂ result₂ used₂ e₂ .bool)
    (hfresh : Fresh result used₂ used') :
    Computes w slots used
      (code₁ ++ code₂ ++ [.binary result operator.opcode Ir.Ty.i1 (.register result₁ Ir.Ty.i1)
        (.register result₂ Ir.Ty.i1)])
      result used' (.logic id operator e₁ e₂) .bool := by
  refine computes_operation hkept h₁ h₂
    (f := fun a b => .bool (operator.apply a.asBool b.asBool)) ?_
    (fun _ _ _ _ => rfl) ?_ hfresh
  · intro scopes a b heval₁ heval₂ ha hb
    rw [Val.eq_bool ha] at heval₁
    rw [Val.eq_bool hb] at heval₂
    simp [Expr.eval, heval₁, heval₂]
  · intro registers memory printed rest a b ha hb hlookup₁ hlookup₂
    rw [Val.eq_bool ha] at hlookup₁
    rw [Val.eq_bool hb] at hlookup₂
    refine Setting.step_binary hlookup₁ hlookup₂ ?_
    cases operator <;> rfl

end Operations

end Scriptlet.Core
