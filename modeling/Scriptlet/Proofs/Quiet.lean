import Scriptlet.Proofs.Conduct

/-!
Quiet work on a draft: actions that read and change nodes issue no message, and they fail only in ways
that a handler sees.
-/

namespace Scriptlet

variable {value : Value} {graph : Graph}

/-- A condition that is found to hold by computation. -/
class Holds (condition : Bool) : Prop where
  eq_true : condition = true

instance : Holds true := ⟨rfl⟩

/-- A failure that handlers see and that does not give up the stage. -/
@[reducible] def Failure.isOrdinary : Failure → Bool
  | .exit | .runaway | .fault .outOfSteps => false
  | _ => true

theorem Failure.isCaught_of_isOrdinary {failure : Failure} (h : failure.isOrdinary) : failure.isCaught := by
  unfold isCaught
  split <;> first | exact h | rfl

instance (label : String) : Holds (graph.missing value label).isOrdinary :=
  ⟨rfl⟩

instance (kind : ComplaintKind) (message : String) : Holds (Failure.ofMessage kind message).isOrdinary :=
  ⟨rfl⟩

/-! ### Actions that only look -/

/-- Nothing changes, and failures are ordinary. -/
def looking {σ : Type} : Rule σ where
  step s t := t = s
  stop failure s t := t = s ∧ failure.isOrdinary
  refl _ := rfl
  trans h h' := h'.trans h
  stop_of_step h h' := ⟨h'.1.trans h, h'.2⟩
  step_of_stop _ h := h.1

/-- A rule that is kept by a failure of the ordinary sort. -/
class Rule.IsPatient {σ : Type} (rule : Rule σ) : Prop where
  stop : ∀ {failure : Failure} (s : σ), failure.isOrdinary → rule.stop failure s s

section Looking

variable {σ α : Type} {rule : Rule σ} [hrule : rule.IsPatient]

instance : (looking : Rule σ).IsPatient :=
  ⟨fun _ h => ⟨rfl, h⟩⟩

instance (priority := low) {x : EStateM Failure σ α} [h : Obeys looking x] : Obeys rule x := by
  refine ⟨fun s => ?_⟩
  cases hx : x s with
  | ok a t =>
      obtain rfl : t = s := h.step hx
      exact rule.refl t
  | error failure t =>
      obtain ⟨rfl, hordinary⟩ := h.stop hx
      exact hrule.stop t hordinary

instance (failure : Failure) [h : Holds failure.isOrdinary] : Obeys rule (throw failure : EStateM Failure σ α) :=
  .throw fun s => hrule.stop s h.eq_true

instance (fault : Fault) [Holds (Failure.isOrdinary (.fault fault))] : Obeys rule (fail fault : EStateM Failure σ α) :=
  inferInstanceAs (Obeys rule (throw (.fault fault) : EStateM Failure σ α))

instance [Carries σ] [LawfulCarries σ] {x : Draft.Action α} [h : Obeys looking x] :
    Obeys looking (liftM x : EStateM Failure σ α) := by
  refine ⟨fun s => ?_⟩
  show looking.Allows s (Draft.onDraft x s)
  unfold Draft.onDraft
  cases hx : x (Carries.draft s) with
  | ok a draft =>
      obtain rfl : draft = Carries.draft s := h.step hx
      exact LawfulCarries.withDraft_draft s
  | error failure draft =>
      obtain ⟨rfl, hordinary⟩ := h.stop hx
      exact ⟨LawfulCarries.withDraft_draft s, hordinary⟩

end Looking

/-! ### Written forms and sameness -/

/-- A computation that fails only in ordinary ways. -/
class Ordinary {α : Type} (x : Except Failure α) : Prop where
  isOrdinary : ∀ failure, x = .error failure → failure.isOrdinary

namespace Ordinary

variable {α β : Type}
variable {x : Except Failure α} {f : α → Except Failure β}
variable {a : α} {items : List α}

instance : Ordinary (.ok a) := ⟨fun _ h => by simp at h⟩

instance : Ordinary (pure a : Except Failure α) := ⟨fun _ h => by simp [pure, Except.pure] at h⟩

instance (failure : Failure) [h : Holds failure.isOrdinary] : Ordinary (.error failure : Except Failure α) :=
  ⟨fun _ heq => Except.error.inj heq ▸ h.eq_true⟩

theorem bind (hx : Ordinary x) (hf : ∀ a, Ordinary (f a)) : Ordinary (x >>= f) := by
  refine ⟨fun failure h => ?_⟩
  cases x with
  | error other => exact hx.isOrdinary failure (congrArg Except.error (Except.error.inj h))
  | ok a => exact (hf a).isOrdinary failure h

instance [hx : Ordinary x] [hf : ∀ a, Ordinary (f a)] : Ordinary (x >>= f) :=
  bind hx hf

instance {c : Prop} [Decidable c] {y : Except Failure α} [Ordinary x] [Ordinary y] : Ordinary (if c then x else y) := by
  split <;> infer_instance

instance [hf : ∀ a, Ordinary (f a)] : Ordinary (items.mapM f) := by
  induction items with
  | nil =>
      rw [List.mapM_nil]
      infer_instance
  | cons item rest ih =>
      rw [List.mapM_cons]
      infer_instance

instance {f : α → Except Failure Bool} [hf : ∀ a, Ordinary (f a)] : Ordinary (items.allM f) := by
  induction items with
  | nil => exact inferInstanceAs (Ordinary (pure true))
  | cons item rest ih =>
      rw [List.allM]
      refine bind (hf item) fun holds => ?_
      cases holds <;> infer_instance

instance : Ordinary (graph.items value) := by
  unfold Graph.items
  split <;> infer_instance

end Ordinary

mutual

theorem ordinary_displayWithin (graph : Graph) :
    ∀ depth value, Ordinary (graph.displayWithin depth value)
  | 0, _ => inferInstanceAs (Ordinary (.error (.fault .tooDeep)))
  | depth + 1, value => by
      have := ordinary_literalWithin graph depth
      unfold Graph.displayWithin
      split
      case h_2 => exact ordinary_displayNode graph depth _
      all_goals infer_instance

theorem ordinary_literalWithin (graph : Graph) :
    ∀ depth value, Ordinary (graph.literalWithin depth value)
  | 0, _ => inferInstanceAs (Ordinary (.error (.fault .tooDeep)))
  | depth + 1, value => by
      have := ordinary_literalWithin graph depth
      unfold Graph.literalWithin
      split
      case h_2 => exact ordinary_literalNode graph depth _
      all_goals infer_instance

theorem ordinary_displayNode (graph : Graph) :
    ∀ depth node, Ordinary (graph.displayNode depth node)
  | 0, _ => inferInstanceAs (Ordinary (.error (.fault .tooDeep)))
  | depth + 1, node => by
      have := ordinary_displayWithin graph depth
      rw [Graph.displayNode]
      dsimp only
      split
      case h_12 => split <;> infer_instance
      all_goals infer_instance

theorem ordinary_literalNode (graph : Graph) :
    ∀ depth node, Ordinary (graph.literalNode depth node)
  | 0, _ => inferInstanceAs (Ordinary (.error (.fault .tooDeep)))
  | depth + 1, node => by
      have := ordinary_displayWithin graph depth
      have := ordinary_literalWithin graph depth
      rw [Graph.literalNode]
      dsimp only
      split
      case h_13 => split <;> infer_instance
      all_goals infer_instance

end

instance : Ordinary (graph.display value) :=
  ordinary_displayWithin graph walkDepth value

instance : Ordinary (graph.literal value) :=
  ordinary_literalWithin graph walkDepth value

mutual

theorem ordinary_sameWithin (graph : Graph) :
    ∀ depth left right, Ordinary (graph.sameWithin depth left right)
  | 0, _, _ => by
      rw [Graph.sameWithin]
      infer_instance
  | depth + 1, left, right => by
      have := ordinary_sameWithin graph depth
      have hother : ∀ node, Ordinary (Graph.sameWithin.sameAsOther node) := by
        intro node
        unfold Graph.sameWithin.sameAsOther
        infer_instance
      unfold Graph.sameWithin
      dsimp only
      split
      case h_2 => exact ordinary_sameNodes graph depth _ _
      case h_7 =>
        split
        · have hentry : ∀ entry : String × Value, ∀ entries : List (String × Value),
              Ordinary (match entries.lookup entry.1 with
                | some y => if Graph.identical entry.2 y then .ok true else graph.sameWithin depth entry.2 y
                | none => .ok false) := by
            intro entry entries
            split <;> infer_instance
          infer_instance
        · infer_instance
      all_goals infer_instance

theorem ordinary_sameNodes (graph : Graph) :
    ∀ depth left right, Ordinary (graph.sameNodes depth left right)
  | 0, _, _ => by
      rw [Graph.sameNodes]
      infer_instance
  | depth + 1, left, right => by
      have := ordinary_sameWithin graph depth
      rw [Graph.sameNodes]
      have hfield : ∀ field, Ordinary (match (graph.node left).get? field, (graph.node right).get? field with
          | some x, some y => graph.sameWithin depth x y
          | none, _ => .error (.fault (.missingAttribute (graph.node left).kind.name field.label))
          | _, none => .error (.fault (.missingAttribute (graph.node right).kind.name field.label))) := by
        intro field
        split <;> infer_instance
      infer_instance

end

instance (left right : Value) : Ordinary (graph.same left right) :=
  ordinary_sameWithin graph walkDepth left right

/-! ### Nodes -/

/-- Journals that differ only in what was printed. -/
structure Journal.Agrees (after before : Journal) : Prop where
  flagged : after.flagged = before.flagged
  messages : after.messages = before.messages
  limit : after.limit = before.limit

theorem Journal.Agrees.refl (journal : Journal) : journal.Agrees journal :=
  ⟨rfl, rfl, rfl⟩

theorem Journal.Agrees.trans {first second third : Journal} (h : second.Agrees first)
    (h' : third.Agrees second) : third.Agrees first :=
  ⟨h'.flagged.trans h.flagged, h'.messages.trans h.messages, h'.limit.trans h.limit⟩

namespace Draft

variable {value line name left new right parent old args operation : Value} {field : Field} {kind : Kind}
variable {items : List Value}

/-- Nothing is said, and failures are ordinary. -/
def quiet : Rule Draft where
  step before after := after.journal.Agrees before.journal
  stop failure before after := after.journal.Agrees before.journal ∧ failure.isOrdinary
  refl _ := .refl _
  trans h h' := h.trans h'
  stop_of_step h h' := ⟨h.trans h'.1, h'.2⟩
  step_of_stop _ h := h.1

variable {α : Type}

instance : quiet.IsPatient :=
  ⟨fun _ h => ⟨.refl _, h⟩⟩

instance (x : Except Failure α) [h : Ordinary x] : Obeys looking (liftM x : Action α) := by
  cases x with
  | ok a => exact inferInstanceAs (Obeys looking (pure a))
  | error failure =>
      have : Holds failure.isOrdinary := ⟨h.isOrdinary failure rfl⟩
      exact inferInstanceAs (Obeys looking (throw failure))

instance : Obeys looking currentGraph := by
  unfold currentGraph
  infer_instance

instance (fields : List (Field × Value)) : Obeys quiet (addNode kind fields) :=
  ⟨fun _ => .refl _⟩

instance : Obeys looking (getField value field) := by
  refine .bind inferInstance fun graph => ?_
  split <;> infer_instance

instance : Obeys looking (hasField value field) := by
  unfold hasField
  infer_instance

instance (content : Value) : Obeys quiet (setField value field content) := by
  unfold setField
  split
  · exact .modify fun _ => .refl _
  · infer_instance

instance : Obeys looking (isKind kind value) := by
  unfold isKind
  infer_instance

instance : Obeys looking (itemsOf value) := by
  unfold itemsOf
  split <;> infer_instance

instance : Obeys looking (pairOf value) := by
  have hitems : ∀ items : List Value, Obeys looking (match items with
      | [first, second] => (return (first, second) : Action (Value × Value))
      | items => fail (.wrongArity 2 items.length)) := by
    intro items
    split <;> infer_instance
  unfold pairOf
  split <;> infer_instance

instance : Obeys looking (lengthOf value) := by
  unfold lengthOf
  split <;> infer_instance

instance : Obeys looking (display value) := by
  unfold display
  infer_instance

instance : Obeys looking (literal value) := by
  unfold literal
  infer_instance

instance : Obeys looking (displayField value field) := by
  unfold displayField
  infer_instance

instance (text : String) : Obeys quiet (printLine text) :=
  ⟨fun _ => ⟨rfl, rfl, rfl⟩⟩

/-! ### New nodes -/

instance (returnType parameters block : Value) : Obeys quiet (newFunction name returnType parameters block line) := by
  unfold newFunction
  infer_instance

instance : Obeys quiet (newCall name args parent line) := by
  unfold newCall
  infer_instance

/-! ### Types, and nodes in the place of others -/

instance : Obeys looking (same left right) := by
  unfold same
  infer_instance

instance (depth : Nat) : Obeys quiet (typeWithin depth value) := by
  induction depth generalizing value with
  | zero => exact inferInstanceAs (Obeys quiet (fail _))
  | succ depth ih =>
      refine .bind inferInstance fun graph => ?_
      split
      case h_1 id =>
        dsimp only
        split <;> try infer_instance
        -- What is left are the operations whose type is looked up first.
        · split
          · refine .bind inferInstance fun left => .bind inferInstance fun right => ?_
            split <;> infer_instance
          · infer_instance
        · split
          · refine .bind inferInstance fun left => ?_
            split
            · infer_instance
            · split
              · split <;> infer_instance
              · infer_instance
          · infer_instance
      case h_2 => infer_instance

instance : Obeys quiet (typeOf value) :=
  inferInstanceAs (Obeys quiet (typeWithin _ value))

instance : Ordinary (replaceItem.go new
    (fun item => if Graph.identical item old = true then .ok true else graph.same item old) items) := by
  induction items with
  | nil => exact inferInstanceAs (Ordinary (.ok _))
  | cons item rest ih =>
      unfold replaceItem.go
      infer_instance

instance : Obeys looking (replaceItem old new items) := by
  unfold replaceItem
  infer_instance

instance : Obeys quiet (replaceOperand operation new parent field) := by
  refine .bind inferInstance fun value => .bind inferInstance fun found => ?_
  split
  · infer_instance
  · split
    · refine .bind inferInstance fun replaced => ?_
      split <;> infer_instance
    · refine .bind inferInstance fun replaced => ?_
      split <;> infer_instance
    · infer_instance

instance : Obeys quiet (replaceOperation operation new) := by
  unfold replaceOperation
  infer_instance

mutual

theorem quiet_replaceBelow (call new : Value) :
    ∀ depth owner field value, Obeys quiet (replaceBelow call new depth owner field value)
  | 0, _, _, _ => inferInstanceAs (Obeys quiet (fail _))
  | depth + 1, owner, field, value => by
      have := quiet_replaceInItems call new depth
      have := quiet_replaceInEntries call new depth
      have := quiet_replaceInOperands call new depth
      unfold replaceBelow
      split <;> infer_instance

theorem quiet_replaceInOperands (call new : Value) :
    ∀ depth value fields, Obeys quiet (replaceInOperands call new depth value fields)
  | 0, _, _ => inferInstanceAs (Obeys quiet (fail _))
  | _ + 1, _, [] => inferInstanceAs (Obeys quiet (pure _))
  | depth + 1, value, field :: rest => by
      have := quiet_replaceBelow call new depth
      have := quiet_replaceInOperands call new depth
      unfold replaceInOperands
      infer_instance

theorem quiet_replaceInItems (call new : Value) :
    ∀ depth owner field make before items, Obeys quiet (replaceInItems call new depth owner field make before items)
  | 0, _, _, _, _, _ => inferInstanceAs (Obeys quiet (fail _))
  | _ + 1, _, _, _, _, [] => inferInstanceAs (Obeys quiet (pure _))
  | depth + 1, owner, field, make, before, item :: rest => by
      have := quiet_replaceInOperands call new depth
      have := quiet_replaceInItems call new depth
      unfold replaceInItems
      infer_instance

theorem quiet_replaceInEntries (call new : Value) :
    ∀ depth owner field before entries, Obeys quiet (replaceInEntries call new depth owner field before entries)
  | 0, _, _, _, _ => inferInstanceAs (Obeys quiet (fail _))
  | _ + 1, _, _, _, [] => inferInstanceAs (Obeys quiet (pure _))
  | depth + 1, owner, field, before, (key, item) :: rest => by
      have := quiet_replaceInOperands call new depth
      have := quiet_replaceInEntries call new depth
      unfold replaceInEntries
      infer_instance

end

instance (call : Value) : Obeys quiet (replaceCall call new) := by
  have := quiet_replaceBelow call new
  refine .bind inferInstance fun parent => ?_
  split
  · split
    · refine .bind inferInstance fun graph => .bind (.forIn fun item _ => ?_) fun outcome => ?_
      · obtain ⟨field, value⟩ := item
        infer_instance
      · dsimp only
        split <;> infer_instance
    · infer_instance
  · infer_instance

instance : Obeys quiet (replace old new) := by
  unfold replace
  infer_instance

end Draft

/-! ### Quiet work inside a larger state -/

/-- A rule that minds only what is said. -/
class Rule.IsLenient {σ : Type} [Carries σ] (rule : Rule σ) : Prop where
  step_withDraft : ∀ (s : σ) (draft : Draft), draft.journal.Agrees (Carries.draft s).journal →
    rule.step s (Carries.withDraft s draft)
  stop_withDraft : ∀ (failure : Failure) (s : σ) (draft : Draft),
    draft.journal.Agrees (Carries.draft s).journal → failure.isOrdinary →
      rule.stop failure s (Carries.withDraft s draft)

section Lenient

variable {σ α : Type} [Carries σ] {rule : Rule σ} [hrule : rule.IsLenient]

instance {x : Draft.Action α} [h : Obeys Draft.quiet x] : Obeys rule (liftM x : EStateM Failure σ α) := by
  refine ⟨fun s => ?_⟩
  show rule.Allows s (match x (Carries.draft s) with
    | .ok value draft => EStateM.Result.ok value (Carries.withDraft s draft)
    | .error failure draft => .error failure (Carries.withDraft s draft))
  cases hx : x (Carries.draft s) with
  | ok a draft => exact hrule.step_withDraft s draft (h.step hx)
  | error failure draft =>
      obtain ⟨hagrees, hordinary⟩ := h.stop hx
      exact hrule.stop_withDraft failure s draft hagrees hordinary

instance [LawfulCarries σ] : rule.IsPatient := by
  refine ⟨fun {failure} s hordinary => ?_⟩
  have hstop := hrule.stop_withDraft failure s (Carries.draft s) (.refl _) hordinary
  rwa [LawfulCarries.withDraft_draft] at hstop

end Lenient

end Scriptlet
