import Scriptlet.Proofs.Reading

/-!
The parts of the analysis that only read.
-/

set_option synthInstance.maxSize 1000000

namespace Scriptlet

/-- A computation whose faults are ordinary. -/
class Sane {α : Type} (x : Except Fault α) : Prop where
  isOrdinary : ∀ fault, x = .error fault → Failure.isOrdinary (.fault fault)

section Sane

variable {α β : Type}
variable {name : String} {table : ScopeTable}

instance (a : α) : Sane (.ok a : Except Fault α) := ⟨nofun⟩

theorem Sane.of_error {fault : Fault} (h : Failure.isOrdinary (.fault fault)) : Sane (.error fault : Except Fault α) :=
  ⟨fun _ heq => Except.error.inj heq ▸ h⟩

instance {x : Except Fault α} {f : α → β} [h : Sane x] : Sane (x.map f) := by
  refine ⟨fun fault heq => ?_⟩
  cases x with
  | ok a => cases heq
  | error other => exact h.isOrdinary fault (congrArg Except.error (Except.error.inj heq))

instance (data : Value) (key : String) (absent : Value) : Sane (Symbol.entry data key absent) := by
  unfold Symbol.entry
  split
  · infer_instance
  · exact .of_error rfl

instance (data : Value) (key : String) (value : Value) : Sane (Symbol.withEntry data key value) := by
  unfold Symbol.withEntry
  split
  · infer_instance
  all_goals exact .of_error rfl

instance (symbol : Symbol) : Sane (table.add name symbol) := by
  unfold ScopeTable.add
  split
  · exact .of_error rfl
  · infer_instance

instance (functionData : Value) : Sane (table.addGlobalFunction name functionData) := by
  unfold ScopeTable.addGlobalFunction
  split
  · exact .of_error rfl
  · infer_instance

instance : Sane table.exitScope := by
  unfold ScopeTable.exitScope
  split
  · infer_instance
  · exact .of_error rfl

instance (symbol : Option Symbol) : Sane (ScopeTable.isStatic symbol) := by
  unfold ScopeTable.isStatic
  split
  · infer_instance
  · split <;> infer_instance

instance (index : Int) : Sane (table.lookupIn? index name) := by
  unfold ScopeTable.lookupIn?
  dsimp only
  split
  · split
    · split
      · exact .of_error rfl
      · infer_instance
    · infer_instance
  · infer_instance

instance (type value : Value) : Sane (table.update name type value).2 := by
  unfold ScopeTable.update
  split
  · exact .of_error rfl
  · dsimp only
    split
    · infer_instance
    · split
      · split
        · infer_instance
        case h_2 fault heq =>
          exact .of_error ((inferInstance : Sane (Symbol.withEntry _ _ _)).isOrdinary _ heq)
      · exact .of_error rfl

end Sane

section Reads

variable {σ α : Type}

instance (x : Except Fault α) [h : Sane x] : Obeys looking (orFail x : EStateM Failure σ α) := by
  cases x with
  | ok a => exact inferInstanceAs (Obeys looking (pure a))
  | error fault =>
      have : Holds (Failure.isOrdinary (.fault fault)) := ⟨h.isOrdinary fault rfl⟩
      exact inferInstanceAs (Obeys looking (fail fault))

variable [Carries σ] [LawfulCarries σ]

/-- What is written into a journal is not stopped by a mark. -/
def Journal.unmarked : Rule Journal where
  step _ _ := True
  stop failure _ _ := failure ≠ .mark
  refl _ := trivial
  trans _ _ := trivial
  stop_of_step _ h := h
  step_of_stop _ _ := trivial

instance (name wording : String) (exits : Bool) (line : Scalar) :
    Obeys Journal.unmarked (Journal.announceAs name wording exits line) := by
  have hmodify : ∀ change : Journal → Journal, Obeys Journal.unmarked (modify change : Journal.Writer PUnit) :=
    fun _ => .modify fun _ => trivial
  have hexit : Obeys Journal.unmarked (throw .exit : Journal.Writer Unit) :=
    .throw fun _ => (by simp [Failure.mark] : Failure.exit ≠ .mark)
  have hrunaway : Obeys Journal.unmarked (throw .runaway : Journal.Writer Unit) :=
    .throw fun _ => (by simp [Failure.mark] : Failure.runaway ≠ .mark)
  unfold Journal.announceAs Journal.record Journal.printLine
  infer_instance

/-- An announcement passes on what is no complaint, so it is not stopped by a mark that it does not get. -/
theorem reading_announce {failure : Failure} (h : failure ≠ .mark) (exits : Bool) (line : Scalar) :
    Obeys reading (liftM (liftM (Journal.announce failure exits line) : Draft.Action Unit) : EStateM Failure σ Unit) := by
  refine reading.writer fun journal other later herror => ?_
  have hannounce : ∀ name wording journal other later,
      Journal.announceAs name wording exits line journal = .error other later → other ≠ .mark :=
    fun name wording _ _ _ herror =>
      (inferInstance : Obeys Journal.unmarked (Journal.announceAs name wording exits line)).stop herror
  cases failure with
  | complaint c | exit => exact hannounce _ _ _ _ _ herror
  | runaway =>
      cases herror
      simp [Failure.mark]
  | fault fault =>
      cases herror
      exact h

instance (kind : ComplaintKind) (message : String) (exits : Bool) (line : Scalar) :
    Obeys reading (liftM (liftM (Journal.announce (.ofMessage kind message) exits line) : Draft.Action Unit) :
      EStateM Failure σ Unit) :=
  reading_announce (by simp [Failure.ofMessage, Failure.mark]) exits line

end Reads

namespace Check

variable {value node : Value}

namespace Joining

variable {graph : Graph}

theorem sane_joinFrom (graph : Graph) : ∀ position parts, Sane (joinFrom graph position parts)
  | _, [] => ⟨nofun⟩
  | position, part :: rest => by
      have hrest := sane_joinFrom graph (position + 1) rest
      cases part with
      | scalar word =>
          cases word with
          | text s => exact inferInstanceAs (Sane ((joinFrom graph (position + 1) rest).map _))
          | _ => exact .of_error rfl
      | _ => exact .of_error rfl

instance (position : Nat) (parts : List Value) : Sane (joinFrom graph position parts) :=
  sane_joinFrom graph position parts

instance (joining : Joining) : Sane (joining.flush graph) := by
  unfold flush
  split <;> infer_instance

instance (joining : Joining) (part : Value) : Sane (joining.defer graph part) := by
  unfold defer
  infer_instance

end Joining

instance : Obeys looking table := by
  unfold table
  infer_instance

instance {α : Type} (kind : ComplaintKind) (message : String) (line : Scalar) :
    Obeys reading (refuse kind message line : Check α) := by
  unfold refuse
  infer_instance

instance : Obeys looking (nameOf node) := by
  unfold nameOf
  infer_instance

instance : Obeys looking (lineOf node) := by
  refine .bind inferInstance fun line => ?_
  split <;> infer_instance

instance : Obeys looking (toDouble value) := by
  unfold toDouble
  split
  · split <;> infer_instance
  · infer_instance
  · split
    · split <;> infer_instance
    · infer_instance
  · infer_instance

instance (expression : Value) : Obeys looking (evaluate expression) := by
  unfold evaluate
  infer_instance

instance (expression : Value) : Obeys looking (evaluateSigned expression) := by
  unfold evaluateSigned
  infer_instance

instance : Holds (Failure.isOrdinary (.fault ScopeTable.noSymbol)) :=
  ⟨rfl⟩

instance (name : String) : Obeys looking (isStaticName name) := by
  refine .bind inferInstance fun table => ?_
  split <;> infer_instance

instance (depth : Nat) : Obeys looking (isStaticWithin depth value) := by
  induction depth generalizing value with
  | zero => exact inferInstanceAs (Obeys looking (fail .tooDeep))
  | succ depth ih =>
      refine .bind inferInstance fun graph => ?_
      split
      · infer_instance
      · split <;> infer_instance

instance : Obeys looking (isStatic value) :=
  inferInstanceAs (Obeys looking (isStaticWithin _ value))

instance (operand : Value) : Obeys looking (resolved operand) := by
  unfold resolved
  infer_instance

instance (operand : Value) : Obeys looking (isTypeName operand) := by
  unfold isTypeName
  infer_instance

instance (operand : Value) : Obeys looking (typeNamed operand) := by
  refine .bind inferInstance fun value => ?_
  split <;> infer_instance

instance (word : String) (isValid : Value → Bool) : Obeys reading (visitLiteral node word isValid) := by
  unfold visitLiteral
  infer_instance

instance : Obeys reading (visitParameter node) := by
  unfold visitParameter
  infer_instance

end Check

end Scriptlet
