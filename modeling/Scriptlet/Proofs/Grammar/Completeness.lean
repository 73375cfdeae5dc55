import Scriptlet.Proofs.Grammar.Ending
import Scriptlet.Proofs.Grammar.StatementLayout

/-!
Trees without gaps.

Every kind of node has places that have to be filled.  Where a text is read without a message they are filled
below the whole program: no operand, value, condition, block, argument or receiver is missing, and no statement.
Where a text stands for no program there is a message.
-/

namespace Scriptlet

namespace Graph

/-- The nodes below a root. -/
inductive Reaches (graph : Graph) (root : NodeId) : NodeId → Prop
  | root : Reaches graph root root
  | child {id child : NodeId} (h : Reaches graph root id) (hchild : .node child ∈ (graph.node id).children) :
      Reaches graph root child

/-- Nothing is missing below a root: in every place there is a scalar or a node. -/
def Complete (graph : Graph) (root : NodeId) : Prop :=
  ∀ id, graph.Reaches root id → id < graph.nodes.size ∧
    ∀ child ∈ (graph.node id).children, graph.Has 0 graph.nodes.size child

end Graph

namespace Parse

variable {base later : Sketch} {root : NodeId} {cursor : Cursor}

/-- Whatever a statement is made of is there, because no node below it has a gap. -/
theorem Read.complete (h : Read base (.node root) later) :
    (later.graph.node root).kind = .program ∧ later.graph.Complete root := by
  obtain ⟨inner, statements, hholds, hroot, rfl⟩ := h
  obtain rfl := Value.node.inj hroot
  have hnew := Sketch.node_add_self inner (programNode statements)
  have hsize : (inner.add (programNode statements)).graph.nodes.size = inner.size + 1 := Sketch.size_add ..
  have hbelow : ∀ id, (inner.add (programNode statements)).graph.Reaches inner.size id → id < inner.size + 1 ∧
      ∀ child ∈ ((inner.add (programNode statements)).graph.node id).children, inner.graph.Has base.size inner.size child := by
    intro id hid
    induction hid with
    | root =>
        rw [hnew]
        exact ⟨Nat.lt_succ_self _, hholds.has⟩
    | @child id child _ hchild ih =>
        obtain ⟨hbounds, hfilled⟩ := ih.2 _ hchild
        refine ⟨Nat.lt_succ_of_lt hbounds.2, ?_⟩
        rw [Sketch.node_add_of_ne _ _ hbounds.2.ne]
        refine (hholds.grown.laid child hbounds.1 hbounds.2).filled.resolve_right fun hnull => hfilled ?_
        rw [hnull]
        exact List.mem_singleton_self _
  refine ⟨by rw [hnew]; rfl, fun id hid => ?_⟩
  rw [hsize]
  obtain ⟨hlt, hhas⟩ := hbelow id hid
  exact ⟨hlt, fun child hchild =>
    (hhas child hchild).transfer (Sketch.keeps_add _ _ _).alike (Nat.zero_le _) (Nat.le_succ _)⟩

/-- Without a message a program was read and nothing is missing in it; and where there is no program an error is
marked. -/
def IsForthright : EStateM.Result Failure Cursor Value → Prop
  | .ok tree after =>
      (after.journal.messages = #[] →
        ∃ root, tree = .node root ∧ (after.graph.node root).kind = .program ∧ after.graph.Complete root) ∧
      (tree = .null → after.journal.flagged = true)
  | .error _ after => after.journal.messages ≠ #[]

/-- Every text whose first tokens can be read stands for a program without gaps, or there is a message about it. -/
theorem isForthright_program (source : String) (draft : Draft) {limit : Nat}
    (hlimit : draft.journal.limit = some (limit + 1)) (hstart : Cursor.start source draft = (.ok (), cursor)) :
    IsForthright (program cursor) := by
  have hsettled := settled_program (accounts_start hstart).1 (by simp [sketch_start hstart, Sketch.Focused])
  have hsame : cursor.journal.limit = some (limit + 1) := by
    rcases start_cases source draft with ⟨started, heq, hsame⟩ | ⟨_, _, heq, _⟩
    · obtain rfl : started = cursor := by simpa [heq] using hstart
      exact hsame.trans hlimit
    · simp [heq] at hstart
  have hsome : cursor.journal.limit.isSome := by simp [hsame]
  have hallows := program_allows hsome
  cases hrun : program cursor with
  | ok tree after =>
      rw [hrun] at hsettled
      refine ⟨fun hquiet => ?_, fun hnull => (hsettled.2 hnull).1⟩
      obtain ⟨inner, statements, hholds, rfl, hlast⟩ := hsettled.1 hquiet
      exact ⟨inner.size, rfl, Read.complete ⟨inner, statements, hholds, rfl, hlast⟩⟩
  | error failure after =>
      rw [hrun] at hsettled hallows
      rcases hsettled with rfl | ⟨-, hfull⟩
      · exact absurd hrun (program_ne_outOfSteps hsome)
      · intro hempty
        have hkept : after.journal.limit = some (limit + 1) := hallows.1.journal.limit.trans hsame
        simp [Journal.isFull, hkept, hempty] at hfull

theorem isForthright_program_declaration :
    ∃ cursor, Cursor.start "set x = -(1 + y)" {} = (.ok (), cursor) ∧ IsForthright (program cursor) := by
  have hok : (Cursor.start "set x = -(1 + y)" {}).1.toBool := by decide +kernel
  cases hstart : Cursor.start "set x = -(1 + y)" {} with
  | mk outcome cursor =>
      rw [hstart] at hok
      cases outcome with
      | error _ => cases hok
      | ok _ => exact ⟨cursor, rfl, isForthright_program _ {} rfl hstart⟩

end Parse

end Scriptlet
