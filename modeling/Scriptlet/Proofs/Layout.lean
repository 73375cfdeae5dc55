import Scriptlet.Proofs.Node
import Mathlib.Data.Nat.Basic
import Mathlib.Order.Basic

/-!
How the nodes of a text lie in its graph.

Whatever is read in one go lies in an interval of nodes that holds all nodes below its own.  So two
parts that are read one after the other have no node in common, and the parents that the nodes of the
later part know are not among the nodes of the earlier one.  Nothing is missing below a node, or the node
has still to be completed.
-/

namespace Scriptlet

variable {a b : Node}

/-- A value is a node, or a collection in which the node occurs. -/
inductive Value.Mentions (id : Nat) : Value → Prop
  | node : Mentions id (.node id)
  | list {item : Value} {items : List Value} : item ∈ items → Mentions id item → Mentions id (.list items)
  | tuple {item : Value} {items : List Value} : item ∈ items → Mentions id item → Mentions id (.tuple items)

namespace Value

variable {id low high : Nat} {items : List Value}

@[simp] theorem mentions_node {other : Nat} : (Value.node other).Mentions id ↔ other = id :=
  ⟨fun h => by cases h; rfl, fun h => h ▸ .node⟩

@[simp] theorem not_mentions_scalar {value : Scalar} : ¬ (Value.scalar value).Mentions id :=
  nofun

@[simp] theorem mentions_list : (Value.list items).Mentions id ↔ ∃ item ∈ items, item.Mentions id :=
  ⟨fun h => by cases h with | list hitem hid => exact ⟨_, hitem, hid⟩, fun ⟨_, hitem, hid⟩ => .list hitem hid⟩

@[simp] theorem mentions_tuple : (Value.tuple items).Mentions id ↔ ∃ item ∈ items, item.Mentions id :=
  ⟨fun h => by cases h with | tuple hitem hid => exact ⟨_, hitem, hid⟩, fun ⟨_, hitem, hid⟩ => .tuple hitem hid⟩

/-- All nodes of a value lie in an interval. -/
def Spans (low high : Nat) (value : Value) : Prop :=
  ∀ id : Nat, value.Mentions id → low ≤ id ∧ id < high

theorem Spans.mono {low' high' : Nat} {value : Value} (h : value.Spans low high) (hlow : low' ≤ low)
    (hhigh : high ≤ high') : value.Spans low' high' :=
  fun id hid => ⟨hlow.trans (h id hid).1, (h id hid).2.trans_le hhigh⟩

@[simp] theorem spans_scalar {value : Scalar} : (Value.scalar value).Spans low high :=
  fun _ hid => absurd hid not_mentions_scalar

@[simp] theorem spans_node : (Value.node id).Spans low high ↔ low ≤ id ∧ id < high := by
  simp [Spans]

@[simp] theorem spans_list : (Value.list items).Spans low high ↔ ∀ item ∈ items, item.Spans low high := by
  simp only [Spans, mentions_list]
  exact ⟨fun h item hitem id hid => h id ⟨item, hitem, hid⟩, fun h id ⟨item, hitem, hid⟩ => h item hitem id hid⟩

/-- The parts of a list or a tuple. -/
def entries : Value → List Value
  | .list items | .tuple items => items
  | value => [value]

theorem Mentions.entries {value : Value} (h : value.Mentions id) : ∃ entry ∈ value.entries, entry.Mentions id := by
  cases h with
  | node => exact ⟨_, List.mem_singleton_self _, .node⟩
  | list hitem hid | tuple hitem hid => exact ⟨_, hitem, hid⟩

end Value

/-- The attributes in which a node holds the nodes below it. -/
def Kind.links : Kind → List Field
  | .program | .block => [.statements]
  | .declaration | .update | .returning | .argument => [.value]
  | .function => [.parameters, .block]
  | .call => [.args]
  | .method => [.receiver]
  | .conditional => [.comparison, .block, .elifNodes, .elseBlock]
  | .loop => [.comparison, .block]
  | .binary | .comparison | .logical => [.left, .right]
  | .unary => [.left]
  | _ => []

/-- Kinds of nodes that are laid out well wherever they stand. -/
def Kind.isBare : Kind → Bool
  | .plain | .expression | .concat | .program | .argument | .parameter | .call | .function | .conditional | .loop => false
  | _ => true

theorem Kind.parent_notMem_links (kind : Kind) : Field.parent ∉ kind.links := by
  cases kind <;> simp [links]

/-- Nodes that differ only in the parents that they know. -/
structure Node.Alike (a b : Node) : Prop where
  kind : b.kind = a.kind
  get? : ∀ field, field ≠ .parent → b.get? field = a.get? field

theorem Node.Alike.refl (a : Node) : a.Alike a :=
  ⟨rfl, fun _ _ => rfl⟩

theorem Node.Alike.of_eq (h : b = a) : a.Alike b :=
  h ▸ .refl b

theorem Node.Alike.get (h : a.Alike b) {field : Field} (hfield : field ≠ .parent) : b.get field = a.get field := by
  rw [Node.get, h.get? field hfield, ← Node.get]

theorem Node.alike_set_parent (a : Node) (value : Value) : a.Alike (a.set .parent value) :=
  ⟨rfl, fun field hfield => by rw [Node.get?_set, if_neg hfield]⟩

/-- A value without parts. -/
def Value.isScalar : Value → Bool
  | .scalar _ => true
  | _ => false

/-- Attributes that hold nodes only if the kind of the node calls for them. -/
def Node.holders : List Field :=
  [.value, .receiver, .arguments, .left, .right, .statements]

/-- The node is not marked as the name of a type, and other nodes are only where its kind has nodes below it. -/
def Node.isUnmarked (node : Node) : Bool :=
  (node.get .isTypeName).isNull &&
    holders.all fun field => node.kind.links.contains field || (node.get field).isScalar

theorem Node.Alike.isUnmarked (h : a.Alike b) : b.isUnmarked = a.isUnmarked := by
  have hget : ∀ field ∈ Node.holders, b.get field = a.get field := by
    intro field hfield
    exact h.get fun heq => absurd (heq ▸ hfield) (by decide)
  unfold Node.isUnmarked
  rw [h.kind, h.get (by decide : Field.isTypeName ≠ .parent)]
  congr 1
  rw [Bool.eq_iff_iff, List.all_eq_true, List.all_eq_true]
  exact forall₂_congr fun field hfield => by rw [hget field hfield]

/-- What stands in the places below a node that have to be filled. -/
def Node.children (node : Node) : List Value :=
  match node.kind with
  | .program | .block => (node.get .statements).entries
  | .declaration | .update | .returning | .argument => [node.get .value]
  | .binary | .comparison | .logical => [node.get .left, node.get .right]
  | .unary => [node.get .left]
  | .conditional =>
      [node.get .comparison, node.get .block] ++ (node.get .elifNodes).entries.flatMap Value.entries ++
        if (node.get .elseBlock).isNull then [] else [node.get .elseBlock]
  | .loop => [node.get .comparison, node.get .block]
  | .function => (node.get .parameters).entries ++ [node.get .block]
  | .call => (node.get .args).entries
  | .method => node.get .receiver :: (node.get .args).entries
  | _ => []

theorem Node.Alike.children (h : a.Alike b) : b.children = a.children := by
  unfold Node.children
  rw [h.kind]
  cases a.kind <;> simp (disch := decide) [h.get]

theorem Node.exists_child {node : Node} {field : Field} {id : Nat} (hfield : field ∈ node.kind.links)
    (h : (node.get field).Mentions id) : ∃ child ∈ node.children, child.Mentions id := by
  obtain ⟨entry, hentry, hid⟩ := h.entries
  unfold children
  cases hkind : node.kind <;> rw [hkind] at hfield <;>
    simp only [Kind.links, List.mem_cons, List.not_mem_nil, or_false] at hfield
  case conditional =>
    rcases hfield with rfl | rfl | rfl | rfl
    · exact ⟨_, by simp, h⟩
    · exact ⟨_, by simp, h⟩
    · obtain ⟨part, hpart, hid⟩ := hid.entries
      exact ⟨part, by simp only [List.mem_append, List.mem_flatMap]; exact .inl (.inr ⟨entry, hentry, hpart⟩), hid⟩
    · cases hvalue : node.get .elseBlock with
      | scalar content => simp [hvalue] at h
      | _ => exact ⟨_, by simp [Value.isNull], hvalue ▸ h⟩
  case function =>
    rcases hfield with rfl | rfl
    · exact ⟨entry, by simp [hentry], hid⟩
    · exact ⟨_, by simp, h⟩
  case program | block | call =>
    obtain rfl := hfield
    exact ⟨entry, hentry, hid⟩
  case loop | binary | comparison | logical => rcases hfield with rfl | rfl <;> exact ⟨_, by simp, h⟩
  all_goals
    obtain rfl := hfield
    exact ⟨_, by simp, h⟩

namespace Graph

/-- One node stands below another. -/
def Below (graph : Graph) (id child : Nat) : Prop :=
  ∃ field ∈ (graph.node id).kind.links, ((graph.node id).get field).Mentions child

/-- An interval of nodes that holds all nodes below its own. -/
def Closed (graph : Graph) (low high : Nat) : Prop :=
  ∀ id child : Nat, low ≤ id → id < high → graph.Below id child → low ≤ child ∧ child < high

/-- Two adjacent closed intervals; nodes of the second one do not know parents in the first one. -/
structure Divided (graph : Graph) (low middle high : Nat) : Prop where
  low_le : low ≤ middle
  le_high : middle ≤ high
  left : graph.Closed low middle
  right : graph.Closed middle high
  parent : ∀ id parent : Nat, middle ≤ id → id < high → (graph.node id).get .parent = .node parent →
    parent < low ∨ middle ≤ parent

/-- Two values that were read one after the other. -/
def Parted (graph : Graph) (low high : Nat) (first second : Value) : Prop :=
  ∃ start middle stop : Nat, low ≤ start ∧ stop ≤ high ∧ graph.Divided start middle stop ∧
    first.Spans start middle ∧ second.Spans middle stop

/-- A node that cannot be the same as another one, because it holds the call whose parent it is. -/
def Encloses (graph : Graph) (parent call : Nat) : Prop :=
  match (graph.node parent).kind with
  | .argument => (graph.node parent).get? .type = none
  | .comparison | .binary =>
      (graph.node parent).get .left = .node call ∨ (graph.node parent).get .right = .node call
  | .declaration => (graph.node parent).get .value = .node call
  | _ => False

/-- A value that is there: a scalar, or a node of an interval that nothing is missing below. -/
def Has (graph : Graph) (low high : Nat) : Value → Prop
  | .scalar content => content ≠ .null
  | .node id => (low ≤ id ∧ id < high) ∧ .null ∉ (graph.node id).children
  | _ => False

/-- A call lists its arguments, each of which was read after the one before. -/
structure CallLaid (graph : Graph) (low high : Nat) (id : Nat) (arguments : List Nat) : Prop where
  args : (graph.node id).get? .args = some (.list (arguments.map .node))
  arity : (graph.node id).get? .arity = some (.int arguments.length)
  value : (graph.node id).get? .value = none
  kinds : ∀ argument ∈ arguments, (graph.node argument).kind = .argument
  inside : ∃ start, low ≤ start ∧ graph.Closed start id ∧ ∀ argument ∈ arguments, start ≤ argument ∧ argument < id
  parted : arguments.Pairwise fun a b => graph.Parted low high (.node a) (.node b)
  parent : ∀ parent : Nat, (graph.node id).get .parent = .node parent →
    low ≤ parent ∧ parent < high ∧ graph.Encloses parent id

structure FunctionLaid (graph : Graph) (low high : Nat) (id : Nat) (formals : List Nat) (type : String) :
    Prop where
  parameters : (graph.node id).get? .parameters = some (.list (formals.map .node))
  arity : (graph.node id).get? .arity = some (.int formals.length)
  returnType : (graph.node id).get? .returnType = some (.text type)
  kinds : ∀ parameter ∈ formals, low ≤ parameter ∧ parameter < high ∧ (graph.node parameter).kind = .parameter

/-- The conditions of a conditional with their blocks: each condition was read before all that follows it. -/
structure ConditionalLaid (graph : Graph) (low high : Nat) (id : Nat) (condition body : Value)
    (branches : List (Value × Value)) (otherwise : Value) : Prop where
  comparison : (graph.node id).get? .comparison = some condition
  block : (graph.node id).get? .block = some body
  elifNodes : (graph.node id).get? .elifNodes = some (.list (branches.map fun branch => .tuple [branch.1, branch.2]))
  elseBlock : (graph.node id).get? .elseBlock = some otherwise
  own : ∀ branch ∈ (condition, body) :: branches,
    graph.Parted low high branch.1 branch.2 ∧ graph.Parted low high branch.1 otherwise
  parted : ((condition, body) :: branches).Pairwise fun earlier later =>
    graph.Parted low high earlier.1 later.1 ∧ graph.Parted low high earlier.1 later.2

/-- What is known of the nodes of a kind. -/
def Formed (graph : Graph) (low high : Nat) (id : Nat) : Prop :=
  match (graph.node id).kind with
  | .plain | .expression | .concat | .program => False
  | .argument => (graph.node id).get? .type = none
  | .parameter => ∃ type, (graph.node id).get? .type = some (.text type)
  | .call => ∃ arguments, graph.CallLaid low high id arguments
  | .function => ∃ formals type, graph.FunctionLaid low high id formals type
  | .conditional => ∃ condition body branches otherwise, graph.ConditionalLaid low high id condition body branches otherwise
  | .loop => ∃ condition body, (graph.node id).get? .comparison = some condition ∧
      (graph.node id).get? .block = some body ∧ graph.Parted low high condition body
  | _ => True

/-- What is known of a node that was read, within the interval of all that was read with it. -/
structure Laid (graph : Graph) (low high : Nat) (id : Nat) : Prop where
  unmarked : (graph.node id).isUnmarked
  filled : (∀ child ∈ (graph.node id).children, graph.Has low high child) ∨ (graph.node id).children = [.null]
  formed : graph.Formed low high id

section Kinds

variable {graph : Graph} {low high id : Nat} {value : Value}

theorem Has.spans (h : graph.Has low high value) : value.Spans low high := by
  cases value with
  | scalar => exact Value.spans_scalar
  | node id => exact Value.spans_node.2 h.1
  | _ => cases h

theorem Has.ne_null (h : graph.Has low high value) : value ≠ .null := by
  rintro rfl
  exact h rfl

theorem Has.isNull (h : graph.Has low high value) : value.isNull = false := by
  unfold Value.isNull
  split
  · exact absurd rfl h.ne_null
  · rfl

theorem Formed.of_isBare (hbare : (graph.node id).kind.isBare) : graph.Formed low high id := by
  unfold Formed
  cases hkind : (graph.node id).kind
  all_goals first
    | trivial
    | (rw [hkind] at hbare; cases hbare)

theorem Laid.below (h : graph.Laid low high id) {child : Nat} (hbelow : graph.Below id child) :
    low ≤ child ∧ child < high := by
  obtain ⟨field, hfield, hchild⟩ := hbelow
  obtain ⟨found, hfound, hchild⟩ := Node.exists_child hfield hchild
  rcases h.filled with hhas | hnull
  · exact (hhas found hfound).spans child hchild
  · rw [hnull, List.mem_singleton] at hfound
    rw [hfound] at hchild
    exact absurd hchild Value.not_mentions_scalar

theorem Laid.kind (h : graph.Laid low high id) : (graph.node id).kind ∉ [Kind.plain, .expression, .concat, .program] := by
  have hformed := h.formed
  intro hmem
  simp only [List.mem_cons, List.not_mem_nil, or_false] at hmem
  rcases hmem with hkind | hkind | hkind | hkind <;> simp [Formed, hkind] at hformed

theorem Laid.parameter (h : graph.Laid low high id) (hkind : (graph.node id).kind = .parameter) :
    ∃ type, (graph.node id).get? .type = some (.text type) := by
  simpa [Formed, hkind] using h.formed

theorem Laid.call (h : graph.Laid low high id) (hkind : (graph.node id).kind = .call) :
    ∃ arguments, graph.CallLaid low high id arguments := by
  simpa [Formed, hkind] using h.formed

theorem Laid.function (h : graph.Laid low high id) (hkind : (graph.node id).kind = .function) :
    ∃ formals type, graph.FunctionLaid low high id formals type := by
  simpa [Formed, hkind] using h.formed

theorem Laid.conditional (h : graph.Laid low high id) (hkind : (graph.node id).kind = .conditional) :
    ∃ condition body branches otherwise, graph.ConditionalLaid low high id condition body branches otherwise := by
  simpa [Formed, hkind] using h.formed

theorem Laid.loop (h : graph.Laid low high id) (hkind : (graph.node id).kind = .loop) :
    ∃ condition body, (graph.node id).get? .comparison = some condition ∧
      (graph.node id).get? .block = some body ∧ graph.Parted low high condition body := by
  simpa [Formed, hkind] using h.formed

end Kinds

/-! ### Changes that keep the layout -/

section Transfer

variable {graph changed : Graph} {low high low' high' : Nat}
variable {id : Nat}

theorem below_iff_of_alike {child : Nat} (h : (graph.node id).Alike (changed.node id)) :
    changed.Below id child ↔ graph.Below id child := by
  unfold Below
  rw [h.kind]
  refine exists_congr fun field => and_congr_right fun hfield => ?_
  rw [h.get fun heq => Kind.parent_notMem_links _ (heq ▸ hfield)]

theorem Closed.transfer {start stop : Nat} (h : graph.Closed start stop)
    (halike : ∀ id : Nat, start ≤ id → id < stop → (graph.node id).Alike (changed.node id)) :
    changed.Closed start stop := by
  intro id child hstart hstop hbelow
  exact h id child hstart hstop ((below_iff_of_alike (halike id hstart hstop)).1 hbelow)

/-- The nodes of an interval keep all but their parents, and new parents are younger than the node itself or
older than all nodes of the interval. -/
structure Keeps (graph changed : Graph) (low high : Nat) : Prop where
  alike : ∀ id : Nat, low ≤ id → id < high → (graph.node id).Alike (changed.node id)
  parent : ∀ id parent : Nat, low ≤ id → id < high → (changed.node id).get .parent = .node parent →
    (graph.node id).get .parent = .node parent ∨ id < parent ∨ parent < low

theorem Keeps.of_eq (h : ∀ id, low ≤ id → id < high → changed.node id = graph.node id) :
    graph.Keeps changed low high :=
  ⟨fun id hlow hhigh => .of_eq (h id hlow hhigh), fun id _ hlow hhigh hparent => .inl (h id hlow hhigh ▸ hparent)⟩

theorem Divided.transfer {start middle stop : Nat} (h : graph.Divided start middle stop) (hkeeps : graph.Keeps changed low high)
    (hlow : low ≤ start) (hhigh : stop ≤ high) : changed.Divided start middle stop where
  low_le := h.low_le
  le_high := h.le_high
  left := h.left.transfer fun id hid hid' => hkeeps.alike id (hlow.trans hid) (hid'.trans_le (h.le_high.trans hhigh))
  right := h.right.transfer fun id hid hid' => hkeeps.alike id (hlow.trans (h.low_le.trans hid)) (hid'.trans_le hhigh)
  parent id parent hid hid' hparent := by
    have := h.low_le
    rcases hkeeps.parent id parent (by omega) (by omega) hparent with hsame | hyounger | holder
    · exact h.parent id parent hid hid' hsame
    · exact .inr (by omega)
    · exact .inl (by omega)

theorem Parted.transfer {first second : Value} (h : graph.Parted low high first second)
    (hkeeps : graph.Keeps changed low high) (hlow : low' ≤ low) (hhigh : high ≤ high') :
    changed.Parted low' high' first second := by
  obtain ⟨start, middle, stop, hstart, hstop, hdivided, hfirst, hsecond⟩ := h
  exact ⟨start, middle, stop, hlow.trans hstart, hstop.trans hhigh, hdivided.transfer hkeeps hstart hstop, hfirst, hsecond⟩

theorem Has.transfer {value : Value} (h : graph.Has low high value)
    (halike : ∀ id : Nat, low ≤ id → id < high → (graph.node id).Alike (changed.node id))
    (hlow : low' ≤ low) (hhigh : high ≤ high') : changed.Has low' high' value := by
  cases value with
  | scalar => exact h
  | node id =>
      obtain ⟨hid, hfilled⟩ := h
      refine ⟨⟨hlow.trans hid.1, hid.2.trans_le hhigh⟩, ?_⟩
      rwa [(halike id hid.1 hid.2).children]
  | _ => cases h

theorem Encloses.transfer {parent call : Nat} (h : graph.Encloses parent call)
    (halike : (graph.node parent).Alike (changed.node parent)) : changed.Encloses parent call := by
  unfold Encloses at h ⊢
  rw [halike.kind, halike.get? .type (by decide), halike.get (by decide : Field.left ≠ _),
    halike.get (by decide : Field.right ≠ _), halike.get (by decide : Field.value ≠ _)]
  exact h

theorem CallLaid.transfer {arguments : List Nat} (h : graph.CallLaid low high id arguments) (hid : low ≤ id ∧ id < high)
    (hkeeps : graph.Keeps changed low high) (hlow : low' ≤ low) (hhigh : high ≤ high')
    (hparent : ∀ parent : Nat, (changed.node id).get .parent = .node parent → (graph.node id).get .parent = .node parent ∨
      low' ≤ parent ∧ parent < high' ∧ changed.Encloses parent id) : changed.CallLaid low' high' id arguments := by
  have halike := hkeeps.alike id hid.1 hid.2
  obtain ⟨start, hstart, hclosed, hinside⟩ := h.inside
  refine ⟨?_, ?_, ?_, fun argument hargument => ?_, ⟨start, hlow.trans hstart, hclosed.transfer fun other hother hother' => ?_,
    hinside⟩, h.parted.imp fun hparted => hparted.transfer hkeeps hlow hhigh, fun parent hnew => ?_⟩
  · rw [halike.get? .args (by decide), h.args]
  · rw [halike.get? .arity (by decide), h.arity]
  · rw [halike.get? .value (by decide), h.value]
  · have := hinside argument hargument
    rw [(hkeeps.alike argument (by omega) (by omega)).kind, h.kinds argument hargument]
  · exact hkeeps.alike other (by omega) (by omega)
  · rcases hparent parent hnew with hsame | hfits
    · obtain ⟨hparentLow, hparentHigh, hencloses⟩ := h.parent parent hsame
      exact ⟨hlow.trans hparentLow, hparentHigh.trans_le hhigh,
        hencloses.transfer (hkeeps.alike parent hparentLow hparentHigh)⟩
    · exact hfits

theorem ConditionalLaid.transfer {condition body otherwise : Value} {branches : List (Value × Value)}
    (h : graph.ConditionalLaid low high id condition body branches otherwise) (hid : low ≤ id ∧ id < high)
    (hkeeps : graph.Keeps changed low high) (hlow : low' ≤ low) (hhigh : high ≤ high') :
    changed.ConditionalLaid low' high' id condition body branches otherwise := by
  have halike := hkeeps.alike id hid.1 hid.2
  refine ⟨?_, ?_, ?_, ?_, fun branch hbranch => ?_, ?_⟩
  · rw [halike.get? .comparison (by decide), h.comparison]
  · rw [halike.get? .block (by decide), h.block]
  · rw [halike.get? .elifNodes (by decide), h.elifNodes]
  · rw [halike.get? .elseBlock (by decide), h.elseBlock]
  · exact (h.own branch hbranch).imp (.transfer · hkeeps hlow hhigh) (.transfer · hkeeps hlow hhigh)
  · exact h.parted.imp (.imp (.transfer · hkeeps hlow hhigh) (.transfer · hkeeps hlow hhigh))

theorem Formed.transfer (h : graph.Formed low high id) (hid : low ≤ id ∧ id < high) (hkeeps : graph.Keeps changed low high)
    (hlow : low' ≤ low) (hhigh : high ≤ high')
    (hparent : (graph.node id).kind = .call → ∀ parent : Nat, (changed.node id).get .parent = .node parent →
      (graph.node id).get .parent = .node parent ∨ low' ≤ parent ∧ parent < high' ∧ changed.Encloses parent id) :
    changed.Formed low' high' id := by
  have halike := hkeeps.alike id hid.1 hid.2
  unfold Formed at h ⊢
  rw [halike.kind]
  cases hkind : (graph.node id).kind <;> rw [hkind] at h
  case argument | parameter =>
    rw [halike.get? .type (by decide)]
    exact h
  case call =>
    obtain ⟨arguments, hcall⟩ := h
    exact ⟨arguments, hcall.transfer hid hkeeps hlow hhigh (hparent hkind)⟩
  case function =>
    obtain ⟨formals, type, hparameters, harity, htype, hkinds⟩ := h
    refine ⟨formals, type, ?_, ?_, ?_, fun parameter hparameter => ?_⟩
    · rw [halike.get? .parameters (by decide), hparameters]
    · rw [halike.get? .arity (by decide), harity]
    · rw [halike.get? .returnType (by decide), htype]
    · obtain ⟨hparameterLow, hparameterHigh, hparameterKind⟩ := hkinds parameter hparameter
      exact ⟨hlow.trans hparameterLow, hparameterHigh.trans_le hhigh,
        (hkeeps.alike parameter hparameterLow hparameterHigh).kind.trans hparameterKind⟩
  case conditional =>
    obtain ⟨condition, body, branches, otherwise, hconditional⟩ := h
    exact ⟨condition, body, branches, otherwise, hconditional.transfer hid hkeeps hlow hhigh⟩
  case loop =>
    rw [halike.get? .comparison (by decide), halike.get? .block (by decide)]
    obtain ⟨condition, body, hcomparison, hblock, hparted⟩ := h
    exact ⟨condition, body, hcomparison, hblock, hparted.transfer hkeeps hlow hhigh⟩
  all_goals exact h

/-- A layout survives a wider view and a change of parents, as long as a call still knows what encloses it. -/
theorem Laid.transfer (h : graph.Laid low high id) (hid : low ≤ id ∧ id < high) (hkeeps : graph.Keeps changed low high)
    (hlow : low' ≤ low) (hhigh : high ≤ high')
    (hparent : (graph.node id).kind = .call → ∀ parent : Nat, (changed.node id).get .parent = .node parent →
      (graph.node id).get .parent = .node parent ∨ low' ≤ parent ∧ parent < high' ∧ changed.Encloses parent id) :
    changed.Laid low' high' id := by
  have halike := hkeeps.alike id hid.1 hid.2
  refine ⟨?_, ?_, h.formed.transfer hid hkeeps hlow hhigh hparent⟩
  · rw [halike.isUnmarked]
    exact h.unmarked
  · rw [halike.children]
    exact h.filled.imp_left fun hhas child hchild => (hhas child hchild).transfer hkeeps.alike hlow hhigh

theorem Laid.mono (h : graph.Laid low high id) (hid : low ≤ id ∧ id < high) (hlow : low' ≤ low) (hhigh : high ≤ high') :
    graph.Laid low' high' id :=
  h.transfer hid (.of_eq fun _ _ _ => rfl) hlow hhigh fun _ _ hparent => .inl hparent

end Transfer

end Graph

end Scriptlet
