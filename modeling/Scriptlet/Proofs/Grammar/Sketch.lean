import Scriptlet.Proofs.Grammar.Onward
import Scriptlet.Proofs.Layout
import Scriptlet.Proofs.Reading

/-!
Sketches: the nodes that the grammar has made, and the node in focus.

A sketch grows from another one if the old nodes stay as they are and the new ones are laid out well.
Rules of the grammar are followed in this view only, so that reading tokens does not show, and only where they
end without a message.
-/

set_option synthInstance.maxSize 10000000

namespace Scriptlet

/-- What the grammar has made so far, and the node to which the next sum belongs. -/
structure Sketch where
  graph : Graph
  focus : Value

def Cursor.sketch (cursor : Cursor) : Sketch :=
  ⟨cursor.graph, cursor.focus⟩

namespace Sketch

def size (sketch : Sketch) : Nat :=
  sketch.graph.nodes.size

def add (sketch : Sketch) (node : Node) : Sketch :=
  { sketch with graph := (sketch.graph.add node).2 }

def set (sketch : Sketch) (id : Nat) (field : Field) (value : Value) : Sketch :=
  { sketch with graph := sketch.graph.setField id field value }

def refocus (sketch : Sketch) (focus : Value) : Sketch :=
  { sketch with focus }

section Changes

variable (sketch : Sketch) (node : Node) (id other : Nat) (field : Field) (value : Value)

@[simp] theorem size_add : (sketch.add node).size = sketch.size + 1 := by
  simp [size, add, Graph.add]

@[simp] theorem size_set : (sketch.set id field value).size = sketch.size := by
  simp [size, set, Graph.setField]

@[simp] theorem size_refocus : (sketch.refocus value).size = sketch.size := rfl

@[simp] theorem graph_refocus : (sketch.refocus value).graph = sketch.graph := rfl

@[simp] theorem focus_add : (sketch.add node).focus = sketch.focus := rfl

@[simp] theorem focus_set : (sketch.set id field value).focus = sketch.focus := rfl

@[simp] theorem focus_refocus : (sketch.refocus value).focus = value := rfl

@[simp] theorem node_add_self : (sketch.add node).graph.node sketch.size = node := by
  rw [add, Graph.node_add]
  exact if_pos rfl

theorem node_add_of_ne {id : Nat} (h : id ≠ sketch.size) : (sketch.add node).graph.node id = sketch.graph.node id := by
  rw [add, Graph.node_add]
  exact if_neg h

theorem node_set_self {id : Nat} (h : id < sketch.size) :
    (sketch.set id field value).graph.node id = (sketch.graph.node id).set field value := by
  rw [set, Graph.node_setField]
  exact if_pos ⟨rfl, h⟩

theorem node_set_of_ne {id other : Nat} (h : other ≠ id) :
    (sketch.set id field value).graph.node other = sketch.graph.node other := by
  rw [set, Graph.node_setField]
  exact if_neg fun hand => h hand.1

/-- A node that is changed right after it was made could as well have been made like that. -/
theorem set_add_self : (sketch.add node).set sketch.size field value = sketch.add (node.set field value) := by
  simp only [set, add, size, Graph.add, Graph.setField]
  congr 2
  refine Array.ext (by simp) fun i _ _ => ?_
  simp only [Array.getElem_modify, Array.getElem_push]
  grind

theorem set_add_of_lt {id : Nat} (h : id < sketch.size) :
    (sketch.add node).set id field value = (sketch.set id field value).add node := by
  have hsize : id < sketch.graph.nodes.size := h
  simp only [set, add, Graph.add, Graph.setField]
  congr 2
  refine Array.ext (by simp) fun i _ _ => ?_
  simp only [Array.getElem_modify, Array.getElem_push, Array.size_modify]
  grind

theorem alike_set_parent : (sketch.graph.node other).Alike ((sketch.set id .parent value).graph.node other) := by
  rw [set, Graph.node_setField]
  split
  · exact Node.alike_set_parent _ _
  · exact .refl _

theorem keeps_add (low : Nat) : sketch.graph.Keeps (sketch.add node).graph low sketch.size :=
  .of_eq fun _ _ hid => node_add_of_ne _ _ hid.ne

end Changes

/-- The focus is a node that was made. -/
def Focused (sketch : Sketch) : Prop :=
  ∀ id : Nat, sketch.focus = .node id → id < sketch.size

/-- A value that mentions new nodes only, or what was in focus at the start. -/
def Offers (base later : Sketch) (value : Value) : Prop :=
  value.Spans base.size later.size ∨ value = base.focus

/-- Old nodes stay as they are.  New nodes are laid out well, and their parents are new or in focus at the start. -/
structure Grown (base later : Sketch) : Prop where
  focused : base.Focused
  size_le : base.size ≤ later.size
  old : ∀ id : Nat, id < base.size → later.graph.node id = base.graph.node id
  laid : ∀ id : Nat, base.size ≤ id → id < later.size → later.graph.Laid base.size later.size id
  parent : ∀ id : Nat, base.size ≤ id → id < later.size → base.Offers later ((later.graph.node id).get .parent)
  focus : base.Offers later later.focus

variable {base middle later changed : Sketch}
variable {node : Node} {value : Value} {low : Nat}

theorem Offers.mono (h : base.Offers middle value) (hle : middle.size ≤ later.size) : base.Offers later value :=
  h.imp_left (.mono · (le_refl _) hle)

theorem Offers.null : base.Offers later .null :=
  .inl Value.spans_scalar

theorem Grown.refl (h : base.Focused) : base.Grown base where
  focused := h
  size_le := le_refl _
  old _ _ := rfl
  laid id hlow hhigh := absurd hhigh (by omega)
  parent id hlow hhigh := absurd hhigh (by omega)
  focus := .inr rfl

theorem Grown.closed (h : base.Grown later) : later.graph.Closed base.size later.size :=
  fun id _ hlow hhigh => (h.laid id hlow hhigh).below

theorem Grown.keeps (h : middle.Grown later) : middle.graph.Keeps later.graph low middle.size :=
  .of_eq fun id _ hid => h.old id hid

/-- The node in focus in between is the one of the start, or it was made since. -/
theorem Grown.offers (h : base.Grown middle) (h' : middle.Offers later value) (hle : middle.size ≤ later.size) :
    base.Offers later value := by
  rcases h' with hspans | rfl
  · exact .inl (hspans.mono h.size_le (le_refl _))
  · exact h.focus.mono hle

theorem Grown.later_focused (h : base.Grown later) : later.Focused := by
  intro id hid
  rcases h.focus with hspans | hsame
  · exact (hspans id (hid ▸ .node)).2
  · exact (h.focused id (hsame ▸ hid)).trans_le h.size_le

theorem Grown.trans (h : base.Grown middle) (h' : middle.Grown later) : base.Grown later where
  focused := h.focused
  size_le := h.size_le.trans h'.size_le
  old id hid := (h'.old id (hid.trans_le h.size_le)).trans (h.old id hid)
  laid id hlow hhigh := by
    by_cases hid : id < middle.size
    · refine (h.laid id hlow hid).transfer ⟨hlow, hid⟩ h'.keeps (le_refl _) h'.size_le fun _ parent hparent => .inl ?_
      rwa [h'.old id hid] at hparent
    · exact (h'.laid id (by omega) hhigh).mono ⟨by omega, hhigh⟩ h.size_le (le_refl _)
  parent id hlow hhigh := by
    by_cases hid : id < middle.size
    · rw [h'.old id hid]
      exact (h.parent id hlow hid).mono h'.size_le
    · exact h.offers (h'.parent id (by omega) hhigh) h'.size_le
  focus := h.offers h'.focus h'.size_le

theorem Grown.refocus (h : base.Grown later) {focus : Value} (hfocus : base.Offers later focus) :
    base.Grown (later.refocus focus) :=
  { h with focus := hfocus }

theorem Grown.of_refocus (h : (base.refocus .null).Grown later) (hfocused : base.Focused) : base.Grown later := by
  have hoffers : ∀ {value}, (base.refocus .null).Offers later value → base.Offers later value := by
    rintro value (hspans | rfl)
    · exact .inl hspans
    · exact .null
  exact ⟨hfocused, h.size_le, h.old, h.laid, fun id hlow hhigh => hoffers (h.parent id hlow hhigh), hoffers h.focus⟩

/-- A new node is laid out well if the nodes below it are new and it is well formed itself. -/
theorem Grown.add (h : base.Grown later) (hmarks : node.isUnmarked)
    (hfilled : (∀ child ∈ node.children, later.graph.Has base.size later.size child) ∨ node.children = [.null])
    (hparent : base.Offers later (node.get .parent))
    (hformed : (later.add node).graph.Formed base.size (later.size + 1) later.size) : base.Grown (later.add node) := by
  have hle := h.size_le
  refine ⟨h.focused, ?_, fun id hid => ?_, fun id hlow hhigh => ?_, fun id hlow hhigh => ?_, h.focus.mono (by simp)⟩
  · rw [size_add]
    omega
  · rw [node_add_of_ne _ _ (by omega), h.old id hid]
  all_goals
    rw [size_add] at hhigh
    by_cases hid : id = later.size
  · subst hid
    rw [size_add]
    refine ⟨?_, ?_, hformed⟩ <;> rw [node_add_self]
    · exact hmarks
    · exact hfilled.imp_left fun hhas child hchild =>
        (hhas child hchild).transfer (keeps_add _ _ _).alike (le_refl _) (by omega)
  · refine (h.laid id hlow (by omega)).transfer ⟨hlow, by omega⟩ (keeps_add _ _ _) (le_refl _) (by simp)
      fun _ parent hget => .inl ?_
    rwa [node_add_of_ne _ _ hid] at hget
  · rw [hid, node_add_self]
    exact hparent.mono (by simp)
  · rw [node_add_of_ne _ _ hid]
    exact (h.parent id hlow (by omega)).mono (by simp)

/-- An older node gets a younger parent.  A call gets only a parent that encloses it. -/
theorem Grown.setParent (h : base.Grown later) {id parent : Nat} (hid : base.size ≤ id) (hyounger : id < parent)
    (hparent : parent < later.size) (hcall : (later.graph.node id).kind = .call → later.graph.Encloses parent id) :
    base.Grown (later.set id .parent (.node parent)) := by
  have hself := node_set_self later .parent (.node parent) (hyounger.trans hparent)
  have hget : ((later.set id .parent (.node parent)).graph.node id).get .parent = .node parent := by
    rw [hself, Node.get, Node.get?_set, if_pos rfl]
    rfl
  have halike := fun other => alike_set_parent later id other (.node parent)
  have hnew : ∀ other found : Nat,
      ((later.set id .parent (.node parent)).graph.node other).get .parent = .node found →
        (later.graph.node other).get .parent = .node found ∨ other = id ∧ found = parent := by
    intro other found hfound
    by_cases hother : other = id
    · rw [hother, hget] at hfound
      exact .inr ⟨hother, (Value.node.inj hfound).symm⟩
    · rw [node_set_of_ne _ _ _ hother] at hfound
      exact .inl hfound
  refine ⟨h.focused, ?_, fun other hother => ?_, fun other hlow hhigh => ?_, fun other hlow hhigh => ?_,
    h.focus.mono (by simp)⟩
  · rw [size_set]
    exact h.size_le
  · rw [node_set_of_ne _ _ _ (by omega), h.old other hother]
  · rw [size_set] at hhigh ⊢
    refine (h.laid other hlow hhigh).transfer ⟨hlow, hhigh⟩ ⟨fun another _ _ => halike another, ?_⟩ (le_refl _)
      (le_refl _) ?_
    · intro another found _ _ hfound
      rcases hnew another found hfound with hsame | ⟨rfl, rfl⟩
      · exact .inl hsame
      · exact .inr (.inl hyounger)
    · intro hkind found hfound
      rcases hnew other found hfound with hsame | ⟨rfl, rfl⟩
      · exact .inl hsame
      · exact .inr ⟨by omega, hparent, (hcall hkind).transfer (halike _)⟩
  · rw [size_set] at hhigh
    by_cases hother : other = id
    · rw [hother, hget]
      exact .inl (Value.spans_node.2 ⟨by omega, by simpa using hparent⟩)
    · rw [node_set_of_ne _ _ _ hother]
      exact (h.parent other hlow hhigh).mono (by simp)

/-! ### Values that were read -/

/-- The values are among what has grown. -/
structure Holds (base : Sketch) (values : List Value) (later : Sketch) : Prop where
  grown : base.Grown later
  has : ∀ value ∈ values, later.graph.Has base.size later.size value

section Holds

variable {values rest : List Value}

theorem Holds.nil (h : base.Grown later) : base.Holds [] later :=
  ⟨h, nofun⟩

theorem Holds.append (h : base.Holds values middle) (h' : middle.Holds rest later) : base.Holds (values ++ rest) later :=
  ⟨h.grown.trans h'.grown, List.forall_mem_append.2
    ⟨fun value hvalue => (h.has value hvalue).transfer h'.grown.keeps.alike (le_refl _) h'.grown.size_le,
      fun value hvalue => (h'.has value hvalue).transfer (fun _ _ _ => .refl _) h.grown.size_le (le_refl _)⟩⟩

theorem Holds.grow (h : base.Holds values middle) (h' : middle.Grown later) : base.Holds values later := by
  have happended := h.append (Holds.nil h')
  rwa [List.append_nil] at happended

theorem Holds.subset (h : base.Holds values later) (hsubset : rest ⊆ values) : base.Holds rest later :=
  ⟨h.grown, fun value hvalue => h.has value (hsubset hvalue)⟩

/-- A node is made above values that were read. -/
theorem Holds.add (h : base.Holds values later) (hmarks : node.isUnmarked) (hchildren : node.children ⊆ values)
    (hparent : base.Offers later (node.get .parent))
    (hformed : (later.add node).graph.Formed base.size (later.size + 1) later.size) :
    base.Holds (.node later.size :: values) (later.add node) := by
  have hle := h.grown.size_le
  have hhas : ∀ child ∈ node.children, later.graph.Has base.size later.size child :=
    fun child hchild => h.has child (hchildren hchild)
  refine ⟨h.grown.add hmarks (.inl hhas) hparent hformed, List.forall_mem_cons.2 ⟨⟨⟨hle, by simp⟩, ?_⟩, fun value hvalue => ?_⟩⟩
  · rw [node_add_self]
    exact fun hnull => (hhas _ hnull).ne_null rfl
  · exact (h.has value hvalue).transfer (keeps_add _ _ _).alike (le_refl _) (by simp)

theorem Holds.addBare (h : base.Holds values later) (hbare : node.kind.isBare) (hmarks : node.isUnmarked)
    (hchildren : node.children ⊆ values) (hparent : base.Offers later (node.get .parent)) :
    base.Holds (.node later.size :: values) (later.add node) :=
  h.add hmarks hchildren hparent (.of_isBare (by rwa [node_add_self]))

end Holds

theorem Holds.adopt {sketch : Sketch} {values : List Value} (h : base.Holds values (sketch.add node)) {id : Nat}
    (hid : base.size ≤ id ∧ id < sketch.size)
    (hencloses : ∀ graph : Graph, graph.node sketch.size = node → graph.Encloses sketch.size id) :
    base.Holds values ((sketch.set id .parent (.node sketch.size)).add node) := by
  rw [← set_add_of_lt _ _ _ _ hid.2]
  refine ⟨h.grown.setParent hid.1 hid.2 (by simp) fun _ => hencloses _ (node_add_self _ _), fun value hvalue => ?_⟩
  rw [size_set]
  exact (h.has value hvalue).transfer (fun other _ _ => alike_set_parent _ _ _ _) (le_refl _) (le_refl _)

theorem focused_root (base : Sketch) (root : Node) : ((base.add root).refocus (.node base.size)).Focused := by
  rintro _ ⟨⟩
  simp

theorem Holds.root {values : List Value} (h : ((base.add node).refocus (.node base.size)).Holds values later) :
    later.graph.node base.size = node ∧ base.size < later.size := by
  have hle := h.grown.size_le
  rw [size_refocus, size_add] at hle
  refine ⟨?_, hle⟩
  rw [h.grown.old base.size (by simp)]
  exact node_add_self base node

/-- A root was made first, and all else has grown with the root in focus.  Once the root is complete, the sketch
has grown from what was there before.  Nodes may get the root as their parent at the same time. -/
theorem Holds.finish {values : List Value} (h : ((base.add node).refocus (.node base.size)).Holds values later)
    (hfocused : base.Focused) (hsize : changed.size = later.size) (hfocus : base.Offers later changed.focus)
    (hold : ∀ id : Nat, id < base.size → changed.graph.node id = later.graph.node id)
    (hnew : ∀ id : Nat, base.size < id → changed.graph.node id = later.graph.node id ∨
      changed.graph.node id = (later.graph.node id).set .parent (.node base.size) ∧ changed.graph.Encloses base.size id)
    {done : Node} (hdone : changed.graph.node base.size = done) (hmarks : done.isUnmarked) (hchildren : done.children ⊆ values)
    (hparent : done.get .parent = .null) (hformed : changed.graph.Formed base.size later.size base.size) :
    base.Holds (.node base.size :: values) changed := by
  have hstart : ((base.add node).refocus (.node base.size)).size = base.size + 1 := size_add base node
  obtain ⟨⟨-, hle, hgrownOld, hlaid, hparents, -⟩, hhas⟩ := h
  rw [hstart] at hle hgrownOld hlaid hparents hhas
  have hadopted : ∀ id : Nat, base.size < id → (changed.graph.node id).get .parent = (later.graph.node id).get .parent ∨
      (changed.graph.node id).get .parent = .node base.size ∧ changed.graph.Encloses base.size id := by
    intro id hid
    refine (hnew id hid).imp (fun hsame => by rw [hsame]) (.imp_left fun hset => ?_)
    rw [hset, Node.get, Node.get?_set, if_pos rfl]
    rfl
  have hkeeps : later.graph.Keeps changed.graph (base.size + 1) later.size := by
    refine ⟨fun id hid _ => ?_, fun id parent hid _ hget => ?_⟩
    · rcases hnew id hid with hsame | ⟨hset, -⟩
      · exact .of_eq hsame
      · rw [hset]
        exact Node.alike_set_parent _ _
    · rcases hadopted id hid with hsame | ⟨hself, -⟩
      · exact .inl (hsame ▸ hget)
      · obtain rfl := Value.node.inj (hself.symm.trans hget)
        exact .inr (.inr (Nat.lt_succ_self _))
  have hlt : base.size < changed.size := by omega
  have hhas' : ∀ value ∈ values, changed.graph.Has base.size changed.size value := fun value hvalue =>
    (hhas value hvalue).transfer hkeeps.alike (Nat.le_succ _) hsize.ge
  refine ⟨⟨hfocused, hlt.le, fun id hid => ?_, fun id hlow hhigh => ?_, fun id hlow hhigh => ?_, hfocus.mono hsize.ge⟩,
    List.forall_mem_cons.2 ⟨⟨⟨le_refl _, hlt⟩, ?_⟩, hhas'⟩⟩
  · rw [hold id hid, hgrownOld id (by omega)]
    exact node_add_of_ne _ _ (by omega)
  · rcases Nat.eq_or_lt_of_le hlow with rfl | hid
    · rw [hsize] at hhas' ⊢
      refine ⟨?_, .inl ?_, hformed⟩ <;> rw [hdone]
      · exact hmarks
      · exact fun child hchild => hhas' child (hchildren hchild)
    · rw [hsize] at hhigh ⊢
      refine (hlaid id hid hhigh).transfer ⟨hid, hhigh⟩ hkeeps (Nat.le_succ _) (le_refl _) fun _ parent hget => ?_
      rcases hadopted id hid with hsame | ⟨hself, hencloses⟩
      · exact .inl (hsame ▸ hget)
      · obtain rfl := Value.node.inj (hself.symm.trans hget)
        exact .inr ⟨le_refl _, hle, hencloses⟩
  · have hroot : base.Offers changed (.node base.size) := .inl (Value.spans_node.2 ⟨le_refl _, hlt⟩)
    rcases Nat.eq_or_lt_of_le hlow with rfl | hid
    · rw [hdone, hparent]
      exact .null
    · rcases hadopted id hid with hsame | ⟨hself, -⟩
      · rw [hsame]
        rcases hparents id hid (hsize ▸ hhigh) with hspans | hfocus
        · exact .inl (hspans.mono (by simp) hsize.ge)
        · rw [hfocus]
          exact hroot
      · rw [hself]
        exact hroot
  · rw [hdone]
    exact fun hnull => (hhas' _ (hchildren hnull)).ne_null rfl

/-- A value that was read, and nothing since then has to do with the nodes below it. -/
def Early (low : Nat) (value : Value) (later : Sketch) : Prop :=
  ∃ start stop : Nat, low ≤ start ∧ later.graph.Divided start stop later.size ∧ value.Spans start stop ∧
    ∀ id : Nat, later.focus = .node id → id < start ∨ stop ≤ id

theorem Early.of_grown (h : base.Grown later) (hvalue : value.Spans base.size later.size)
    (hfocus : later.focus = base.focus ∨ later.focus = .null) : Early base.size value later := by
  refine ⟨base.size, later.size, le_refl _, ⟨h.size_le, le_refl _, h.closed, fun id _ hid hid' => absurd hid' (by omega),
    fun id _ hid hid' => absurd hid' (by omega)⟩, hvalue, fun id hid => .inl ?_⟩
  rcases hfocus with hsame | hnull
  · exact h.focused id (hsame ▸ hid)
  · rw [hnull] at hid
    cases hid

/-- What is read later has to do with other nodes. -/
theorem Early.grow (h : Early low value middle) (hgrown : middle.Grown later) : Early low value later ∧
    ∀ {other : Value}, other.Spans middle.size later.size → later.graph.Parted low later.size value other := by
  obtain ⟨start, stop, hlow, ⟨hstart, hstop, hleft, hright, hparent⟩, hspans, hfocus⟩ := h
  have hle := hgrown.size_le
  have hnew : ∀ {id : Nat} {found : Value}, middle.Offers later found → found = .node id → id < start ∨ stop ≤ id := by
    rintro id _ (hspans | hsame) rfl
    · have := hspans id .node
      exact .inr (by omega)
    · exact hfocus id hsame.symm
  have hdivided : later.graph.Divided start stop later.size := by
    refine ⟨hstart, by omega, ?_, fun id child hid hid' hbelow => ?_, fun id parent hid hid' hget => ?_⟩
    · exact hleft.transfer fun id _ hid => .of_eq (hgrown.old id (by omega))
    · by_cases hold : id < middle.size
      · rw [Graph.below_iff_of_alike (.of_eq (hgrown.old id hold))] at hbelow
        have := hright id child hid hold hbelow
        omega
      · have := hgrown.closed id child (by omega) hid' hbelow
        omega
    · by_cases hold : id < middle.size
      · rw [hgrown.old id hold] at hget
        exact hparent id parent hid hold hget
      · exact hnew (hgrown.parent id (by omega) hid') hget
  exact ⟨⟨start, stop, hlow, hdivided, hspans, fun id => hnew hgrown.focus⟩, fun hother =>
    ⟨start, stop, later.size, hlow, le_refl _, hdivided, hspans, hother.mono hstop (le_refl _)⟩⟩

/-- Values that were read one after the other.  What follows a marked one has to do with other nodes. -/
structure Row (base : Sketch) (parts : List (Bool × Value)) (later : Sketch) : Prop
    extends base.Holds (parts.map Prod.snd) later where
  early : ∀ part ∈ parts, part.1 → Early base.size part.2 later
  parted : parts.Pairwise fun earlier part => earlier.1 → later.graph.Parted base.size later.size earlier.2 part.2

section Row

variable {parts rest : List (Bool × Value)}

theorem Row.nil (h : base.Grown later) : base.Row [] later :=
  ⟨.nil h, nofun, .nil⟩

theorem Row.append (h : base.Row parts middle) (h' : middle.Row rest later) : base.Row (parts ++ rest) later := by
  have hle := h.grown.size_le
  refine ⟨?_, List.forall_mem_append.2 ⟨fun part hpart hmark => ?_, fun part hpart hmark => ?_⟩,
    List.pairwise_append.2 ⟨h.parted.imp fun hparted hmark => ?_, h'.parted.imp fun hparted hmark => ?_,
      fun part hpart other hother hmark => ?_⟩⟩
  · rw [List.map_append]
    exact h.toHolds.append h'.toHolds
  · exact ((h.early part hpart hmark).grow h'.grown).1
  · obtain ⟨start, stop, hlow, hearly⟩ := h'.early part hpart hmark
    exact ⟨start, stop, hle.trans hlow, hearly⟩
  · exact (hparted hmark).transfer h'.grown.keeps (le_refl _) h'.grown.size_le
  · exact (hparted hmark).transfer (.of_eq fun _ _ _ => rfl) hle (le_refl _)
  · exact ((h.early part hpart hmark).grow h'.grown).2 (h'.has _ (List.mem_map_of_mem hother)).spans

theorem Row.holds {values : List Value} {mark : Bool} (h : base.Row (values.map (mark, ·)) later) : base.Holds values later := by
  simpa [Function.comp_def] using h.toHolds

theorem Row.grow (h : base.Row parts middle) (h' : middle.Grown later) : base.Row parts later := by
  have happended := h.append (Row.nil h')
  rwa [List.append_nil] at happended

theorem Holds.row (h : base.Holds [value] later) (mark : Bool)
    (hfocus : mark → later.focus = base.focus ∨ later.focus = .null) : base.Row [(mark, value)] later :=
  ⟨h, List.forall_mem_singleton.2 fun hmark => .of_grown h.grown (h.has value (List.mem_singleton_self _)).spans (hfocus hmark),
    List.pairwise_singleton _ _⟩

end Row

end Sketch

/-! ### Actions of the grammar, seen by their sketches -/

namespace Parse

variable {α β : Type}
variable {kinds : List TokenKind} {count : Nat}

/-- No node is made or changed, and the focus stays. -/
def still : Rule Cursor where
  step before after := after.sketch = before.sketch
  stop _ before after := after.sketch = before.sketch
  refl _ := rfl
  trans h h' := h'.trans h
  stop_of_step h h' := h'.trans h
  step_of_stop _ h := h

instance (failure : Failure) : Obeys still (throw failure : Parse α) :=
  .throw fun _ => rfl

instance (fault : Fault) : Obeys still (fail fault : Parse α) :=
  .throw fun _ => rfl

instance : still.IsPatient :=
  ⟨fun _ _ => rfl⟩

instance (x : Journal.Writer α) : Obeys still (liftM (liftM x : Draft.Action α) : Parse α) := by
  refine ⟨fun cursor => ?_⟩
  rw [liftM_writer]
  cases x cursor.journal <;> rfl

instance (message heading : String) : Obeys still (complain message heading) := by
  unfold complain
  infer_instance

instance : Obeys still readAhead := by
  refine ⟨fun cursor => ?_⟩
  rw [readAhead_eq]
  cases cursor.scanner.scan.deliver cursor.journal <;> rfl

instance : Obeys still next := by
  have hline : Obeys still (modify fun cursor : Cursor => { cursor with line := cursor.line + 1 }) :=
    .modify fun _ => rfl
  unfold next
  infer_instance

instance : IsOpen still where
  complain _ _ := inferInstance
  next := inferInstance

instance (count : Nat) : Obeys still (skipUntilWithin kinds count) := by
  induction count with
  | zero => exact inferInstanceAs (Obeys still (fail _))
  | succ count ih =>
      unfold skipUntilWithin
      infer_instance

instance : Obeys still (skipUntil kinds) := by
  unfold skipUntil
  infer_instance

instance (count : Nat) : Obeys still (skipNewlinesWithin count) := by
  induction count with
  | zero => exact inferInstanceAs (Obeys still (fail _))
  | succ count ih =>
      unfold skipNewlinesWithin
      infer_instance

instance : Obeys still skipNewlines := by
  unfold skipNewlines
  infer_instance

instance : Obeys still recover := by
  unfold recover
  infer_instance

instance (inFunction : Bool) : Obeys still (modify fun cursor : Cursor => { cursor with inFunction }) :=
  .modify fun _ => rfl

instance (inLoop : Bool) : Obeys still (modify fun cursor : Cursor => { cursor with inLoop }) :=
  .modify fun _ => rfl

instance (list : NameList) : Obeys still (declaredNames count list) := by
  induction count generalizing list with
  | zero => exact inferInstanceAs (Obeys still (fail _))
  | succ count ih =>
      unfold declaredNames
      infer_instance

instance (names : List Value) : Obeys still (assignedNames count names) := by
  induction count generalizing names with
  | zero => exact inferInstanceAs (Obeys still (fail _))
  | succ count ih =>
      unfold assignedNames
      infer_instance

/-- Where an action that starts on the sketch ends without a message, its result is as wished. -/
def Leads (sketch : Sketch) (x : Parse α) (wish : α → Sketch → Prop) : Prop :=
  ∀ ⦃cursor a after⦄, cursor.sketch = sketch → cursor.Accounts → x cursor = .ok a after → after.IsQuiet →
    wish a after.sketch

namespace Leads

variable {sketch : Sketch} {x : Parse α} {f : α → Parse β} {wish : α → Sketch → Prop} {goal : β → Sketch → Prop}
variable {fields : List (Field × Value)} {kind : Kind}

theorem bind [Candid x] [∀ a, Flows (f a)] (hx : Leads sketch x wish) (hf : ∀ a later, wish a later → Leads later (f a) goal) :
    Leads sketch (x >>= f) goal := by
  intro cursor b after hcursor haccounts h hquiet
  obtain ⟨a, middle, hfirst, hrest⟩ := bind_eq_ok.1 h
  have hwish := hx hcursor haccounts hfirst ((Flows.onward hrest hquiet).quiet hquiet)
  have hstep : candid.step cursor middle := Obeys.step hfirst
  exact hf a _ hwish rfl (hstep.accounts haccounts) hrest hquiet

theorem mono {wish' : α → Sketch → Prop} (hx : Leads sketch x wish) (h : ∀ {a later}, wish a later → wish' a later) :
    Leads sketch x wish' :=
  fun _ _ _ hcursor haccounts hrun hquiet => h (hx hcursor haccounts hrun hquiet)

theorem pure {a : α} (h : wish a sketch) : Leads sketch (Pure.pure a) wish := by
  rintro cursor _ after rfl - hrun -
  obtain ⟨rfl, rfl⟩ := pure_eq_ok.1 hrun
  exact h

theorem still_bind [Obeys still x] [Obeys candid x] (hf : ∀ a, Leads sketch (f a) goal) : Leads sketch (x >>= f) goal := by
  intro cursor b after hcursor haccounts h hquiet
  obtain ⟨a, middle, hfirst, hrest⟩ := bind_eq_ok.1 h
  have hsame : still.step cursor middle := Obeys.step hfirst
  have hstep : candid.step cursor middle := Obeys.step hfirst
  exact hf a (hsame.trans hcursor) (hstep.accounts haccounts) hrest hquiet

theorem still_last [Obeys still x] {b : β} (h : goal b sketch) : Leads sketch (x >>= fun _ => Pure.pure b) goal := by
  rintro cursor _ after rfl - hrun -
  obtain ⟨_, middle, hfirst, hrest⟩ := bind_eq_ok.1 hrun
  obtain ⟨rfl, rfl⟩ := pure_eq_ok.1 hrest
  have hsame : middle.sketch = cursor.sketch := (Obeys.step hfirst : still.step cursor middle)
  exact hsame ▸ h

theorem fail {fault : Fault} : Leads sketch (Scriptlet.fail fault : Parse α) wish :=
  fun _ _ _ _ _ h => absurd h fail_ne_ok

theorem loud [Loud x] : Leads sketch x wish :=
  fun _ _ _ _ _ h hquiet => absurd hquiet (Loud.not_quiet h)

theorem ite {c : Prop} [Decidable c] {y : Parse α} (hx : Leads sketch x wish) (hy : Leads sketch y wish) :
    Leads sketch (if c then x else y) wish := by
  split
  · exact hx
  · exact hy

/-- What comes behind an action that is done only at times. -/
theorem ite_still {c : Prop} [Decidable c] {x : Parse Unit} {f : Unit → Parse β} [Obeys still x] [Obeys candid x]
    (hf : ∀ u, Leads sketch (f u) goal) : Leads sketch (if c then x >>= f else f ()) goal :=
  .ite (.still_bind hf) (hf ())

theorem get_bind {f : Cursor → Parse β} (hf : ∀ cursor : Cursor, cursor.sketch = sketch → Leads sketch (f cursor) goal) :
    Leads sketch (get >>= f) goal :=
  fun _ _ _ hcursor haccounts => hf _ hcursor hcursor haccounts

theorem focus_bind {f : Unit → Parse β} {focus : Value} (hf : Leads (sketch.refocus focus) (f ()) goal) :
    Leads sketch (setFocus focus >>= f) goal := by
  rintro cursor b after rfl haccounts h hquiet
  obtain ⟨_, _, hfirst, h⟩ := bind_eq_ok.1 h
  obtain rfl := modify_eq_ok.1 hfirst
  exact hf (by rfl) (by exact haccounts) h hquiet

theorem add {wish : Value → Sketch → Prop} (h : wish (.node sketch.size) (sketch.add ⟨kind, fields⟩)) :
    Leads sketch (liftM (Draft.addNode kind fields)) wish := by
  rintro cursor _ after rfl - hrun -
  obtain ⟨rfl, rfl⟩ := EStateM.Result.ok.inj hrun
  exact h

theorem add_bind {f : Value → Parse β} (hf : Leads (sketch.add ⟨kind, fields⟩) (f (.node sketch.size)) goal) :
    Leads sketch (liftM (Draft.addNode kind fields) >>= f) goal := by
  rintro cursor b after rfl haccounts h hquiet
  obtain ⟨_, _, hfirst, h⟩ := bind_eq_ok.1 h
  obtain ⟨rfl, rfl⟩ := EStateM.Result.ok.inj hfirst
  exact hf (by rfl) (by exact haccounts) h hquiet

theorem set_bind {value content : Value} {field : Field} {f : Unit → Parse β}
    (hf : ∀ id : NodeId, value = .node id → Leads (sketch.set id field content) (f ()) goal) :
    Leads sketch (liftM (Draft.setField value field content) >>= f) goal := by
  rintro cursor b after rfl haccounts h hquiet
  obtain ⟨_, _, hfirst, h⟩ := bind_eq_ok.1 h
  cases value with
  | node id =>
      obtain rfl := (EStateM.Result.ok.inj hfirst).2
      exact hf id rfl (by rfl) (by exact haccounts) h hquiet
  | _ => exact nomatch hfirst

end Leads

end Parse

end Scriptlet
