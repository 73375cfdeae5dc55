import Scriptlet.Proofs.Grammar.Ending
import Scriptlet.Proofs.Grammar.Seam
import Scriptlet.Proofs.Grammar.StatementLayout

/-!
Reading two texts one after the other.

A text that is read without an error leaves nothing behind that changes how the next one is read: its
statements followed by those of the next text are the statements of both texts with a line break between
them.  The statements are compared by their outlines, which show everything but lines and parents.
-/

set_option synthInstance.maxSize 10000000

namespace Scriptlet

/-! ### Outlines -/

/-- What a value looks like down to some depth. -/
inductive Outline
  | hidden
  | scalar (value : Scalar)
  | node (kind : Kind) (fields : List (Field × Outline))
  | list (items : List Outline)
  | tuple (items : List Outline)
  | record (entries : List (String × Outline))

/-- The outline of a value, without lines and parents. -/
def Graph.outline (graph : Graph) : Nat → Value → Outline
  | 0, _ => .hidden
  | _ + 1, .scalar value => .scalar value
  | depth + 1, .node id =>
      .node (graph.node id).kind (((graph.node id).fields.filter fun entry => !entry.1.isPlacing).map
        fun entry => (entry.1, graph.outline depth entry.2))
  | depth + 1, .list items => .list (items.map (graph.outline depth))
  | depth + 1, .tuple items => .tuple (items.map (graph.outline depth))
  | depth + 1, .record entries => .record (entries.map fun entry => (entry.1, graph.outline depth entry.2))

/-- Nothing was said and no error was noted. -/
def Journal.isClean (journal : Journal) : Bool :=
  !journal.flagged && journal.messages.isEmpty

/-- The statements of a text and the graph that they are in, if the text is read without an error. -/
def statementsOf? (source : String) : Option (Graph × List Value) :=
  match parseSource source {} with
  | .ok (.node root) draft =>
      if draft.journal.isClean then
        match (draft.graph.node root).get? .statements with
        | some (.list statements) => some (draft.graph, statements)
        | _ => none
      else none
  | _ => none

/-- The outlines of the statements of a text, if the text is read without an error. -/
def outlines? (depth : Nat) (source : String) : Option (List Outline) :=
  (statementsOf? source).map fun (graph, statements) => statements.map (graph.outline depth)

theorem outlines?_eq_some {depth : Nat} {source : String} {outlines : List Outline} :
    outlines? depth source = some outlines ↔
      ∃ graph statements, statementsOf? source = some (graph, statements) ∧ statements.map (graph.outline depth) = outlines := by
  unfold outlines?
  rcases statementsOf? source with _ | ⟨graph, statements⟩
  · simp
  · simp [and_assoc]

section Outlines

variable {setting : Setting} {sketch sketch' : Value → Outline}

theorem map_eq_of_mirrors (hsketch : ∀ {value value'}, setting.Mirrors value value' → sketch value = sketch' value')
    {items others : List Value} (h : List.Forall₂ setting.Mirrors items others) : items.map sketch = others.map sketch' := by
  induction h with
  | nil => rfl
  | cons h _ ih => rw [List.map_cons, List.map_cons, hsketch h, ih]

/-- Lines and parents are the attributes that may differ. -/
theorem map_eq_of_mirrorsEntry (hsketch : ∀ {value value'}, setting.Mirrors value value' → sketch value = sketch' value')
    {fields others : List (Field × Value)} (h : List.Forall₂ setting.MirrorsEntry fields others) :
    ((fields.filter fun entry => !entry.1.isPlacing).map fun entry => (entry.1, sketch entry.2)) =
      (others.filter fun entry => !entry.1.isPlacing).map fun entry => (entry.1, sketch' entry.2) := by
  induction h with
  | nil => rfl
  | @cons entry entry' _ _ hentry _ ih =>
      obtain ⟨key, content⟩ := entry
      obtain ⟨key', content'⟩ := entry'
      obtain ⟨rfl, hsame⟩ := hentry
      by_cases hplacing : key'.isPlacing = true
      · simpa [hplacing] using ih
      · simpa [hplacing, hsketch (hsame.resolve_left hplacing)] using ih

end Outlines

theorem outline_eq {setting : Setting} {graph other : Graph}
    (hnodes : ∀ id < setting.limit, setting.MirrorsNode (graph.node id) (other.node (setting.base.nodes.size + id)))
    (depth : Nat) {value value' : Value} (h : setting.Mirrors value value') :
    graph.outline depth value = other.outline depth value' := by
  induction depth generalizing value value' with
  | zero => rfl
  | succ depth ih =>
      cases h with
      | scalar => rfl
      | list h => exact congrArg Outline.list (map_eq_of_mirrors ih h)
      | tuple h => exact congrArg Outline.tuple (map_eq_of_mirrors ih h)
      | @node id h =>
          obtain ⟨hkind, hfields⟩ := hnodes id h
          rw [Graph.outline, Graph.outline, hkind, map_eq_of_mirrorsEntry ih hfields]

/-! ### Statement after statement -/

namespace Parse

variable {source : String} {count steps : Nat} {statements : List Value} {cursor last start after landing : Cursor}
  {graph : Graph}

/-- A number of statements that are read one after the other. -/
inductive Reads (statement : Parse Value) : Nat → Cursor → List Value → Cursor → Prop
  | done (cursor : Cursor) : Reads statement 0 cursor [] cursor
  | step {count : Nat} {cursor middle after : Cursor} {node : Value} {nodes : List Value} (hnot : ¬ cursor.isAt [.eof])
      (hrun : statement cursor = .ok node middle) (hrest : Reads statement count middle nodes after) :
      Reads statement (count + 1) cursor (statementList node ++ nodes) after

namespace Reads

variable {statement : Parse Value} {count count' : Nat} {cursor other middle after later : Cursor} {nodes nodes' : List Value}

theorem trans (h : Reads statement count cursor nodes middle) (h' : Reads statement count' middle nodes' after) :
    Reads statement (count + count') cursor (nodes ++ nodes') after := by
  induction h with
  | done => simpa using h'
  | step hnot hrun _ ih =>
      rw [List.append_assoc, Nat.succ_add]
      exact .step hnot hrun (ih h')

theorem onward [hflows : Flows statement] (h : Reads statement count cursor nodes after) (hquiet : after.IsQuiet) :
    cursor.Onward after := by
  induction h with
  | done => exact .refl _
  | step _ hrun _ ih =>
      have honward := ih hquiet
      exact (hflows.onward hrun (honward.quiet hquiet)).trans honward

/-- A relation of cursors that each statement keeps is kept by all of them. -/
theorem simulate [hflows : Flows statement] (setting : Setting) {R : Cursor → Cursor → Prop} (hquiet : after.IsQuiet)
    (hstep : ∀ {cursor other middle node}, R cursor other → ¬ cursor.isAt [.eof] → statement cursor = .ok node middle →
      middle.Onward after → ¬ other.isAt [.eof] ∧ ∃ node' later, statement other = .ok node' later ∧ R middle later ∧
        setting.Mirrors node node')
    (h : Reads statement count cursor nodes after) (hrel : R cursor other) :
    ∃ nodes' later, Reads statement count other nodes' later ∧ R after later ∧ List.Forall₂ setting.Mirrors nodes nodes' := by
  induction h generalizing other with
  | done => exact ⟨[], other, .done other, hrel, .nil⟩
  | @step count cursor middle after node nodes hnot hrun hrest ih =>
      obtain ⟨hnot', node', later, hrun', hrel', hsame⟩ := hstep hrel hnot hrun (hrest.onward hquiet)
      obtain ⟨nodes', last, hrest', hlast, hsame'⟩ := ih hquiet hstep hrel'
      have : Mirrored setting node node' := ⟨hsame⟩
      have hlist : Mirrored setting (statementList node) (statementList node') := inferInstance
      exact ⟨_, last, .step hnot' hrun' hrest', hlast, List.rel_append hlist.rel hsame'⟩

end Reads

theorem newProgram_eq_ok {tree : Value} :
    (liftM (Draft.newProgram (.list statements)) : Parse Value) cursor = .ok tree after ↔
      tree = .node cursor.graph.nodes.size ∧ after = { cursor with graph := (cursor.graph.add (programNode statements)).2 } := by
  show EStateM.Result.ok (Value.node cursor.graph.nodes.size)
    { cursor with graph := (cursor.graph.add (programNode statements)).2 } = .ok tree after ↔ _
  rw [EStateM.Result.ok.injEq, eq_comm, eq_comm (b := after)]

/-- A program that is read without a message is read statement by statement. -/
theorem reads_of_programFrom {statement : Parse Value} [Flows statement] {root : NodeId} {nodes : List Value}
    (h : programFrom statement count nodes cursor = .ok (.node root) after) (hquiet : after.IsQuiet) :
    ∃ steps found last, Reads statement steps cursor found last ∧ last.isAt [.eof] ∧
      root = last.graph.nodes.size ∧ after = { last with graph := (last.graph.add (programNode (nodes ++ found))).2 } := by
  induction count generalizing cursor nodes with
  | zero => exact absurd h fail_ne_ok
  | succ count ih =>
      rw [programFrom, check_bind] at h
      by_cases hat : cursor.isAt [.eof] = true
      · rw [if_pos hat] at h
        obtain ⟨hroot, rfl⟩ := newProgram_eq_ok.1 h
        exact ⟨0, [], cursor, .done cursor, hat, Value.node.inj hroot, by rw [List.append_nil]⟩
      · rw [if_neg hat] at h
        obtain ⟨outcome, middle, hattempt, h⟩ := bind_eq_ok.1 h
        rcases attempt_eq_ok.1 hattempt with ⟨node, hrun, rfl⟩ | ⟨failure, -, -, rfl⟩
        · obtain ⟨steps, found, last, hreads, hend, hroot, hafter⟩ := ih h
          exact ⟨steps + 1, _, last, .step hat hrun hreads, hend, hroot, by rw [hafter, List.append_assoc]⟩
        · cases failure <;> dsimp only at h
          case exit => simp at h
          all_goals exact absurd hquiet (Loud.not_quiet h)

theorem programFrom_of_reads {statement : Parse Value} {found : List Value}
    (h : Reads statement steps cursor found last) (hend : last.isAt [.eof]) (hcount : steps < count)
    (nodes : List Value) :
    programFrom statement count nodes cursor =
      .ok (.node last.graph.nodes.size) { last with graph := (last.graph.add (programNode (nodes ++ found))).2 } := by
  obtain ⟨count, rfl⟩ := Nat.exists_eq_add_of_le' (Nat.lt_of_le_of_lt (Nat.zero_le _) hcount)
  induction h generalizing count nodes with
  | done =>
      rw [programFrom, check_bind, if_pos hend, List.append_nil]
      rfl
  | @step steps cursor middle last node found hnot hrun _ ih =>
      obtain ⟨count, rfl⟩ := Nat.exists_eq_add_of_le' (Nat.lt_of_le_of_lt (Nat.zero_le _) (Nat.lt_of_succ_lt_succ hcount))
      rw [programFrom, check_bind, if_neg hnot, ← List.append_assoc]
      refine bind_eq_ok.2 ⟨.ok node, middle, attempt_eq_ok.2 (.inl ⟨node, hrun, rfl⟩), ?_⟩
      exact ih hend _ count (Nat.lt_of_succ_lt_succ hcount)

/-! ### Texts -/

/-- A cursor before the first token of a text. -/
def opening (source : String) : Cursor :=
  { scanner := .ofSource source }

/-- The first two tokens are read before anything else. -/
def twoTokens : Parse Unit := do
  next
  next

theorem parseSource_eq_ok {tree : Value} {draft : Draft} :
    parseSource source {} = .ok tree draft ↔
      ∃ start after, twoTokens (opening source) = .ok () start ∧ program start = .ok tree after ∧ after.toDraft = draft := by
  have hopening : (do next; next : Parse Unit) { scanner := .ofSource source } = twoTokens (opening source) := rfl
  unfold parseSource Cursor.start
  dsimp only
  rw [hopening]
  cases twoTokens (opening source) with
  | error failure cursor => simp
  | ok u start =>
      cases hrun : program start with
      | error failure cursor => simp [hrun]
      | ok found after => simp [hrun, and_assoc]

theorem statementsOf?_eq_some :
    statementsOf? source = some (graph, statements) ↔
      ∃ root draft, parseSource source {} = .ok (.node root) draft ∧ draft.journal.isClean ∧ draft.graph = graph ∧
        (graph.node root).get? .statements = some (.list statements) := by
  unfold statementsOf?
  constructor
  · intro h
    split at h
    case h_2 => simp at h
    case h_1 root draft hparse =>
      split at h
      case isFalse => simp at h
      case isTrue hclean =>
        split at h
        case h_2 => simp at h
        case h_1 found hfound =>
          obtain ⟨rfl, rfl⟩ := Prod.mk.inj (Option.some.inj h)
          exact ⟨root, draft, hparse, hclean, rfl, hfound⟩
  · rintro ⟨root, draft, hparse, hclean, rfl, hfound⟩
    simp [hparse, hclean, hfound]

/-- A text that is read without an error, statement by statement. -/
structure CleanRead (count : Nat) (source : String) (start last : Cursor) (statements : List Value) : Prop where
  opens : twoTokens (opening source) = .ok () start
  reads : ∃ steps, Reads (statement count) steps start statements last
  ends : last.isAt [.eof]
  journal : last.journal = {}

theorem get?_programNode (graph : Graph) (statements : List Value) :
    ((graph.add (programNode statements)).2.node graph.nodes.size).get? .statements = some (.list statements) := by
  rw [Graph.node_add, if_pos rfl]
  rfl

instance : Flows twoTokens := by
  unfold twoTokens
  infer_instance

/-- The number of steps that are allowed does not matter, as long as there are enough of them. -/
theorem cleanRead_of_statementsOf? (h : statementsOf? source = some (graph, statements)) :
    ∃ enough, ∀ count, enough ≤ count → ∃ start last, CleanRead count source start last statements ∧
      graph = (last.graph.add (programNode statements)).2 := by
  obtain ⟨root, draft, hparse, hclean, rfl, hstatements⟩ := statementsOf?_eq_some.1 h
  obtain ⟨start, after, hopens, hprogram, rfl⟩ := parseSource_eq_ok.1 hparse
  have hquiet : after.IsQuiet := by
    simp only [Journal.isClean, Bool.and_eq_true, Array.isEmpty_iff] at hclean
    exact hclean.2
  have hjournal : start.journal = {} := by
    have hprogram : programFrom (statement start.budget) start.budget [] start = .ok (.node root) after := hprogram
    obtain ⟨_, _, last, hreads, -, -, rfl⟩ := reads_of_programFrom hprogram hquiet
    exact (Flows.onward hopens ((hreads.onward hquiet).quiet hquiet)).journal
  refine ⟨start.budget, fun count hcount => ?_⟩
  rw [← programFrom_eq_program (by rw [hjournal]; rfl) hcount] at hprogram
  obtain ⟨steps, found, last, hreads, hend, rfl, rfl⟩ := reads_of_programFrom hprogram hquiet
  obtain rfl : found = statements := by
    have hfound := (get?_programNode last.graph found).symm.trans hstatements
    exact Value.list.inj (Option.some.inj hfound)
  exact ⟨start, last, ⟨hopens, ⟨steps, hreads⟩, hend, (hreads.onward hquiet).journal.trans hjournal⟩, rfl⟩

theorem statementsOf?_of_cleanRead (h : CleanRead count source start last statements) :
    statementsOf? source = some ((last.graph.add (programNode statements)).2, statements) := by
  obtain ⟨steps, hreads⟩ := h.reads
  have hquiet : last.IsQuiet := congrArg Journal.messages h.journal
  have hlimit : start.journal.limit.isSome := by
    rw [← (hreads.onward hquiet).journal, h.journal]
    rfl
  obtain ⟨enough, hcount, hsteps, hbudget⟩ : ∃ enough, count ≤ enough ∧ steps + 1 ≤ enough ∧ start.budget ≤ enough :=
    ⟨count + (steps + 1) + start.budget, by omega, by omega, by omega⟩
  have hprogram := programFrom_of_reads hreads h.ends (Nat.lt_succ_self steps) []
  have hextends := programFrom_extends (statement_block_extend hcount).1 ⟨hsteps⟩ []
  rcases hextends.eq_or_outOfSteps start with hsame | ⟨after, hfailed⟩
  · rw [hsame, programFrom_eq_program hlimit hbudget] at hprogram
    have hparse := parseSource_eq_ok.2 ⟨start, _, h.opens, hprogram, rfl⟩
    have hclean : last.journal.isClean := by
      rw [h.journal]
      rfl
    exact statementsOf?_eq_some.2 ⟨_, _, hparse, hclean, rfl, get?_programNode last.graph statements⟩
  · rw [hfailed] at hprogram
    simp at hprogram

theorem outlines?_of_cleanRead (h : CleanRead count source start last statements) (depth : Nat) :
    outlines? depth source = some (statements.map ((last.graph.add (programNode statements)).2.outline depth)) := by
  rw [outlines?, statementsOf?_of_cleanRead h, Option.map_some]

/-! ### Where a text begins -/

theorem Skips.isAt_ne {wanted : Bool} {kinds : List TokenKind} (h : Skips wanted kinds cursor after) :
    after.isAt kinds ≠ wanted := by
  induction h with
  | stop h => exact h
  | step _ _ _ ih => exact ih

/-- Line breaks make a statement that stands for nothing. -/
theorem statement_of_newline {node : Value} (hat : cursor.isAt [.newline]) (h : statement count cursor = .ok node after)
    (hquiet : after.IsQuiet) : node = .null ∧ Skips true [.newline] cursor after := by
  cases count with
  | zero => exact absurd h fail_ne_ok
  | succ count =>
      unfold statement at h
      obtain ⟨middle, hbody, hskip⟩ := guarded_quiet h hquiet
      obtain ⟨token, hcurrent, hkind⟩ := isAt_iff.1 hat
      have hkind : cursor.currentKind? = some .newline := by
        rw [Cursor.currentKind?, hcurrent, Option.map_some, List.mem_singleton.1 hkind]
      unfold statementBody at hbody
      rw [get_bind, hkind] at hbody
      obtain ⟨_, reached, hskip', hbody⟩ := bind_eq_ok.1 hbody
      obtain ⟨rfl, rfl⟩ := pure_eq_ok.1 hbody
      have hskips := skipNewlines_eq_ok.1 hskip'
      cases skipNewlines_eq_ok.1 hskip with
      | stop => exact ⟨rfl, hskips⟩
      | step hline => exact absurd hline hskips.isAt_ne

/-- A branch without a conditional is no statement. -/
theorem not_isAt_of_statement {node : Value} (h : statement count cursor = .ok node after) (hquiet : after.IsQuiet)
    {kind : TokenKind} (hkind : kind ∈ [TokenKind.elifKey, .elseKey]) : ¬ cursor.isAt [kind] := by
  intro hat
  cases count with
  | zero => exact absurd h fail_ne_ok
  | succ count =>
      unfold statement at h
      obtain ⟨middle, hbody, hskip⟩ := guarded_quiet h hquiet
      have hmiddle := (Flows.onward hskip hquiet).quiet hquiet
      obtain ⟨token, hcurrent, htoken⟩ := isAt_iff.1 hat
      obtain rfl := List.mem_singleton.1 htoken
      have hstray : strayToken cursor = .ok node middle := by
        unfold statementBody at hbody
        rw [get_bind, Cursor.currentKind?, hcurrent, Option.map_some] at hbody
        rcases List.mem_pair.1 hkind with hkind | hkind <;> rwa [hkind] at hbody
      obtain ⟨advice, hadvice⟩ : ∃ advice, adviceOn? token.kind = some advice := by
        rcases List.mem_pair.1 hkind with hkind | hkind <;> exact hkind ▸ ⟨_, rfl⟩
      unfold strayToken at hstray
      rw [get_bind, hcurrent] at hstray
      obtain ⟨given, advised, hadvise, hrest⟩ := bind_eq_ok.1 hstray
      unfold adviseOnToken at hadvise
      rw [get_bind, hcurrent] at hadvise
      dsimp only at hadvise
      rw [hadvice] at hadvise
      exact Loud.not_quiet hadvise ((Flows.onward hrest hmiddle).quiet hmiddle)

theorem exists_landing (h : Reads (statement count) steps start statements last) (hend : last.isAt [.eof])
    (hquiet : last.IsQuiet) :
    ∃ landing, Skips true [.newline] start landing ∧ (∃ steps, Reads (statement count) steps landing statements last) ∧
      ∀ kind ∈ [TokenKind.newline, .elifKey, .elseKey], ¬ landing.isAt [kind] := by
  have hlanding : ∀ {landing steps}, Skips true [.newline] start landing → Reads (statement count) steps landing statements last →
      ∃ landing, Skips true [.newline] start landing ∧ (∃ steps, Reads (statement count) steps landing statements last) ∧
        ∀ kind ∈ [TokenKind.newline, .elifKey, .elseKey], ¬ landing.isAt [kind] := by
    intro landing steps hskips hreads
    refine ⟨landing, hskips, ⟨steps, hreads⟩, fun kind hkind => ?_⟩
    rcases List.mem_cons.1 hkind with rfl | hkind
    · exact hskips.isAt_ne
    · cases hreads with
      | done =>
          refine fun hat => Cursor.not_isAt_eof ?_ hat hend
          rcases List.mem_pair.1 hkind with rfl | rfl <;> rfl
      | step _ hrun hrest => exact not_isAt_of_statement hrun ((hrest.onward hquiet).quiet hquiet) hkind
  by_cases hat : start.isAt [.newline] = true
  · cases h with
    | done => exact absurd hend (Cursor.not_isAt_eof rfl hat)
    | step _ hrun hrest =>
        obtain ⟨rfl, hskips⟩ := statement_of_newline hat hrun ((hrest.onward hquiet).quiet hquiet)
        exact hlanding hskips hrest
  · exact hlanding (.stop hat) h

theorem isSound_opening (h : Scanner.endMark ∉ source.toList) : (opening source).IsSound where
  lines := ⟨by simpa [opening, Scanner.ofSource] using ⟨h, by decide⟩, .inr ⟨source.toList, rfl⟩⟩
  last hrest := by simp [opening, Scanner.ofSource] at hrest
  ending hbefore := by simp [opening, Cursor.isBefore] at hbefore

theorem twoTokens_quiet (hcurrent : cursor.current = none) (hahead : cursor.ahead = none)
    (h : twoTokens cursor = .ok () start) (hquiet : start.IsQuiet) :
    cursor.Moved start ∧ (cursor.IsSound → ¬ start.isAt [.eof]) ∧
      ∃ rest, Scanner.Offers cursor.scanner.rest start.current rest ∧ Scanner.Offers rest start.ahead start.scanner.rest := by
  obtain ⟨_, middle, hfirst, hsecond⟩ := bind_eq_ok.1 h
  have hmiddle := (Flows.onward hsecond hquiet).quiet hquiet
  have hsound := (Flows.onward hfirst hmiddle).sound
  have hnot : ¬ cursor.isAt [.eof] := by simp [Cursor.isAt, Cursor.currentKind?, hcurrent]
  obtain ⟨token, line, htoken, hreports, rfl⟩ := next_quiet hnot hfirst hmiddle
  generalize hmiddle' : ({ cursor with
    current := cursor.ahead, scanner := cursor.scanner.scan.scanner, ahead := token, line } : Cursor) = middle at *
  have hnone (kinds : List TokenKind) : ¬ middle.isAt kinds := by
    simp [← hmiddle', Cursor.isAt, Cursor.currentKind?, hahead]
  have hmoved : cursor.Moved middle := hmiddle' ▸ ⟨rfl, rfl, rfl, rfl⟩
  have hoffers := Scanner.offers_of_scan hreports htoken
  have hpast : middle.ahead = token ∧ middle.scanner = cursor.scanner.scan.scanner := hmiddle' ▸ ⟨rfl, rfl⟩
  obtain ⟨token', line', htoken', hreports', rfl⟩ := next_quiet (hnone _) hsecond hquiet
  refine ⟨hmoved.trans ⟨rfl, rfl, rfl, rfl⟩, fun hopening heof => ?_, middle.scanner.rest, ?_, Scanner.offers_of_scan hreports' htoken'⟩
  · obtain ⟨found, hfound, hkind⟩ := isAt_iff.1 heof
    exact hnone _ ((hsound hopening).ending (isBefore_iff.2 ⟨found, hfound, hkind⟩)).1
  · rw [hpast.1, hpast.2]
    exact hoffers

/-- The surroundings of a text in front of another one that is read without an error. -/
theorem exists_seam (limit : Nat) (hopens : twoTokens (opening source) = .ok () start)
    (hskips : Skips true [.newline] start landing) (hquiet : landing.IsQuiet)
    (hlanding : ∀ kind ∈ [TokenKind.newline, .elifKey, .elseKey], ¬ landing.isAt [kind]) :
    ∃ seam : Seam, seam.base = {} ∧ seam.limit = limit ∧ seam.tail = (opening source).scanner.rest ∧ seam.landing = landing := by
  obtain ⟨-, -, rest, hfirst, hsecond⟩ := twoTokens_quiet rfl rfl hopens ((hskips.flows hquiet).quiet hquiet)
  refine ⟨⟨⟨{}, limit, (opening source).scanner.rest, start.current, rest, hfirst⟩, start, landing, ?_, rfl, hsecond, hskips,
    hquiet, hlanding⟩, rfl, rfl, rfl, rfl⟩
  simp [opening, Scanner.ofSource]

theorem mirrorsGraph_empty (setting : Setting) : setting.MirrorsGraph {} setting.base where
  size := rfl
  below _ _ := rfl
  nodes id := by
    have hnode : setting.base.node (setting.base.nodes.size + id) = ⟨.plain, []⟩ := by
      unfold Graph.node
      rw [Array.getD_eq_getD_getElem?, Array.getElem?_eq_none (by omega)]
      rfl
    rw [hnode]
    exact ⟨rfl, .nil⟩

/-! ### One text after the other -/

instance {setting : Setting} : Tracks setting twoTokens twoTokens := by
  unfold twoTokens
  infer_instance

/-- A text is read before other text up to the place where that begins. -/
theorem reads_before {seam : Seam} {first : String} (joined : String) (h : CleanRead count first start last statements)
    (hmark : Scanner.endMark ∉ first.toList) (hbase : seam.base = {}) (hlimit : last.graph.nodes.size ≤ seam.limit)
    (hrest : (opening joined).scanner.rest = (opening first).scanner.rest ++ seam.tail) :
    ∃ start' last' statements', twoTokens (opening joined) = .ok () start' ∧
      (∃ steps, Reads (statement count) steps start' statements' last') ∧ seam.Agrees last last' ∧
      seam.landing.SamePlace last' ∧ List.Forall₂ seam.Mirrors statements statements' := by
  obtain ⟨steps, hreads⟩ := h.reads
  have hquiet : last.IsQuiet := congrArg Journal.messages h.journal
  have honward := hreads.onward hquiet
  have hstart := honward.quiet hquiet
  have hsound := isSound_opening hmark
  obtain ⟨-, hnot, -⟩ := twoTokens_quiet rfl rfl h.opens hstart
  have hmatches : seam.Matches (opening first) (opening joined) := by
    refine ⟨⟨?_, rfl, rfl, rfl, .inl rfl⟩, .inside rfl rfl hrest fun _ => by simp [opening, Cursor.isBefore]⟩
    have hempty := mirrorsGraph_empty seam.toSetting
    rwa [hbase] at hempty
  have htracks : Tracks seam.toSetting twoTokens twoTokens := inferInstance
  obtain ⟨_, start', hopens, hmatches', -⟩ := htracks.run hmatches (fun _ => hsound) h.opens
    ⟨hstart, fun _ => hnot hsound, honward.size.trans hlimit⟩
  obtain ⟨statements', last', hreads', ⟨hjoined, -⟩, hsame⟩ :=
    hreads.simulate seam.toSetting (R := fun cursor other => seam.Joined cursor other ∧ cursor.IsSound) hquiet
      (fun {cursor other middle node} hrel hnot hrun honward => by
        obtain ⟨hjoined, hsound⟩ := hrel
        cases hjoined with
        | landed _ heof => exact absurd heof hnot
        | inside hmatches =>
            have hmiddle := honward.quiet hquiet
            have hleaves : Leaves seam (statement count) (statement count) := inferInstance
            obtain ⟨node', later, hrun', hjoined', hsame⟩ :=
              hleaves.run hmatches hnot hsound hrun ⟨hmiddle, honward.size.trans hlimit⟩
            exact ⟨hmatches.isAt _ ▸ hnot, node', later, hrun', ⟨hjoined', (Flows.onward hrun hmiddle).sound hsound⟩, hsame⟩)
      ⟨.inside hmatches' (hnot hsound), (Flows.onward h.opens hstart).sound hsound⟩
  cases hjoined with
  | inside _ hnot => exact absurd h.ends hnot
  | landed hagrees _ hplace => exact ⟨start', last', statements', hopens, ⟨steps, hreads'⟩, hagrees, hplace, hsame⟩

/-- The surroundings of the last text. -/
def lastSetting (base : Graph) (limit : Nat) : Setting where
  base := base
  limit := limit
  tail := []
  opening := some (.ofText .eof "")
  rest := []
  opens _ := Scanner.scan_of_rest_nil

/-- The last text is read behind other text from the place where it begins. -/
theorem reads_behind {other : Cursor} (h : Reads (statement count) steps landing statements last)
    (hquiet : last.IsQuiet) (hplace : landing.SamePlace other)
    (hagrees : (lastSetting other.graph last.graph.nodes.size).Agrees landing other) :
    ∃ later statements', Reads (statement count) steps other statements' later ∧
      (lastSetting other.graph last.graph.nodes.size).Matches last later ∧
      List.Forall₂ (lastSetting other.graph last.graph.nodes.size).Mirrors statements statements' := by
  generalize hsetting : lastSetting other.graph last.graph.nodes.size = setting at *
  have htail : setting.tail = [] := hsetting ▸ rfl
  have hlimit : setting.limit = last.graph.nodes.size := hsetting ▸ rfl
  have hmatches : setting.Matches landing other :=
    ⟨hagrees, .inside hplace.current hplace.ahead (by rw [htail, List.append_nil, hplace.rest]) fun hne => absurd htail hne⟩
  obtain ⟨statements', later, hreads, hmatches', hsame⟩ := h.simulate setting (R := setting.Matches) hquiet
    (fun {cursor other middle node} hmatches hnot hrun honward => by
      have hinside : setting.Inside middle :=
        ⟨honward.quiet hquiet, fun hne => absurd htail hne, hlimit ▸ honward.size⟩
      obtain ⟨node', later, hrun', hmatches', hsame⟩ :=
        (tracks_statement_block setting count).1.run hmatches (fun hne => absurd htail hne) hrun hinside
      exact ⟨hmatches.isAt _ ▸ hnot, node', later, hrun', hmatches', hsame⟩)
    hmatches
  exact ⟨later, statements', hreads, hmatches', hsame⟩

/-- A text leaves nothing behind that is not there at the beginning of the next one. -/
theorem agrees_landing {reached : Cursor} (hmoved : (opening source).Moved landing) (hjournal : reached.journal = {})
    (hfunction : reached.inFunction = false) (hloop : reached.inLoop = false) (limit : Nat) :
    (lastSetting reached.graph limit).Agrees landing reached where
  graph := by
    rw [hmoved.draft]
    exact mirrorsGraph_empty (lastSetting reached.graph limit)
  journal := by
    rw [hjournal, hmoved.draft]
    rfl
  inFunction := hfunction.trans hmoved.inFunction.symm
  inLoop := hloop.trans hmoved.inLoop.symm
  focus := .inl hmoved.focus

theorem CleanRead.marks_lowered (h : CleanRead count source start last statements) :
    last.inFunction = false ∧ last.inLoop = false := by
  obtain ⟨steps, hreads⟩ := h.reads
  have hquiet : last.IsQuiet := congrArg Journal.messages h.journal
  have honward := hreads.onward hquiet
  have honward := (Flows.onward h.opens (honward.quiet hquiet)).trans honward
  exact ⟨Bool.eq_false_iff.2 fun hmark => Bool.false_ne_true (honward.inFunction hmark),
    Bool.eq_false_iff.2 fun hmark => Bool.false_ne_true (honward.inLoop hmark)⟩

theorem rest_opening_append (first second : String) :
    (opening (first ++ "\n" ++ second)).scanner.rest = (opening first).scanner.rest ++ (opening second).scanner.rest := by
  simp [opening, Scanner.ofSource]

theorem node_add_of_lt {id : NodeId} (h : id < graph.nodes.size) (node : Node) :
    (graph.add node).2.node id = graph.node id := by
  rw [Graph.node_add, if_neg (Nat.ne_of_lt h)]

/-- Texts that are read without an error, with a line break between them, are read without an error, and the
statements are those of the first text followed by those of the second. -/
theorem outlines_append {first second : String} (hmark : Scanner.endMark ∉ first.toList) (depth : Nat)
    {before behind : List Outline} (hbefore : outlines? depth first = some before)
    (hbehind : outlines? depth second = some behind) :
    outlines? depth (first ++ "\n" ++ second) = some (before ++ behind) := by
  obtain ⟨graph, statements, hfirst, rfl⟩ := outlines?_eq_some.1 hbefore
  obtain ⟨graph', statements', hsecond, rfl⟩ := outlines?_eq_some.1 hbehind
  obtain ⟨enough, hfirst⟩ := cleanRead_of_statementsOf? hfirst
  obtain ⟨enough', hsecond⟩ := cleanRead_of_statementsOf? hsecond
  obtain ⟨start, last, hread, rfl⟩ := hfirst (enough + enough') (Nat.le_add_right _ _)
  obtain ⟨start', last', hread', rfl⟩ := hsecond (enough + enough') (Nat.le_add_left _ _)
  generalize enough + enough' = count at hread hread'
  have hquiet : last.IsQuiet := congrArg Journal.messages hread.journal
  have hquiet' : last'.IsQuiet := congrArg Journal.messages hread'.journal
  -- the second text by itself, from behind its first line breaks
  obtain ⟨steps', hreads'⟩ := hread'.reads
  obtain ⟨landing, hskips, ⟨steps', hreads'⟩, hlanding⟩ := exists_landing hreads' hread'.ends hquiet'
  have hlands := (hreads'.onward hquiet').quiet hquiet'
  obtain ⟨hmoved, -, -⟩ := twoTokens_quiet rfl rfl hread'.opens ((hskips.flows hlands).quiet hlands)
  have hmoved := hmoved.trans (hskips.moved hlands)
  obtain ⟨seam, hbase, hlimit, htail, rfl⟩ := exists_seam last.graph.nodes.size hread'.opens hskips hlands hlanding
  -- the first text, and then the second one
  obtain ⟨begin, reached, found, hopens, ⟨steps, hreads⟩, hagrees, hplace, hfound⟩ :=
    reads_before (first ++ "\n" ++ second) hread hmark hbase hlimit.ge (by rw [htail, rest_opening_append])
  obtain ⟨hfunction, hloop⟩ := hread.marks_lowered
  obtain ⟨later, found', hreads', hmatches, hfound'⟩ := reads_behind hreads' hquiet' hplace
    (agrees_landing hmoved (hagrees.journal.trans hread.journal) (hagrees.inFunction.trans hfunction)
      (hagrees.inLoop.trans hloop) _)
  have hjoined : CleanRead count (first ++ "\n" ++ second) begin later (found ++ found') :=
    ⟨hopens, ⟨_, hreads.trans hreads'⟩, hmatches.isAt _ ▸ hread'.ends, hmatches.journal.trans hread'.journal⟩
  have hsize : later.graph.nodes.size = reached.graph.nodes.size + last'.graph.nodes.size := hmatches.graph.size
  have hreached : reached.graph.nodes.size = seam.base.nodes.size + last.graph.nodes.size := hagrees.graph.size
  rw [outlines?_of_cleanRead hjoined, List.map_append]
  generalize programNode (found ++ found') = root
  have hleft : statements.map ((last.graph.add (programNode statements)).2.outline depth) =
      found.map ((later.graph.add root).2.outline depth) := map_eq_of_mirrors (outline_eq (fun id hid => by
      rw [hlimit] at hid
      have hbelow : seam.base.nodes.size + id < reached.graph.nodes.size := hreached ▸ Nat.add_lt_add_left hid _
      have hwithin : seam.base.nodes.size + id < later.graph.nodes.size :=
        Nat.lt_of_lt_of_le hbelow (hsize ▸ Nat.le_add_right _ _)
      rw [node_add_of_lt hid, node_add_of_lt hwithin, hmatches.graph.below _ hbelow]
      exact hagrees.graph.nodes id) depth) hfound
  have hright : statements'.map ((last'.graph.add (programNode statements')).2.outline depth) =
      found'.map ((later.graph.add root).2.outline depth) := map_eq_of_mirrors (outline_eq (fun id hid => by
      rw [node_add_of_lt hid, node_add_of_lt (hsize ▸ Nat.add_lt_add_left hid _)]
      exact hmatches.graph.nodes id) depth) hfound'
  rw [hleft, hright]

theorem outlines_append_conditional :
    ∃ before behind, before.length = 1 ∧ behind.length = 1 ∧ Scanner.endMark ∉ "if (x < 2) \x7b\n x++\n\x7d".toList ∧
      outlines? 2 "if (x < 2) \x7b\n x++\n\x7d" = some before ∧ outlines? 2 "\nx = 3 ^\n" = some behind ∧
      outlines? 2 ("if (x < 2) \x7b\n x++\n\x7d" ++ "\n" ++ "\nx = 3 ^\n") = some (before ++ behind) := by
  have hfirst : (outlines? 2 "if (x < 2) \x7b\n x++\n\x7d").map List.length = some 1 := by decide +kernel
  have hsecond : (outlines? 2 "\nx = 3 ^\n").map List.length = some 1 := by decide +kernel
  have hmark : Scanner.endMark ∉ "if (x < 2) \x7b\n x++\n\x7d".toList := by decide +kernel
  obtain ⟨before, hbefore, hlength⟩ := Option.map_eq_some_iff.1 hfirst
  obtain ⟨behind, hbehind, hlength'⟩ := Option.map_eq_some_iff.1 hsecond
  exact ⟨before, behind, hlength, hlength', hmark, hbefore, hbehind, outlines_append hmark 2 hbefore hbehind⟩

end Parse

end Scriptlet
