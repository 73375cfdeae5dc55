import Scriptlet.Proofs.Grammar.Mirror

/-!
The rules of the grammar do the same in both readings of a text.

An action tracks another one if each run of the first from a cursor of the first reading, which says nothing and
stays before the end, is matched by a run of the second from the corresponding cursor.
-/

set_option synthInstance.maxSize 10000000

namespace Scriptlet.Parse

variable {α β : Type} [Mirror α] [Mirror β] {setting : Setting} {count : Nat}
variable {kinds : List TokenKind} {cursor : Cursor}

/-- A run of the first action from one cursor is matched by a run of the second one from another. -/
def TracksAt (setting : Setting) (cursor other : Cursor) (x y : Parse α) : Prop :=
  ∀ {a after}, setting.Fits cursor → x cursor = .ok a after → setting.Inside after →
    ∃ b later, y other = .ok b later ∧ setting.Matches after later ∧ Mirror.rel setting a b

/-- The runs of the first action are matched by runs of the second one. -/
class Tracks (setting : Setting) (x y : Parse α) : Prop where
  run : ∀ {cursor other}, setting.Matches cursor other → TracksAt setting cursor other x y

namespace Tracks

variable {y x : Parse α} {f g : α → Parse β}

theorem bind (hx : Tracks setting x y) (hflows : Flows x) (hflows' : ∀ a, Flows (f a))
    (hf : ∀ a b, Mirror.rel setting a b → Tracks setting (f a) (g b)) : Tracks setting (x >>= f) (y >>= g) := by
  refine ⟨fun hmatches c after hfits h hinside => ?_⟩
  obtain ⟨a, middle, hfirst, hrest⟩ := bind_eq_ok.1 h
  have hmiddle := hinside.of_onward ((hflows' a).onward hrest hinside.quiet)
  obtain ⟨b, later, hfirst', hmatches', hsame⟩ := hx.run hmatches hfits hfirst hmiddle
  have hfits' : setting.Fits middle := fun htail => (hflows.onward hfirst hmiddle.quiet).sound (hfits htail)
  obtain ⟨d, last, hrest', hlast, hsame'⟩ := (hf a b hsame).run hmatches' hfits' hrest hinside
  exact ⟨d, last, bind_eq_ok.2 ⟨b, later, hfirst', hrest'⟩, hlast, hsame'⟩

/-- What is the same in both readings is used in the same way. -/
instance [IsFlat α] [hx : Tracks setting x y] [hflows : Flows x] [hflows' : ∀ a, Flows (f a)]
    [hf : ∀ a, Tracks setting (f a) (g a)] : Tracks setting (x >>= f) (y >>= g) :=
  bind hx hflows hflows' fun a _ hsame => IsFlat.rel_iff.1 hsame ▸ hf a

instance (priority := low) [hx : Tracks setting x y] [hflows : Flows x] [hflows' : ∀ a, Flows (f a)]
    [hf : ∀ twin : Twin setting α, Tracks setting (f twin.here) (g twin.there)] : Tracks setting (x >>= f) (y >>= g) :=
  bind hx hflows hflows' fun a b hsame => hf ⟨a, b, hsame⟩

instance {a b : α} [h : Mirrored setting a b] : Tracks setting (pure a : Parse α) (pure b) := by
  refine ⟨fun hmatches c after _ hrun _ => ?_⟩
  obtain ⟨rfl, rfl⟩ := pure_eq_ok.1 hrun
  exact ⟨b, _, rfl, hmatches, h.rel⟩

instance (failure : Failure) : Tracks setting (throw failure) y :=
  ⟨fun _ _ _ _ h => absurd h throw_ne_ok⟩

instance (fault : Fault) : Tracks setting (fail fault) y :=
  ⟨fun _ _ _ _ h => absurd h fail_ne_ok⟩

instance (priority := low) [hx : Loud x] : Tracks setting x y :=
  ⟨fun _ _ _ _ h hinside => absurd hinside.quiet (hx.not_quiet h)⟩

instance {f g : α → β} [hx : Tracks setting x y]
    [hf : ∀ twin : Twin setting α, Mirrored setting (f twin.here) (g twin.there)] :
    Tracks setting (f <$> x) (g <$> y) := by
  refine ⟨fun hmatches c after hfits h hinside => ?_⟩
  obtain ⟨a, hrun, rfl⟩ := map_eq_ok.1 h
  obtain ⟨b, later, hrun', hmatches', hsame⟩ := hx.run hmatches hfits hrun hinside
  exact ⟨g b, later, map_eq_ok.2 ⟨b, hrun', rfl⟩, hmatches', (hf ⟨a, b, hsame⟩).rel⟩

instance {c : Prop} [Decidable c] {x' y' : Parse α} [Tracks setting x x'] [Tracks setting y y'] :
    Tracks setting (if c then x else y) (if c then x' else y') := by
  split <;> infer_instance

instance (priority := low) {c c' : Bool} {x' y' : Parse α} [hc : Mirrored setting c c'] [Tracks setting x x']
    [Tracks setting y y'] : Tracks setting (if c = true then x else y) (if c' = true then x' else y') := by
  obtain rfl : c = c' := hc.rel
  infer_instance

theorem get_bind {f g : Cursor → Parse β}
    (hf : ∀ {cursor other}, setting.Matches cursor other → Tracks setting (f cursor) (g other)) :
    Tracks setting (get >>= f) (get >>= g) :=
  ⟨fun hmatches => (hf hmatches).run hmatches⟩

/-- What each reading finds in its own state need not be the same where it is not used. -/
instance (priority := low) {f g : Cursor → Parse β} [hf : ∀ cursor other, Tracks setting (f cursor) (g other)] :
    Tracks setting (get >>= f) (get >>= g) :=
  get_bind fun _ => hf _ _

/-- The lines of the two readings are not the same. -/
instance (priority := high) {f g : Value → Parse β} [hf : ∀ a b, Tracks setting (f a) (g b)] :
    Tracks setting (line >>= f) (line >>= g) :=
  ⟨fun hmatches => (hf _ _).run hmatches⟩

instance {γ : Type} [Mirror γ] {action action' : γ → Parse β} [∀ item, Flows (action item)]
    [haction : ∀ twin : Twin setting γ, Tracks setting (action twin.here) (action' twin.there)]
    {items others : List γ} [hitems : Mirrored setting items others] :
    Tracks setting (items.mapM action) (others.mapM action') := by
  obtain ⟨hitems⟩ := hitems
  induction hitems with
  | nil =>
      rw [List.mapM_nil, List.mapM_nil]
      infer_instance
  | @cons item other rest others h _ ih =>
      have : Tracks setting (action item) (action' other) := haction ⟨item, other, h⟩
      rw [List.mapM_cons, List.mapM_cons]
      infer_instance

end Tracks

/-! ### The state of a reading -/

instance : Tracks setting (check kinds) (check kinds) := by
  refine ⟨fun {cursor other} hmatches a after _ h _ => ?_⟩
  obtain ⟨rfl, rfl⟩ := EStateM.Result.ok.inj (show EStateM.Result.ok (cursor.isAt kinds) cursor = .ok a after from h)
  exact ⟨other.isAt kinds, other, rfl, hmatches, (hmatches.isAt kinds).symm⟩

/-- Two tokens are looked at only if the first one is no line break. -/
instance (priority := high) {ahead : List TokenKind} [hkinds : Holds (TokenKind.inline kinds)] {x y x' y' : Parse β}
    [hx : Tracks setting x x'] [hy : Tracks setting y y'] :
    Tracks setting
      (check kinds >>= fun here => checkAhead ahead >>= fun there => if (here && there) = true then x else y)
      (check kinds >>= fun here => checkAhead ahead >>= fun there => if (here && there) = true then x' else y') := by
  refine ⟨fun {cursor other} hmatches => ?_⟩
  have hsame : (other.isAt kinds && other.isBefore ahead) = (cursor.isAt kinds && cursor.isBefore ahead) := by
    rw [hmatches.isAt]
    cases hmatches.window with
    | inside _ hahead => rw [Cursor.isBefore, hahead, Cursor.isBefore]
    | brink _ _ hat =>
        obtain ⟨token, hcurrent, hkind⟩ := isAt_iff.1 hat
        have hnot : cursor.isAt kinds = false := by
          refine Bool.eq_false_iff.2 fun hat' => ?_
          obtain ⟨found, hfound, hmem⟩ := isAt_iff.1 hat'
          obtain rfl := Option.some.inj (hcurrent.symm.trans hfound)
          exact (TokenKind.notMem_of_inline hkinds.eq_true).2 (List.mem_singleton.1 hkind ▸ hmem)
        rw [hnot, Bool.false_and, Bool.false_and]
  intro a after hfits h hinside
  have h : (if (cursor.isAt kinds && cursor.isBefore ahead) = true then x else y) cursor = .ok a after := h
  show ∃ b later, (if (other.isAt kinds && other.isBefore ahead) = true then x' else y') other = .ok b later ∧ _
  rw [hsame]
  split at h
  case isTrue hat =>
    rw [if_pos hat]
    exact hx.run hmatches hfits h hinside
  case isFalse hat =>
    rw [if_neg hat]
    exact hy.run hmatches hfits h hinside

instance : Tracks setting currentValue currentValue := by
  refine ⟨fun {cursor other} hmatches a after _ h _ => ?_⟩
  obtain ⟨⟨token, hcurrent, rfl⟩, rfl⟩ := currentValue_eq_ok.1 h
  exact ⟨_, other, currentValue_eq_ok.2 ⟨⟨token, hmatches.window.current.trans hcurrent, rfl⟩, rfl⟩, hmatches, rfl⟩

instance {focus focus' : Value} [h : Mirrored setting focus focus'] :
    Tracks setting (setFocus focus) (setFocus focus') := by
  refine ⟨fun {cursor other} hmatches a after _ hrun _ => ?_⟩
  obtain rfl := modify_eq_ok.1 hrun
  refine ⟨(), _, rfl, ⟨⟨hmatches.graph, hmatches.journal, hmatches.inFunction, hmatches.inLoop, .inr h.rel⟩, ?_⟩, rfl⟩
  exact hmatches.window.of_eq rfl rfl rfl rfl rfl rfl

instance (value : Scalar) : Tracks setting (typeNamed value) (typeNamed value) := by
  unfold typeNamed
  split <;> infer_instance

/-! ### Reading tokens -/

theorem next_eq {token : Option Token} (hnot : ¬ cursor.isAt [.eof]) (htoken : cursor.scanner.scan.token = .ok token)
    (hreports : cursor.scanner.scan.reports = []) :
    ∃ line, next cursor = .ok () { cursor with
      current := cursor.ahead, scanner := cursor.scanner.scan.scanner, ahead := token, line } := by
  have hdeliver : cursor.scanner.scan.deliver cursor.journal = .ok token cursor.journal := by
    unfold Scanner.Outcome.deliver
    rw [hreports, htoken]
    rfl
  have hread := readAhead_eq cursor
  rw [hdeliver] at hread
  unfold next
  rw [check_bind, if_neg hnot]
  by_cases hline : cursor.isBefore [.newline] = true
  · refine ⟨cursor.line + 1, bind_eq_ok.2 ⟨⟨⟩, _, hread, ?_⟩⟩
    rw [check_bind]
    exact congrFun (if_pos hline) _
  · refine ⟨cursor.line, bind_eq_ok.2 ⟨⟨⟩, _, hread, ?_⟩⟩
    rw [check_bind]
    exact congrFun (if_neg hline) _

/-- The next token of a text is the same before other text, up to the brink. -/
theorem tracks_next : Tracks setting next next := by
  refine ⟨fun {cursor other} hmatches a after hfits h hinside => ?_⟩
  by_cases heof : cursor.isAt [.eof] = true
  · rw [next_of_eof heof] at h
    obtain rfl := (EStateM.Result.ok.inj h).2
    exact ⟨(), other, next_of_eof (hmatches.isAt _ ▸ heof), hmatches, rfl⟩
  · have heof' : ¬ other.isAt [.eof] = true := hmatches.isAt _ ▸ heof
    obtain ⟨token, line, htoken, hreports, rfl⟩ := next_quiet heof h hinside.quiet
    obtain ⟨hagrees, hwindow⟩ := hmatches
    cases hwindow with
    | brink htail _ _ _ hend =>
        -- behind the brink the text by itself is at its end
        exact absurd hend (hinside.not_eof htail)
    | inside hcurrent hahead hrest hend =>
        by_cases hbrink : setting.tail ≠ [] ∧ cursor.scanner.rest = []
        · obtain ⟨htail, hempty⟩ := hbrink
          rw [hempty, List.nil_append] at hrest
          obtain ⟨hopening, hsilent, hbehind⟩ := setting.opens other.scanner hrest
          obtain ⟨line', hnext⟩ := next_eq heof' hopening hsilent
          refine ⟨(), _, hnext, ⟨⟨hagrees.graph, hagrees.journal, hagrees.inFunction, hagrees.inLoop, hagrees.focus⟩, ?_⟩, rfl⟩
          obtain ⟨heof, -, hnil⟩ := Scanner.scan_of_rest_nil hempty
          obtain rfl := Except.ok.inj (heof.symm.trans htoken)
          refine .brink htail hahead ?_ hnil (isBefore_iff.2 ⟨_, rfl, by simp [Token.ofText]⟩) rfl hbehind
          obtain ⟨found, hfound, hkind⟩ := isBefore_iff.1 ((hfits htail).last hempty)
          rcases List.mem_cons.1 hkind with hkind | hkind
          · exact isAt_iff.2 ⟨found, hfound, by simp [hkind]⟩
          · exact absurd (isBefore_iff.2 ⟨found, hfound, hkind⟩) (hend htail)
        · have hjoin : Scanner.Joins cursor.scanner.rest setting.tail := by
            rcases eq_or_ne setting.tail [] with htail | htail
            · exact .inl htail
            · exact (hfits htail).lines.joins (fun hempty => hbrink ⟨htail, hempty⟩) _
          obtain ⟨htoken', hreports', hrest'⟩ := Scanner.scan_append hrest hjoin hreports htoken
          obtain ⟨line', hnext⟩ := next_eq heof' htoken' hreports'
          refine ⟨(), _, hnext, ⟨⟨hagrees.graph, hagrees.journal, hagrees.inFunction, hagrees.inLoop, hagrees.focus⟩, ?_⟩, rfl⟩
          refine .inside hahead rfl hrest' fun htail hbefore => ?_
          obtain ⟨-, found, rfl, hfound, -⟩ := Scanner.scan_isLines (hfits htail).lines
            (fun hempty => hbrink ⟨htail, hempty⟩) hreports htoken
          obtain ⟨_, hsome, hkind⟩ := isBefore_iff.1 hbefore
          exact hfound (Option.some.inj hsome ▸ List.mem_singleton.1 hkind)

instance : Tracks setting next next :=
  tracks_next

instance (message message' : Option String) : Tracks setting (expect kinds message) (expect kinds message') := by
  refine ⟨fun {cursor other} hmatches a after hfits h hinside => ?_⟩
  obtain ⟨hat, hnext⟩ := expect_quiet h hinside.quiet
  obtain ⟨b, later, hnext', hresult⟩ := tracks_next.run hmatches hfits hnext hinside
  refine ⟨b, later, ?_, hresult⟩
  unfold expect
  rw [check_bind, if_pos (hmatches.isAt kinds ▸ hat)]
  exact hnext'

theorem Skips.flows {wanted : Bool} {after : Cursor} (h : Skips wanted kinds cursor after) (hquiet : after.IsQuiet) :
    cursor.Onward after := by
  induction h with
  | stop => exact .refl _
  | step _ hnext _ ih =>
      have honward := ih hquiet
      exact (Flows.onward hnext (honward.quiet hquiet)).trans honward

/-- Skipping goes over the same tokens. -/
theorem Skips.tracks {wanted : Bool} {other after : Cursor} (h : Skips wanted kinds cursor after)
    (hmatches : setting.Matches cursor other) (hfits : setting.Fits cursor) (hinside : setting.Inside after) :
    ∃ later, Skips wanted kinds other later ∧ setting.Matches after later := by
  induction h generalizing other with
  | stop hat => exact ⟨other, .stop (hmatches.isAt kinds ▸ hat), hmatches⟩
  | step hat hnext hrest ih =>
      have hmiddle := hinside.of_onward (hrest.flows hinside.quiet)
      obtain ⟨_, later, hnext', hmatches', -⟩ := tracks_next.run hmatches hfits hnext hmiddle
      obtain ⟨last, hrest', hlast⟩ := ih hmatches'
        (fun htail => (Flows.onward hnext hmiddle.quiet).sound (hfits htail)) hinside
      exact ⟨last, .step (hmatches.isAt kinds ▸ hat) hnext' hrest', hlast⟩

instance : Tracks setting skipNewlines skipNewlines := by
  refine ⟨fun hmatches a after hfits h hinside => ?_⟩
  obtain ⟨later, hskips, hmatches'⟩ := (skipNewlines_eq_ok.1 h).tracks hmatches hfits hinside
  exact ⟨(), later, skipNewlines_eq_ok.2 hskips, hmatches', rfl⟩

instance : Tracks setting (skipUntil landmarks) (skipUntil landmarks) := by
  refine ⟨fun hmatches a after hfits h hinside => ?_⟩
  obtain ⟨later, hskips, hmatches'⟩ := (skipUntil_landmarks_eq_ok.1 h).tracks hmatches hfits hinside
  exact ⟨(), later, skipUntil_landmarks_eq_ok.2 hskips, hmatches', rfl⟩

instance : Tracks setting recover recover := by
  unfold recover
  infer_instance

instance {body body' : Parse (List α)} [Tracks setting body body'] [Candid body] :
    Tracks setting (repeatUntil kinds body count) (repeatUntil kinds body' count) := by
  induction count with
  | zero => exact inferInstanceAs (Tracks setting (fail _) _)
  | succ count ih =>
      unfold repeatUntil
      infer_instance

end Scriptlet.Parse

/-! ### Nodes -/

namespace Scriptlet.Draft

variable {α β : Type} [Mirror α] [Mirror β] {setting : Setting}
variable {value other content content' : Value} {rest rest' : List (Field × Value)} {field : Field}

/-- What the first action makes in one graph is made by the second one in another. -/
class Copies (setting : Setting) (x y : Action α) : Prop where
  run : ∀ {draft other a after}, setting.MirrorsGraph draft.graph other.graph → x draft = .ok a after →
    after.graph.nodes.size ≤ setting.limit → ∃ b later, y other = .ok b later ∧
      setting.MirrorsGraph after.graph later.graph ∧ later.journal = other.journal ∧ Mirror.rel setting a b

instance [IsFlat α] {x y : Action α} {f g : α → Action β} [hx : Copies setting x y] [hwidens : ∀ a, Widens (f a)]
    [hf : ∀ a, Copies setting (f a) (g a)] : Copies setting (x >>= f) (y >>= g) := by
  refine ⟨fun hgraph h hsize => ?_⟩
  obtain ⟨a, middle, hfirst, hrest⟩ := bind_eq_ok.1 h
  obtain ⟨b, later, hfirst', hgraph', hjournal, hsame⟩ := hx.run hgraph hfirst (((hwidens a).step hrest).2.trans hsize)
  obtain rfl := IsFlat.rel_iff.1 hsame
  obtain ⟨c, last, hrest', hgraph'', hjournal', hsame'⟩ := (hf a).run hgraph' hrest hsize
  exact ⟨c, last, bind_eq_ok.2 ⟨a, later, hfirst', hrest'⟩, hgraph'', hjournal'.trans hjournal, hsame'⟩

/-- Attributes that correspond. -/
class MirrorsFields (setting : Setting) (fields others : List (Field × Value)) : Prop where
  rel : List.Forall₂ setting.MirrorsEntry fields others

instance : MirrorsFields setting [] [] := ⟨.nil⟩
instance [h : MirrorsFields setting rest rest'] :
    MirrorsFields setting ((.line, value) :: rest) ((.line, other) :: rest') := ⟨.cons ⟨rfl, .inl rfl⟩ h.rel⟩
instance [h : MirrorsFields setting rest rest'] :
    MirrorsFields setting ((.parent, value) :: rest) ((.parent, other) :: rest') := ⟨.cons ⟨rfl, .inl rfl⟩ h.rel⟩
instance (priority := low) [hvalue : Mirrored setting value other] [h : MirrorsFields setting rest rest'] :
    MirrorsFields setting ((field, value) :: rest) ((field, other) :: rest') := ⟨.cons ⟨rfl, .inr hvalue.rel⟩ h.rel⟩

instance (kind : Kind) {fields others : List (Field × Value)} [hfields : MirrorsFields setting fields others] :
    Copies setting (addNode kind fields) (addNode kind others) := by
  refine ⟨fun {draft other a after} hgraph h hsize => ?_⟩
  obtain ⟨rfl, rfl⟩ := addNode_eq_ok.1 h
  refine ⟨_, _, addNode_eq_ok.2 ⟨rfl, rfl⟩, hgraph.add ⟨rfl, hfields.rel⟩, rfl, ?_⟩
  rw [hgraph.size]
  exact .node (Nat.lt_of_lt_of_le (by simp [Graph.add]) hsize)

section New

variable {name name' type type' block block' : Value} (line line' parent parent' : Value)

instance {items others : List Value} [h : Mirrored setting items others] :
    Copies setting (lengthOf (.list items)) (lengthOf (.list others)) := by
  refine ⟨fun {draft other a after} hgraph hrun _ => ?_⟩
  obtain ⟨rfl, rfl⟩ := lengthOf_list_eq_ok.1 hrun
  exact ⟨_, other, lengthOf_list_eq_ok.2 ⟨rfl, rfl⟩, hgraph, rfl, List.Forall₂.length_eq h.rel⟩

instance {parameters parameters' : List Value} [Mirrored setting name name'] [Mirrored setting type type']
    [Mirrored setting parameters parameters'] [Mirrored setting block block'] :
    Copies setting (newFunction name type (.list parameters) block line)
      (newFunction name' type' (.list parameters') block' line') := by
  unfold newFunction
  infer_instance

instance {items others : List Value} [Mirrored setting name name'] [Mirrored setting items others] :
    Copies setting (newCall name (.list items) parent line) (newCall name' (.list others) parent' line') := by
  unfold newCall
  infer_instance

end New

theorem copies_setField [h : Mirrored setting value other]
    (hcontent : field.isPlacing ∨ setting.Mirrors content content') :
    Copies setting (setField value field content) (setField other field content') := by
  refine ⟨fun hgraph hrun _ => ?_⟩
  obtain ⟨h⟩ := h
  cases h with
  | node =>
      obtain rfl := setField_node_eq_ok.1 hrun
      exact ⟨(), _, setField_node_eq_ok.2 rfl, hgraph.setField hcontent, rfl, rfl⟩
  | _ => simp [setField] at hrun

instance [Mirrored setting value other] :
    Copies setting (setField value .line content) (setField other .line content') :=
  copies_setField (.inl rfl)

instance [Mirrored setting value other] :
    Copies setting (setField value .parent content) (setField other .parent content') :=
  copies_setField (.inl rfl)

instance (priority := low) [Mirrored setting value other] [h : Mirrored setting content content'] :
    Copies setting (setField value field content) (setField other field content') :=
  copies_setField (.inr h.rel)

instance {kind : Kind} [h : Mirrored setting value other] : Copies setting (isKind kind value) (isKind kind other) := by
  refine ⟨fun {draft draft' a after} hgraph hrun _ => ?_⟩
  obtain ⟨rfl, rfl⟩ := isKind_eq_ok.1 hrun
  refine ⟨_, draft', isKind_eq_ok.2 ⟨rfl, rfl⟩, hgraph, rfl, ?_⟩
  obtain ⟨h⟩ := h
  cases h with
  | @node id => exact congrArg (· == kind) (hgraph.nodes id).kind.symm
  | _ => rfl

instance (value : Scalar) : Copies setting (display (.scalar value)) (display (.scalar value)) := by
  have hdisplay : ∀ draft : Draft, display (.scalar value) draft = .ok value.display draft := fun draft =>
    bind_eq_ok.2 ⟨draft.graph, draft, rfl, by
      rw [Graph.display, walkDepth, Graph.displayWithin]
      rfl⟩
  refine ⟨fun {draft draft' a after} hgraph hrun _ => ?_⟩
  obtain ⟨rfl, rfl⟩ := EStateM.Result.ok.inj ((hdisplay draft).symm.trans hrun)
  exact ⟨_, draft', hdisplay draft', hgraph, rfl, rfl⟩

end Scriptlet.Draft

namespace Scriptlet.Parse

variable {α β : Type} [Mirror α] [Mirror β] {setting : Setting} {count : Nat}

instance {x y : Draft.Action α} [h : Draft.Copies setting x y] [hwidens : Draft.Widens x] :
    Tracks setting (liftM x : Parse α) (liftM y) := by
  refine ⟨fun {cursor other} hmatches a after _ hlift hinside => ?_⟩
  obtain ⟨draft, hrun, rfl⟩ := lift_eq_ok.1 hlift
  obtain ⟨b, later, hrun', hgraph, hjournal, hsame⟩ := h.run hmatches.graph hrun hinside.size
  refine ⟨b, _, lift_eq_ok.2 ⟨later, hrun', rfl⟩, ⟨⟨hgraph, ?_, hmatches.inFunction, hmatches.inLoop, hmatches.focus⟩, ?_⟩, hsame⟩
  · exact hjournal.trans (hmatches.journal.trans (hwidens.step hrun).1.symm)
  · exact hmatches.window.of_eq rfl rfl rfl rfl rfl rfl

end Scriptlet.Parse
