import Scriptlet.Proofs.Grammar.Rereading

/-!
From a text to the text that follows.

Where the reading of a text comes to its end, the reading of the larger text stands at the first token of the
text that follows, behind the line breaks at its start.  A statement gets there in two ways: the line breaks
behind it are skipped, or those behind a branch of a conditional are, where a further branch is looked for.
-/

set_option synthInstance.maxSize 10000000

namespace Scriptlet

/-! ### Places -/

/-- Cursors at the same place of a text. -/
structure Cursor.SamePlace (cursor other : Cursor) : Prop where
  current : other.current = cursor.current
  ahead : other.ahead = cursor.ahead
  rest : other.scanner.rest = cursor.scanner.rest

/-- A cursor that differs from another one by its place only. -/
structure Cursor.Moved (cursor later : Cursor) : Prop where
  draft : later.toDraft = cursor.toDraft
  inFunction : later.inFunction = cursor.inFunction
  inLoop : later.inLoop = cursor.inLoop
  focus : later.focus = cursor.focus

namespace Cursor

variable {cursor other later : Cursor}

theorem SamePlace.isAt (h : cursor.SamePlace other) (kinds : List TokenKind) : other.isAt kinds = cursor.isAt kinds := by
  rw [Cursor.isAt, Cursor.currentKind?, h.current, Cursor.isAt, Cursor.currentKind?]

theorem Moved.refl (cursor : Cursor) : cursor.Moved cursor :=
  ⟨rfl, rfl, rfl, rfl⟩

theorem Moved.trans (h : cursor.Moved other) (h' : other.Moved later) : cursor.Moved later :=
  ⟨h'.draft.trans h.draft, h'.inFunction.trans h.inFunction, h'.inLoop.trans h.inLoop, h'.focus.trans h.focus⟩

end Cursor

namespace Setting

variable {setting : Setting} {cursor other after later : Cursor}

/-- What was made so far does not depend on the places. -/
theorem Agrees.moved (h : setting.Agrees cursor other) (hmoved : cursor.Moved after) (hmoved' : other.Moved later) :
    setting.Agrees after later where
  graph := by rw [hmoved.draft, hmoved'.draft]; exact h.graph
  journal := by rw [hmoved.draft, hmoved'.draft]; exact h.journal
  inFunction := by rw [hmoved.inFunction, hmoved'.inFunction]; exact h.inFunction
  inLoop := by rw [hmoved.inLoop, hmoved'.inLoop]; exact h.inLoop
  focus := by rw [hmoved.focus, hmoved'.focus]; exact h.focus

end Setting

namespace Parse

variable {cursor other after : Cursor}

theorem next_moved {u : Unit} (h : next cursor = .ok u after) (hquiet : after.IsQuiet) : cursor.Moved after := by
  by_cases heof : cursor.isAt [.eof] = true
  · rw [next_of_eof heof] at h
    obtain rfl := (EStateM.Result.ok.inj h).2
    exact .refl _
  · obtain ⟨token, line, -, -, rfl⟩ := next_quiet heof h hquiet
    exact ⟨rfl, rfl, rfl, rfl⟩

/-- The next token at one place is the next token at the same place. -/
theorem next_samePlace {u : Unit} (hplace : cursor.SamePlace other) (h : next cursor = .ok u after) (hquiet : after.IsQuiet) :
    ∃ later, next other = .ok () later ∧ after.SamePlace later ∧ other.Moved later := by
  by_cases heof : cursor.isAt [.eof] = true
  · rw [next_of_eof heof] at h
    obtain rfl := (EStateM.Result.ok.inj h).2
    exact ⟨other, next_of_eof (hplace.isAt _ ▸ heof), hplace, .refl _⟩
  · obtain ⟨token, line, htoken, hreports, rfl⟩ := next_quiet heof h hquiet
    obtain ⟨htoken', hreports', hrest'⟩ := Scanner.offers_of_scan hreports htoken other.scanner hplace.rest
    obtain ⟨line', hnext⟩ := next_eq (hplace.isAt _ ▸ heof) htoken' hreports'
    exact ⟨_, hnext, ⟨hplace.ahead, rfl, hrest'⟩, ⟨rfl, rfl, rfl, rfl⟩⟩

theorem Skips.moved {wanted : Bool} {kinds : List TokenKind} (h : Skips wanted kinds cursor after) (hquiet : after.IsQuiet) :
    cursor.Moved after := by
  induction h with
  | stop => exact .refl _
  | step _ hnext hrest ih => exact (next_moved hnext ((hrest.flows hquiet).quiet hquiet)).trans (ih hquiet)

theorem Skips.samePlace {wanted : Bool} {kinds : List TokenKind} (h : Skips wanted kinds cursor after)
    (hplace : cursor.SamePlace other) (hquiet : after.IsQuiet) :
    ∃ later, Skips wanted kinds other later ∧ after.SamePlace later ∧ other.Moved later := by
  induction h generalizing other with
  | stop hat => exact ⟨other, .stop (hplace.isAt kinds ▸ hat), hplace, .refl _⟩
  | step hat hnext hrest ih =>
      obtain ⟨middle, hnext', hmiddle, hmoved⟩ := next_samePlace hplace hnext ((hrest.flows hquiet).quiet hquiet)
      obtain ⟨later, hrest', hlater, hmoved'⟩ := ih hmiddle hquiet
      exact ⟨later, .step (hplace.isAt kinds ▸ hat) hnext' hrest', hlater, hmoved.trans hmoved'⟩

end Parse

/-! ### The seam -/

/-- The surroundings of a text in front of another one, with the place at which the other one begins behind the
line breaks at its start. -/
structure Seam extends Setting where
  first : Cursor
  landing : Cursor
  follows : tail ≠ []
  current : first.current = opening
  ahead : Scanner.Offers rest first.ahead first.scanner.rest
  skips : Parse.Skips true [.newline] first landing
  quiet : landing.IsQuiet
  /-- What follows does not go on with a statement of the text. -/
  opensStatement : ∀ kind ∈ [TokenKind.newline, .elifKey, .elseKey], ¬ landing.isAt [kind]

/-- The readings are at the same token of the text, or the first is at its end and the second at the start of
what follows. -/
inductive Seam.Joined (seam : Seam) (cursor other : Cursor) : Prop
  | inside (hmatches : seam.Matches cursor other) (hnot : ¬ cursor.isAt [.eof])
  | landed (hagrees : seam.Agrees cursor other) (heof : cursor.isAt [.eof]) (hplace : seam.landing.SamePlace other)

/-- A run that says nothing and makes no more nodes than the text. -/
structure Seam.Within (seam : Seam) (cursor : Cursor) : Prop where
  quiet : cursor.IsQuiet
  size : cursor.graph.nodes.size ≤ seam.limit

theorem Seam.Within.of_onward {seam : Seam} {before after : Cursor} (h : before.Onward after) (hwithin : seam.Within after) :
    seam.Within before :=
  ⟨h.quiet hwithin.quiet, h.size.trans hwithin.size⟩

namespace Parse

variable {α β : Type} [Mirror α] [Mirror β] {seam : Seam} {count : Nat}
variable {x y : Parse α} {cursor other : Cursor} {f g : α → Parse β}

/-- A run of the first action from one cursor is matched by a run of the second one from another. -/
def CrossesAt (seam : Seam) (cursor other : Cursor) (x y : Parse α) : Prop :=
  ∀ ⦃a after⦄, x cursor = .ok a after → seam.Within after →
    ∃ b later, y other = .ok b later ∧ seam.Joined after later ∧ Mirror.rel seam.toSetting a b

/-- An action of both readings from any two cursors that belong together. -/
class Crosses (seam : Seam) (x y : Parse α) : Prop where
  run : ∀ {cursor other}, seam.Joined cursor other → cursor.IsSound → CrossesAt seam cursor other x y

/-- An action of both readings that starts within the text. -/
class Leaves (seam : Seam) (x y : Parse α) : Prop where
  run : ∀ {cursor other}, seam.Matches cursor other → ¬ cursor.isAt [.eof] → cursor.IsSound → CrossesAt seam cursor other x y

instance (priority := low) [hx : Crosses seam x y] : Leaves seam x y :=
  ⟨fun hmatches hnot hsound => hx.run (.inside hmatches hnot) hsound⟩

/-- What stays before the end is read alike. -/
instance (priority := low) [hx : Tracks seam.toSetting x y] [hhalts : Halts x] : Leaves seam x y := by
  refine ⟨fun hmatches hnot hsound a after h hwithin => ?_⟩
  have hnot' := hhalts.not_eof h hwithin.quiet hsound hnot
  obtain ⟨b, later, hrun, hmatches', hsame⟩ := hx.run hmatches (fun _ => hsound) h ⟨hwithin.quiet, fun _ => hnot', hwithin.size⟩
  exact ⟨b, later, hrun, .inside hmatches' hnot', hsame⟩

theorem CrossesAt.of_settlesAt [hx : Tracks seam.toSetting x y] (hsettles : SettlesAt cursor x)
    (hmatches : seam.Matches cursor other) (hsound : cursor.IsSound) : CrossesAt seam cursor other x y := by
  intro a after h hwithin
  have hnot := hsettles.not_eof h hwithin.quiet hsound
  obtain ⟨b, later, hrun, hmatches', hsame⟩ := hx.run hmatches (fun _ => hsound) h ⟨hwithin.quiet, fun _ => hnot, hwithin.size⟩
  exact ⟨b, later, hrun, .inside hmatches' hnot, hsame⟩

theorem CrossesAt.get_bind {f g : Cursor → Parse α} (h : CrossesAt seam cursor other (f cursor) (g other)) :
    CrossesAt seam cursor other (get >>= f) (get >>= g) :=
  h

theorem Crosses.bind (hx : Crosses seam x y) (hflows : Flows x) (hflows' : ∀ a, Flows (f a))
    (hf : ∀ twin : Twin seam.toSetting α, Crosses seam (f twin.here) (g twin.there)) :
    Crosses seam (x >>= f) (y >>= g) := by
  refine ⟨fun hjoined hsound c after h hwithin => ?_⟩
  obtain ⟨a, middle, hfirst, hrest⟩ := bind_eq_ok.1 h
  have hmiddle := hwithin.of_onward ((hflows' a).onward hrest hwithin.quiet)
  obtain ⟨b, later, hfirst', hjoined', hsame⟩ := hx.run hjoined hsound hfirst hmiddle
  obtain ⟨d, last, hrest', hlast, hsame'⟩ :=
    (hf ⟨a, b, hsame⟩).run hjoined' ((hflows.onward hfirst hmiddle.quiet).sound hsound) hrest hwithin
  exact ⟨d, last, bind_eq_ok.2 ⟨b, later, hfirst', hrest'⟩, hlast, hsame'⟩

instance [hx : Crosses seam x y] [hflows : Flows x] [hflows' : ∀ a, Flows (f a)]
    [hf : ∀ twin : Twin seam.toSetting α, Crosses seam (f twin.here) (g twin.there)] :
    Crosses seam (x >>= f) (y >>= g) :=
  .bind hx hflows hflows' hf

/-- Behind an action that may leave the text, the rest has to cross the seam. -/
instance (priority := low) [hx : Leaves seam x y] [hflows : Flows x] [hflows' : ∀ a, Flows (f a)]
    [hf : ∀ twin : Twin seam.toSetting α, Crosses seam (f twin.here) (g twin.there)] :
    Leaves seam (x >>= f) (y >>= g) := by
  refine ⟨fun hmatches hnot hsound c after h hwithin => ?_⟩
  obtain ⟨a, middle, hfirst, hrest⟩ := bind_eq_ok.1 h
  have hmiddle := hwithin.of_onward ((hflows' a).onward hrest hwithin.quiet)
  obtain ⟨b, later, hfirst', hjoined', hsame⟩ := hx.run hmatches hnot hsound hfirst hmiddle
  obtain ⟨d, last, hrest', hlast, hsame'⟩ :=
    (hf ⟨a, b, hsame⟩).run hjoined' ((hflows.onward hfirst hmiddle.quiet).sound hsound) hrest hwithin
  exact ⟨d, last, bind_eq_ok.2 ⟨b, later, hfirst', hrest'⟩, hlast, hsame'⟩

/-- Behind an action that stays in the text, the rest starts there. -/
instance [hx : Tracks seam.toSetting x y] [hhalts : Halts x] [hflows : Flows x] [hflows' : ∀ a, Flows (f a)]
    [hf : ∀ twin : Twin seam.toSetting α, Leaves seam (f twin.here) (g twin.there)] :
    Leaves seam (x >>= f) (y >>= g) := by
  refine ⟨fun hmatches hnot hsound c after h hwithin => ?_⟩
  obtain ⟨a, middle, hfirst, hrest⟩ := bind_eq_ok.1 h
  have hmiddle := hwithin.of_onward ((hflows' a).onward hrest hwithin.quiet)
  have hnot' := hhalts.not_eof hfirst hmiddle.quiet hsound hnot
  obtain ⟨b, later, hfirst', hmatches', hsame⟩ :=
    hx.run hmatches (fun _ => hsound) hfirst ⟨hmiddle.quiet, fun _ => hnot', hmiddle.size⟩
  obtain ⟨d, last, hrest', hlast, hsame'⟩ :=
    (hf ⟨a, b, hsame⟩).run hmatches' hnot' ((hflows.onward hfirst hmiddle.quiet).sound hsound) hrest hwithin
  exact ⟨d, last, bind_eq_ok.2 ⟨b, later, hfirst', hrest'⟩, hlast, hsame'⟩

instance (priority := high) {f g : Value → Parse β} [hf : ∀ a b, Leaves seam (f a) (g b)] :
    Leaves seam (line >>= f) (line >>= g) :=
  ⟨fun hmatches hnot hsound => (hf _ _).run hmatches hnot hsound⟩

instance {a b : α} [h : Mirrored seam.toSetting a b] : Crosses seam (pure a : Parse α) (pure b) := by
  refine ⟨fun {cursor other} hjoined _ c after hrun _ => ?_⟩
  obtain ⟨rfl, rfl⟩ := pure_eq_ok.1 hrun
  exact ⟨b, other, rfl, hjoined, h.rel⟩

instance {x y : Draft.Action α} [h : Draft.Copies seam.toSetting x y] [hwidens : Draft.Widens x] :
    Crosses seam (liftM x : Parse α) (liftM y) := by
  refine ⟨fun {cursor other} hjoined hsound a after hlift hwithin => ?_⟩
  have htracks : Tracks seam.toSetting (liftM x : Parse α) (liftM y) := inferInstance
  cases hjoined with
  | inside hmatches hnot => exact Leaves.run hmatches hnot hsound hlift hwithin
  | landed hagrees heof hplace =>
      obtain ⟨draft, hrun, rfl⟩ := lift_eq_ok.1 hlift
      obtain ⟨b, later, hrun', hgraph, hjournal, hsame⟩ := h.run hagrees.graph hrun hwithin.size
      refine ⟨b, _, lift_eq_ok.2 ⟨later, hrun', rfl⟩, .landed ⟨hgraph, ?_, hagrees.inFunction, hagrees.inLoop, hagrees.focus⟩ heof ?_, hsame⟩
      · exact hjournal.trans (hagrees.journal.trans (hwidens.step hrun).1.symm)
      · exact ⟨hplace.current, hplace.ahead, hplace.rest⟩

/-! ### Over the last line break -/

/-- Behind the last line break of the text comes the first token of what follows. -/
theorem next_brink {after : Cursor} {u : Unit} (hmatches : seam.Matches cursor other) (hnot : ¬ cursor.isAt [.eof])
    (h : next cursor = .ok u after) (hquiet : after.IsQuiet) (heof : after.isAt [.eof]) :
    ∃ later, next other = .ok () later ∧ seam.first.SamePlace later ∧ other.Moved later := by
  obtain ⟨token, line, -, -, rfl⟩ := next_quiet hnot h hquiet
  have hnot' : ¬ other.isAt [.eof] := hmatches.isAt _ ▸ hnot
  cases hmatches.window with
  | inside _ _ _ hend => exact absurd heof (hend seam.follows)
  | brink _ _ _ _ _ hahead hrest =>
      obtain ⟨htoken, hreports, hrest'⟩ := seam.ahead other.scanner hrest
      obtain ⟨line', hnext⟩ := next_eq hnot' htoken hreports
      exact ⟨_, hnext, ⟨hahead.trans seam.current.symm, rfl, hrest'⟩, ⟨rfl, rfl, rfl, rfl⟩⟩

theorem Skips.crosses {after : Cursor} (h : Skips true [.newline] cursor after) (hjoined : seam.Joined cursor other)
    (hsound : cursor.IsSound) (hwithin : seam.Within after) :
    ∃ later, Skips true [.newline] other later ∧ seam.Joined after later := by
  induction h generalizing other with
  | stop hat =>
      refine ⟨other, .stop ?_, hjoined⟩
      cases hjoined with
      | inside hmatches => rwa [hmatches.isAt]
      | landed _ _ hplace => exact hplace.isAt _ ▸ seam.opensStatement _ (by simp)
  | @step cursor middle after hat hnext hrest ih =>
      have hmiddle := hwithin.of_onward (hrest.flows hwithin.quiet)
      cases hjoined with
      | landed _ heof => exact absurd heof (Cursor.not_isAt_eof rfl hat)
      | inside hmatches hnot =>
          have hat' : other.isAt [.newline] = true := hmatches.isAt _ ▸ hat
          by_cases heof : middle.isAt [.eof] = true
          · -- the first reading is at the end, the second goes on over the line breaks of what follows
            obtain ⟨start, hnext', hplace, hmoved⟩ := next_brink hmatches hnot hnext hmiddle.quiet heof
            obtain ⟨later, hskips, hplace', hmoved'⟩ := seam.skips.samePlace hplace seam.quiet
            cases hrest with
            | step hline => exact absurd heof (Cursor.not_isAt_eof rfl hline)
            | stop =>
                exact ⟨later, .step hat' hnext' hskips,
                  .landed (hmatches.toAgrees.moved (next_moved hnext hmiddle.quiet) (hmoved.trans hmoved')) heof hplace'⟩
          · have hinside : seam.Inside middle := ⟨hmiddle.quiet, fun _ => heof, hmiddle.size⟩
            obtain ⟨_, start, hnext', hmatches', -⟩ := tracks_next.run hmatches (fun _ => hsound) hnext hinside
            obtain ⟨later, hskips, hjoined'⟩ :=
              ih (.inside hmatches' heof) ((Flows.onward hnext hmiddle.quiet).sound hsound) hwithin
            exact ⟨later, .step hat' hnext' hskips, hjoined'⟩

instance : Crosses seam skipNewlines skipNewlines := by
  refine ⟨fun hjoined hsound u after h hwithin => ?_⟩
  obtain ⟨later, hskips, hjoined'⟩ := (skipNewlines_eq_ok.1 h).crosses hjoined hsound hwithin
  exact ⟨(), later, skipNewlines_eq_ok.2 hskips, hjoined', rfl⟩

theorem Crosses.check_bind {kind : TokenKind} (hkind : kind ∈ [TokenKind.elifKey, .elseKey]) {f g : Bool → Parse β}
    (hfound : Leaves seam (f true) (g true)) (hmissed : Crosses seam (f false) (g false)) :
    Crosses seam (check [kind] >>= f) (check [kind] >>= g) := by
  refine ⟨fun {cursor other} hjoined hsound a after h hwithin => ?_⟩
  rw [Parse.check_bind] at h ⊢
  cases hjoined with
  | inside hmatches hnot =>
      rw [hmatches.isAt]
      cases hat : cursor.isAt [kind] with
      | true =>
          rw [hat] at h
          exact hfound.run hmatches hnot hsound h hwithin
      | false =>
          rw [hat] at h
          exact hmissed.run (.inside hmatches hnot) hsound h hwithin
  | landed hagrees heof hplace =>
      have hat : cursor.isAt [kind] = false := by
        refine Bool.eq_false_iff.2 fun hat => Cursor.not_isAt_eof ?_ hat heof
        rcases List.mem_pair.1 hkind with rfl | rfl <;> rfl
      have hat' : other.isAt [kind] = false := by
        rw [hplace.isAt]
        exact Bool.eq_false_iff.2 (seam.opensStatement kind (List.mem_cons_of_mem _ hkind))
      rw [hat] at h
      rw [hat']
      exact hmissed.run (.landed hagrees heof hplace) hsound h hwithin

instance {f g : Bool → Parse β} [hfound : Leaves seam (f true) (g true)] [hmissed : Crosses seam (f false) (g false)] :
    Crosses seam (check [.elifKey] >>= f) (check [.elifKey] >>= g) :=
  .check_bind (by simp) hfound hmissed

instance {f g : Bool → Parse β} [hfound : Leaves seam (f true) (g true)] [hmissed : Crosses seam (f false) (g false)] :
    Crosses seam (check [.elseKey] >>= f) (check [.elseKey] >>= g) :=
  .check_bind (by simp) hfound hmissed

instance (priority := high) {x' y' : Parse α} [hy : Crosses seam y y'] :
    Crosses seam (if false = true then x else y) (if false = true then x' else y') := hy

instance (priority := high) {x' y' : Parse α} [hx : Leaves seam x x'] :
    Leaves seam (if true = true then x else y) (if true = true then x' else y') := hx

instance {block block' expression expression' : Parse Value} [Tracks seam.toSetting block block'] [Candid block] [Settles block]
    [Tracks seam.toSetting expression expression'] [Candid expression] [Settles expression] :
    Crosses seam (elifBranches expression block count) (elifBranches expression' block' count) := by
  induction count with
  | zero => exact ⟨fun _ _ _ _ h => absurd h fail_ne_ok⟩
  | succ count ih =>
      unfold elifBranches
      infer_instance

instance {block block' : Parse Value} [Tracks seam.toSetting block block'] [Candid block] [Settles block] :
    Leaves seam (conditional count block) (conditional count block') := by
  unfold conditional
  infer_instance

theorem CrossesAt.guarded {body body' : Parse Value} (hbody : CrossesAt seam cursor other body body')
    (hflows : Flows body) (hsound : cursor.IsSound) : CrossesAt seam cursor other (guarded body) (guarded body') := by
  intro node after h hwithin
  obtain ⟨middle, hrun, hskip⟩ := guarded_quiet h hwithin.quiet
  have hmiddle := hwithin.of_onward (Flows.onward hskip hwithin.quiet)
  obtain ⟨node', later, hrun', hjoined, hsame⟩ := hbody hrun hmiddle
  have hcrosses : Crosses seam skipNewlines skipNewlines := inferInstance
  obtain ⟨_, last, hskip', hlast, -⟩ :=
    hcrosses.run hjoined ((hflows.onward hrun hmiddle.quiet).sound hsound) hskip hwithin
  exact ⟨node', last, guarded_eq_ok hrun' hskip', hlast, hsame⟩

instance : Leaves seam (statementBody count (block count)) (statementBody count (block count)) := by
  have hnull : Tracks seam.toSetting (block count .null) (block count .null) :=
    (tracks_statement_block _ count).2 ⟨.null, .null, .scalar .null⟩
  refine ⟨fun {cursor other} hmatches hnot hsound => ?_⟩
  unfold statementBody functionDeclaration whileLoop forLoop counterUpdate setStatement namedStatement
  refine .get_bind ?_
  rw [hmatches.currentKind?]
  split
  case h_3 hkind => exact .of_settlesAt (settlesAt_returnStatement hkind) hmatches hsound
  case h_4 hkind => exact .of_settlesAt (settlesAt_breakStatement hkind) hmatches hsound
  all_goals exact Leaves.run hmatches hnot hsound

instance : Leaves seam (statement count) (statement count) := by
  cases count with
  | zero => exact ⟨fun _ _ _ _ _ h => absurd h fail_ne_ok⟩
  | succ count =>
      unfold statement
      exact ⟨fun hmatches hnot hsound => .guarded (Leaves.run hmatches hnot hsound) inferInstance hsound⟩

end Parse

end Scriptlet
