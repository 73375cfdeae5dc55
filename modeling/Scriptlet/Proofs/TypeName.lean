import Scriptlet.Proofs.Node

/-!
What texts name types: the leftmost maximal run of word characters that spells a type decides.
-/

namespace Scriptlet

namespace Text

namespace Place

variable {place later : Place} {text : List Char}

theorem pass?_eq_some : place.pass? text = some later ↔
    place.ahead = text ++ later.ahead ∧ later.before = text.reverse ++ place.before := by
  induction text generalizing place with
  | nil =>
      obtain ⟨before, ahead⟩ := place
      obtain ⟨before', ahead'⟩ := later
      simp [pass?, and_comm, eq_comm]
  | cons c text ih =>
      obtain ⟨before, _ | ⟨next, ahead⟩⟩ := place
      · simp [pass?]
      · unfold pass?
        split
        case isTrue hnext => simp [ih, hnext]
        case isFalse hnext => simp [Ne.symm hnext]

theorem since_eq (h : later.before = text.reverse ++ place.before) : later.since place = text := by
  simp [since, h]

/-- Between two boundaries a word is not cut off on either side. -/
theorem isBoundary_before {before word after : List Char} (hne : word ≠ []) (hparts : ∀ c ∈ word, isWordPart c) :
    (⟨before.reverse, word ++ after⟩ : Place).isBoundary ↔ before.getLast?.any isWordPart = false := by
  obtain ⟨c, rest, rfl⟩ := List.exists_cons_of_ne_nil hne
  have hc : isWordPart c := hparts c (by simp)
  simp [isBoundary, hc]

theorem isBoundary_after {before word after : List Char} (hne : word ≠ []) (hparts : ∀ c ∈ word, isWordPart c) :
    (⟨word.reverse ++ before, after⟩ : Place).isBoundary ↔ after.head?.any isWordPart = false := by
  obtain ⟨rest, c, rfl⟩ := (List.eq_nil_or_concat word).resolve_left hne
  have hc : isWordPart c := hparts c (by simp)
  simp [isBoundary, hc]

end Place

namespace Pattern

/-- The texts that a pattern without boundaries matches, with what its groups hold there. -/
def readings : Pattern → List (List Char × List (String × List Char))
  | boundary => []
  | literal text => [(text.toList, [])]
  | sequence first second => first.readings.flatMap fun (text, groups) =>
      second.readings.map fun (text', groups') => (text ++ text', groups ++ groups')
  | either first second => first.readings ++ second.readings
  | optional inner => inner.readings ++ [([], [])]
  | group name inner => inner.readings.map fun (text, groups) => (text, (name, text) :: groups)

def isPlain : Pattern → Bool
  | boundary => false
  | literal _ => true
  | sequence first second | either first second => first.isPlain && second.isPlain
  | optional inner | group _ inner => inner.isPlain

variable {pattern : Pattern} {found : Match} {before ahead : List Char}

theorem mem_ways {place : Place} (hplain : pattern.isPlain) : found ∈ pattern.ways place ↔
    ∃ text, (text, found.groups) ∈ pattern.readings ∧ place.pass? text = some found.place := by
  induction pattern generalizing place found with
  | boundary => simp [isPlain] at hplain
  | literal text =>
      obtain ⟨later, groups⟩ := found
      simp [ways, readings, eq_comm, and_comm]
  | sequence first second ih₁ ih₂ =>
      obtain ⟨later, groups⟩ := found
      simp only [isPlain, Bool.and_eq_true] at hplain
      simp only [ways, readings, List.mem_flatMap, List.mem_map, ih₁ hplain.1, ih₂ hplain.2, Match.mk.injEq,
        Prod.mk.injEq, Prod.exists]
      constructor
      · rintro ⟨middle, ⟨text, hfirst, hpass⟩, next, ⟨text', hsecond, hpass'⟩, rfl, rfl⟩
        rw [Place.pass?_eq_some] at hpass hpass'
        refine ⟨text ++ text', ⟨text, _, hfirst, text', _, hsecond, rfl, rfl⟩, Place.pass?_eq_some.2 ⟨?_, ?_⟩⟩
        · rw [hpass.1, hpass'.1, List.append_assoc]
        · rw [hpass'.2, hpass.2, List.reverse_append, List.append_assoc]
      · rintro ⟨_, ⟨text, groups₁, hfirst, text', groups₂, hsecond, rfl, rfl⟩, hpass⟩
        rw [Place.pass?_eq_some, List.append_assoc, List.reverse_append, List.append_assoc] at hpass
        refine ⟨⟨⟨text.reverse ++ place.before, text' ++ later.ahead⟩, groups₁⟩, ⟨text, hfirst, ?_⟩,
          ⟨later, groups₂⟩, ⟨text', hsecond, ?_⟩, rfl, rfl⟩
        · exact Place.pass?_eq_some.2 ⟨hpass.1, rfl⟩
        · exact Place.pass?_eq_some.2 ⟨rfl, hpass.2⟩
  | either first second ih₁ ih₂ =>
      simp only [isPlain, Bool.and_eq_true] at hplain
      simp only [ways, readings, List.mem_append, ih₁ hplain.1, ih₂ hplain.2, or_and_right, exists_or]
  | optional inner ih =>
      obtain ⟨later, groups⟩ := found
      simp [ways, readings, ih hplain, or_and_right, exists_or, Place.pass?, eq_comm, and_comm]
  | group name inner ih =>
      obtain ⟨later, groups⟩ := found
      simp only [ways, readings, List.mem_map, ih hplain, Match.mk.injEq, Prod.mk.injEq, Prod.exists]
      constructor
      · rintro ⟨middle, ⟨text, hinner, hpass⟩, rfl, rfl⟩
        rw [Place.since_eq (Place.pass?_eq_some.1 hpass).2]
        exact ⟨text, ⟨text, _, hinner, rfl, rfl⟩, hpass⟩
      · rintro ⟨_, ⟨text, inside, hinner, rfl, rfl⟩, hpass⟩
        refine ⟨⟨later, inside⟩, ⟨text, hinner, hpass⟩, rfl, ?_⟩
        rw [Place.since_eq (Place.pass?_eq_some.1 hpass).2]

/-- Where nothing is found no place has a match. -/
theorem ways_of_searchFrom_none (h : pattern.searchFrom before ahead = none) {passed rest : List Char}
    (hsplit : ahead = passed ++ rest) : pattern.ways ⟨passed.reverse ++ before, rest⟩ = [] := by
  induction passed generalizing before ahead with
  | nil =>
      obtain rfl : ahead = rest := hsplit
      cases ahead with
      | nil => simpa [searchFrom] using h
      | cons c ahead =>
          simp only [searchFrom, Option.orElse_eq_orElse, Option.orElse_eq_or, Option.or_eq_none_iff,
            List.head?_eq_none_iff] at h
          exact h.1
  | cons c passed ih =>
      obtain rfl : ahead = c :: (passed ++ rest) := hsplit
      simp only [searchFrom, Option.orElse_eq_orElse, Option.orElse_eq_or, Option.or_eq_none_iff] at h
      simpa using ih h.2 rfl

/-- What is found is a match at a place with no match further left. -/
theorem searchFrom_eq_some (h : pattern.searchFrom before ahead = some found) :
    ∃ passed rest, ahead = passed ++ rest ∧ found ∈ pattern.ways ⟨passed.reverse ++ before, rest⟩ ∧
      ∀ {earlier later}, ahead = earlier ++ later → earlier.length < passed.length →
        pattern.ways ⟨earlier.reverse ++ before, later⟩ = [] := by
  induction ahead generalizing before with
  | nil => exact ⟨[], [], rfl, List.mem_of_head? h, by simp⟩
  | cons c ahead ih =>
      unfold searchFrom at h
      cases hhere : pattern.ways ⟨before, c :: ahead⟩ with
      | cons first others =>
          rw [hhere] at h
          refine ⟨[], c :: ahead, rfl, ?_, by simp⟩
          obtain rfl : first = found := by simpa using h
          simp [hhere]
      | nil =>
          rw [hhere] at h
          obtain ⟨passed, rest, rfl, hfound, hearlier⟩ := @ih (c :: before) (by simpa using h)
          refine ⟨c :: passed, rest, rfl, by simpa using hfound, fun {earlier later} hsplit hlt => ?_⟩
          cases earlier with
          | nil => exact (show c :: (passed ++ rest) = later from hsplit) ▸ hhere
          | cons d earlier =>
              obtain ⟨rfl, hrest⟩ := List.cons.inj hsplit
              simpa using hearlier hrest (Nat.lt_of_succ_lt_succ hlt)

end Pattern

/-- A maximal run of word characters in a text. -/
structure Run (text : List Char) where
  before : List Char
  word : List Char
  after : List Char
  split : text = before ++ (word ++ after)
  nonempty : word ≠ []
  parts : ∀ c ∈ word, isWordPart c
  starts : before.getLast?.any isWordPart = false
  ends : after.head?.any isWordPart = false

/-- A maximal run is fixed by its start. -/
theorem Run.word_eq {text : List Char} {run other : Run text} (h : run.before.length = other.before.length) :
    run.word = other.word := by
  have htail : run.word ++ run.after = other.word ++ other.after :=
    (List.append_inj (run.split.symm.trans other.split) h).2
  have htake (run : Run text) : (run.word ++ run.after).takeWhile isWordPart = run.word := by
    rw [List.takeWhile_append_of_pos run.parts]
    cases hafter : run.after with
    | nil => simp
    | cons c after =>
        have hc : isWordPart c = false := by simpa [hafter] using run.ends
        simp [hc]
  rw [← htake run, htail, htake other]

end Text

namespace TypeName

open Text (Run Match Pattern Place isWordPart)

/-- The words that stand for each type. -/
def spellings : List (String × List String) :=
  [(integer, ["int", "inte", "integ", "intege", "integer"]), (double, ["double"]),
    (string, ["str", "stri", "strin", "string"]), (boolean, ["bool", "boole", "boolea", "boolean"])]

def Spells (word : List Char) (type : String) : Prop :=
  ∃ entry ∈ spellings, entry.1 = type ∧ String.ofList word ∈ entry.2

instance (word : List Char) (type : String) : Decidable (Spells word type) :=
  inferInstanceAs (Decidable (∃ entry ∈ spellings, _))

/-- The type of a text: that of the leftmost run that spells one, `invalid` if no run does. -/
def Names (text : List Char) (type : String) : Prop :=
  (∃ run : Run text, Spells run.word type ∧
    ∀ earlier : Run text, earlier.before.length < run.before.length → ∀ other, ¬ Spells earlier.word other) ∨
  type = invalid ∧ ∀ run : Run text, ∀ other, ¬ Spells run.word other

variable {text word : List Char} {type other : String} {found : Match}

theorem Spells.unique (h : Spells word type) (hother : Spells word other) : type = other := by
  obtain ⟨entry, hmem, rfl, hword⟩ := h
  obtain ⟨entry', hmem', rfl, hword'⟩ := hother
  have hapart : ∀ entry ∈ spellings, ∀ entry' ∈ spellings, entry.1 ≠ entry'.1 → ∀ w ∈ entry.2, w ∉ entry'.2 := by decide
  exact Classical.byContradiction fun hne => hapart _ hmem _ hmem' hne _ hword hword'

theorem Names.unique (h : Names text type) (hother : Names text other) : type = other := by
  rcases h with ⟨run, hspells, hleft⟩ | ⟨rfl, hnone⟩ <;> rcases hother with ⟨run', hspells', hleft'⟩ | ⟨rfl, hnone'⟩
  · have hge := Nat.le_of_not_lt fun hlt => hleft run' hlt _ hspells'
    have hle := Nat.le_of_not_lt fun hlt => hleft' run hlt _ hspells
    exact hspells.unique (Run.word_eq (Nat.le_antisymm hge hle) ▸ hspells')
  · exact absurd hspells (hnone' run _)
  · exact absurd hspells' (hnone run' _)
  · rfl

/-- What the pattern reads between its boundaries is a spelling of the type whose group it fills. -/
theorem spells_of_mem (h : (word, found.groups) ∈ spelling.readings) :
    word ≠ [] ∧ (∀ c ∈ word, isWordPart c) ∧ Spells word (ofMatch found) := by
  have hall : ∀ reading ∈ spelling.readings, reading.1 ≠ [] ∧ reading.1.all isWordPart ∧
      Spells reading.1 (ofMatch ⟨⟨[], []⟩, reading.2⟩) := by decide
  obtain ⟨hne, hparts, hspells⟩ := hall _ h
  exact ⟨hne, List.all_eq_true.1 hparts, hspells⟩

theorem Spells.exists_reading (h : Spells word type) : ∃ groups, (word, groups) ∈ spelling.readings := by
  have hall : ∀ entry ∈ spellings, ∀ spelled ∈ entry.2, spelled.toList ∈ spelling.readings.map Prod.fst := by decide
  obtain ⟨entry, hmem, -, hword⟩ := h
  simpa using hall entry hmem _ hword

theorem mem_ways_pattern {place : Place} : found ∈ pattern.ways place ↔
    place.isBoundary ∧ found.place.isBoundary ∧
      ∃ word, (word, found.groups) ∈ spelling.readings ∧ place.pass? word = some found.place := by
  have hwhole : found ∈ pattern.ways place ↔
      place.isBoundary ∧ found.place.isBoundary ∧ found ∈ spelling.ways place := by
    simp only [pattern, Pattern.ways, List.mem_flatMap, List.mem_map, List.mem_ite_nil_right, List.mem_singleton]
    constructor
    · rintro ⟨_, ⟨hstart, rfl⟩, _, ⟨middle, hmiddle, _, ⟨hend, rfl⟩, rfl⟩, rfl⟩
      simpa using ⟨hstart, hend, hmiddle⟩
    · rintro ⟨hstart, hend, hfound⟩
      exact ⟨_, ⟨hstart, rfl⟩, found, ⟨found, hfound, _, ⟨hend, rfl⟩, by simp⟩, rfl⟩
  rw [hwhole, Pattern.mem_ways (by decide)]

/-- A match is a whole run: there is a boundary at both ends of a word. -/
theorem run_of_mem_ways {before ahead : List Char} (hsplit : text = before ++ ahead)
    (h : found ∈ pattern.ways ⟨before.reverse, ahead⟩) :
    ∃ run : Run text, run.before = before ∧ Spells run.word (ofMatch found) := by
  obtain ⟨hstart, hend, word, hreading, hpass⟩ := mem_ways_pattern.1 h
  obtain ⟨⟨before', after⟩, groups⟩ := found
  obtain ⟨rfl, rfl⟩ : ahead = word ++ after ∧ before' = word.reverse ++ before.reverse :=
    Place.pass?_eq_some.1 hpass
  obtain ⟨hne, hparts, hspells⟩ := spells_of_mem hreading
  exact ⟨⟨before, word, after, hsplit, hne, hparts, (Place.isBoundary_before hne hparts).1 hstart,
    (Place.isBoundary_after hne hparts).1 hend⟩, rfl, hspells⟩

theorem ways_ne_nil (run : Run text) (h : Spells run.word type) :
    pattern.ways ⟨run.before.reverse, run.word ++ run.after⟩ ≠ [] := by
  obtain ⟨groups, hreading⟩ := h.exists_reading
  refine List.ne_nil_of_mem (a := ⟨⟨run.word.reverse ++ run.before.reverse, run.after⟩, groups⟩) ?_
  exact mem_ways_pattern.2 ⟨(Place.isBoundary_before run.nonempty run.parts).2 run.starts,
    (Place.isBoundary_after run.nonempty run.parts).2 run.ends, run.word, hreading,
    Place.pass?_eq_some.2 ⟨rfl, rfl⟩⟩

theorem names_expand (s : String) : Names s.toList (expand s) := by
  unfold expand Pattern.search
  cases hsearch : pattern.searchFrom [] s.toList with
  | none =>
      refine .inr ⟨rfl, fun run other hspells => ways_ne_nil run hspells ?_⟩
      simpa using Pattern.ways_of_searchFrom_none hsearch run.split
  | some found =>
      obtain ⟨passed, rest, hsplit, hfound, hearlier⟩ := Pattern.searchFrom_eq_some hsearch
      rw [List.append_nil] at hfound
      obtain ⟨run, rfl, hspells⟩ := run_of_mem_ways hsplit hfound
      refine .inl ⟨run, hspells, fun earlier hlt other hother => ways_ne_nil earlier hother ?_⟩
      simpa using hearlier earlier.split hlt

end TypeName

/-- The type that a text names is the one of its leftmost run that spells a type, for the grammar and for the
analysis; it is `invalid` if there is no such run. -/
theorem typeNamed_of_leftmost_run (s : String) :
    ∃ type, (∀ other, TypeName.Names s.toList other ↔ other = type) ∧
      (∀ cursor, Parse.typeNamed (.text s) cursor = .ok type cursor) ∧
      ∀ (operand : Value) (analysis : Analysis), analysis.graph.fieldOf? operand .value = some (.text s) →
        Check.typeNamed operand analysis = .ok type analysis := by
  have hnames := TypeName.names_expand s
  refine ⟨TypeName.expand s, fun other => ⟨fun h => h.unique hnames, fun h => h ▸ hnames⟩, fun cursor => rfl,
    fun operand analysis hvalue => ?_⟩
  exact bind_eq_ok.2 ⟨_, _, lift_getField_eq_ok.2 ⟨hvalue, rfl⟩, rfl⟩

/-- A run that starts with a digit is passed over as a whole, and an abbreviation stands for its type. -/
theorem typeNamed_of_abbreviation :
    let analysis : Analysis := { graph := { nodes := #[⟨.string, [(.value, .text "2int strin int")]⟩] } }
    analysis.graph.fieldOf? (.node 0) .value = some (.text "2int strin int") ∧
      TypeName.Names "2int strin int".toList TypeName.string ∧
      Check.typeNamed (.node 0) analysis = .ok TypeName.string analysis := by
  intro analysis
  obtain ⟨type, hnames, hparse, hcheck⟩ := typeNamed_of_leftmost_run "2int strin int"
  have hexpand : TypeName.expand "2int strin int" = TypeName.string := by decide +kernel
  obtain rfl : TypeName.string = type := hexpand ▸ (EStateM.Result.ok.inj (hparse default)).1
  exact ⟨rfl, (hnames _).2 rfl, hcheck _ _ rfl⟩

end Scriptlet
