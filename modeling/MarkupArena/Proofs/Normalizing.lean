import MarkupArena.Proofs.Enumerating
import MarkupArena.Proofs.Obstacles

/-! How attributes are normalized, said of the pairs alone. What is omitted counts for nothing; what
is left is stored in its order if all names are well formed and distinct, and otherwise refused for
the first name that is malformed or was there before. -/
namespace MarkupArena

namespace AttributeValue

/-- Neither omitted nor a flag that is not set. -/
def IsGiven (value : AttributeValue) : Prop := value ≠ .omitted ∧ value ≠ .flag false

instance (value : AttributeValue) : Decidable value.IsGiven :=
  inferInstanceAs (Decidable (_ ∧ _))

/-- The text that stands for a value: a set flag is empty, and a number is written out. -/
inductive StandsFor : String → AttributeValue → Prop where
  | flag : StandsFor "" (.flag true)
  | text (value : String) : StandsFor value (.text value)
  | number (value : Number) : StandsFor value.text (.number value)

theorem text?_eq_some_iff {value : AttributeValue} {text : String} :
    value.text? = some text ↔ StandsFor text value := by
  constructor
  · intro h
    cases value with
    | omitted => simp [text?] at h
    | flag set =>
      cases set with
      | false => simp [text?] at h
      | true =>
        obtain rfl : "" = text := by simpa [text?] using h
        exact .flag
    | text value =>
      obtain rfl : value = text := by simpa [text?] using h
      exact .text value
    | number value =>
      obtain rfl : value.text = text := by simpa [text?] using h
      exact .number value
  · rintro (_ | _ | _) <;> simp [text?]

theorem text?_eq_none_iff {value : AttributeValue} : value.text? = none ↔ ¬ value.IsGiven := by
  cases value with
  | flag set => cases set <;> simp [text?, IsGiven]
  | _ => simp [text?, IsGiven]

end AttributeValue

namespace AttributeInput

/-- The pairs that are not omitted. -/
def given (pairs : List (String × AttributeValue)) : List (String × AttributeValue) :=
  pairs.filter fun pair => pair.2.IsGiven

/-- An attribute has the name of a pair and the text of its value. -/
def Keeps (pair : String × AttributeValue) (kept : Attribute) : Prop :=
  kept.name = pair.1 ∧ AttributeValue.StandsFor kept.value pair.2

/-- Names that are well formed and differ from one another. -/
def WellNamed (names : List String) : Prop :=
  (∀ name ∈ names, Text.isAttributeName name) ∧ names.Nodup

theorem given_cons_of_omitted {name : String} {value : AttributeValue} (h : value.text? = none)
    (rest : List (String × AttributeValue)) : given ((name, value) :: rest) = given rest := by
  simp [given, AttributeValue.text?_eq_none_iff.mp h]

theorem given_cons_of_text {name text : String} {value : AttributeValue}
    (h : value.text? = some text) (rest : List (String × AttributeValue)) :
    given ((name, value) :: rest) = (name, value) :: given rest := by
  have hgiven : value.IsGiven := by
    by_contra hnot
    rw [AttributeValue.text?_eq_none_iff.mpr hnot] at h
    cases h
  simp [given, hgiven]

/-- What is kept are the given pairs, one by one. -/
theorem forall₂_keeps_iff {pairs : List (String × AttributeValue)} {attributes : List Attribute} :
    List.Forall₂ Keeps (given pairs) attributes ↔ attributes = kept pairs := by
  induction pairs generalizing attributes with
  | nil => simp [given, kept]
  | cons pair rest ih =>
    obtain ⟨name, value⟩ := pair
    cases htext : value.text? with
    | none => rw [given_cons_of_omitted htext, kept_cons_of_omitted htext, ih]
    | some text =>
      rw [given_cons_of_text htext, kept_cons_of_text htext, List.forall₂_cons_left_iff]
      constructor
      · rintro ⟨⟨name', text'⟩, others, ⟨rfl, hstands⟩, hrest, rfl⟩
        obtain rfl : text' = text :=
          Option.some.inj ((AttributeValue.text?_eq_some_iff.mpr hstands).symm.trans htext)
        rw [ih.mp hrest]
      · rintro rfl
        exact ⟨_, _, ⟨rfl, AttributeValue.text?_eq_some_iff.mp htext⟩, ih.mpr rfl, rfl⟩

theorem names_of_forall₂ {pairs : List (String × AttributeValue)} {attributes : List Attribute}
    (h : List.Forall₂ Keeps pairs attributes) :
    attributes.map Attribute.name = pairs.map Prod.fst := by
  induction h with
  | nil => rfl
  | cons hkeep _ ih => simp [hkeep.1, ih]

theorem names_kept (pairs : List (String × AttributeValue)) :
    (kept pairs).map Attribute.name = (given pairs).map Prod.fst :=
  names_of_forall₂ (forall₂_keeps_iff.mpr rfl)

theorem fresh_iff_wellNamed {attributes : List Attribute} :
    Fresh [] attributes ↔ WellNamed (attributes.map Attribute.name) := by
  constructor
  · rintro ⟨hnames, -, hdistinct⟩
    exact ⟨by simpa using hnames, hdistinct⟩
  · rintro ⟨hnames, hdistinct⟩
    exact ⟨by simpa using hnames, by simp, hdistinct⟩

/-- Why a name is refused after others: it is malformed or, if it is not, one of them. -/
def Refused (tag : String) (before : List String) (name : String) (why : Rejection) : Prop :=
  (¬ Text.isAttributeName name ∧ why = .invalidAttributeName tag name) ∨
    Text.isAttributeName name ∧ name ∈ before ∧ why = .duplicateAttribute tag name

theorem clashes_iff {tag : String} {seen : List String} {stored : Attribute} {why : Rejection} :
    Clashes tag seen stored why ↔ Refused tag seen stored.name why := by
  constructor
  · rintro (hname | ⟨hname, hseen⟩)
    · exact .inl ⟨hname, rfl⟩
    · exact .inr ⟨hname, hseen, rfl⟩
  · rintro (⟨hname, rfl⟩ | ⟨hname, hseen, rfl⟩)
    · exact .malformed hname
    · exact .repeated hname hseen

/-- What comes of normalizing the attributes of some pairs. -/
structure Normalizes (tag : String) (pairs : List (String × AttributeValue))
    (outcome : Except Rejection (List Attribute)) : Prop where
  succeeds : (∃ attributes, outcome = .ok attributes) ↔ WellNamed ((given pairs).map Prod.fst)
  stores : ∀ attributes, outcome = .ok attributes → List.Forall₂ Keeps (given pairs) attributes
  fails : ∀ why, outcome = .error why ↔ ∃ before name value after,
    given pairs = before ++ (name, value) :: after ∧ WellNamed (before.map Prod.fst) ∧
      Refused tag (before.map Prod.fst) name why

/-- Given pairs are taken apart just as what is kept of them. -/
theorem kept_eq_append_iff {pairs : List (String × AttributeValue)} {tag : String}
    {why : Rejection} : (∃ before stored after, kept pairs = before ++ stored :: after ∧
      Fresh [] before ∧ Clashes tag (before.map Attribute.name) stored why) ↔
    ∃ before name value after, given pairs = before ++ (name, value) :: after ∧
      WellNamed (before.map Prod.fst) ∧ Refused tag (before.map Prod.fst) name why := by
  have hnames := names_kept pairs
  constructor
  · rintro ⟨before, stored, after, h, hfresh, hclash⟩
    rw [h, List.map_append, List.map_cons] at hnames
    obtain ⟨pairsBefore, others, hpairs, hbefore, hothers⟩ := List.map_eq_append_iff.mp hnames.symm
    obtain ⟨⟨name, value⟩, pairsAfter, rfl, hname, -⟩ := List.map_eq_cons_iff.mp hothers
    obtain rfl : name = stored.name := hname
    rw [fresh_iff_wellNamed, ← hbefore] at hfresh
    rw [clashes_iff, ← hbefore] at hclash
    exact ⟨pairsBefore, _, value, pairsAfter, hpairs, hfresh, hclash⟩
  · rintro ⟨before, name, value, after, h, hnamed, hwhy⟩
    rw [h, List.map_append, List.map_cons] at hnames
    obtain ⟨keptBefore, others, hkept, hbefore, hothers⟩ := List.map_eq_append_iff.mp hnames
    obtain ⟨stored, keptAfter, rfl, hname, -⟩ := List.map_eq_cons_iff.mp hothers
    obtain rfl : stored.name = name := hname
    rw [← hbefore] at hnamed hwhy
    exact ⟨keptBefore, stored, keptAfter, hkept, fresh_iff_wellNamed.mpr hnamed,
      clashes_iff.mpr hwhy⟩

theorem normalizes (tag : String) (input : AttributeInput) :
    Normalizes tag input.pairs (input.normalize tag) := by
  constructor
  case succeeds =>
    rw [← names_kept, ← fresh_iff_wellNamed]
    constructor
    · rintro ⟨attributes, h⟩
      exact (World.normalize_eq_ok_iff.mp h).2
    · intro h
      exact ⟨_, World.normalize_eq_ok_iff.mpr ⟨rfl, h⟩⟩
  case stores =>
    intro attributes h
    exact forall₂_keeps_iff.mpr (World.normalize_eq_ok_iff.mp h).1
  case fails =>
    intro why
    rw [World.normalize_eq_error_iff, kept_eq_append_iff]

theorem keep_given (tag : String) (seen : List String) (pairs : List (String × AttributeValue)) :
    keep tag seen (given pairs) = keep tag seen pairs := by
  induction pairs generalizing seen with
  | nil => rfl
  | cons pair rest ih =>
    obtain ⟨name, value⟩ := pair
    cases htext : value.text? with
    | none => rw [given_cons_of_omitted htext, keep_cons_of_omitted htext, ih]
    | some text =>
      rw [given_cons_of_text htext]
      simp only [keep, htext, ih]

/-- Names that differ leave nothing to refuse for being repeated. -/
theorem normalize_ne_duplicate {tag : String} {input : AttributeInput}
    (hnames : (input.pairs.map Prod.fst).Nodup) (other name : String) :
    input.normalize tag ≠ .error (.duplicateAttribute other name) := by
  intro h
  obtain ⟨before, name', value, after, hgiven, -, ⟨-, hwhy⟩ | ⟨-, hmem, -⟩⟩ :=
    ((normalizes tag input).fails _).mp h
  · cases hwhy
  · have hdistinct : ((given input.pairs).map Prod.fst).Nodup :=
      hnames.sublist (List.filter_sublist.map _)
    rw [hgiven, List.map_append, List.map_cons] at hdistinct
    exact (List.nodup_append.mp hdistinct).2.2 name' hmem name' List.mem_cons_self rfl

/-- Attributes are normalized by their given pairs alone: these are stored in order, or the first
name that is malformed or repeated is refused. Omitted pairs make no difference, and in a record,
which is enumerated in the order of its assignments, no name is repeated. -/
theorem normalize_outcome (tag : String) (input : AttributeInput) :
    Normalizes tag input.pairs (input.normalize tag) ∧
    input.normalize tag = (entries (given input.pairs)).normalize tag ∧
    ∀ assignments, Record.Enumerates assignments (record assignments).pairs ∧ ∀ other name,
      (record assignments).normalize tag ≠ .error (.duplicateAttribute other name) := by
  refine ⟨normalizes tag input, (keep_given tag [] input.pairs).symm, ?_⟩
  intro assignments
  have henumerates := Record.enumerates_ofAssignments assignments
  exact ⟨henumerates, normalize_ne_duplicate henumerates.names⟩

/-- Of several faults the first is named; a name that was omitted before is none. -/
example : (entries [("id", .omitted), ("id", .flag true), ("a b", .flag false), ("id", .text "x"),
    ("", .text "")]).normalize "p" = .error (.duplicateAttribute "p" "id") := by
  decide

end AttributeInput

end MarkupArena
