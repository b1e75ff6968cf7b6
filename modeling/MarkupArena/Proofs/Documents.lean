import MarkupArena.Proofs.ContentModel
import Mathlib.Data.List.Nodup

/-! Which documents describe a schema. The conditions are on the document alone; every reader
accepts exactly under its condition, and finds an invalid record otherwise. Children that no entry
defines are looked for only where all entries are in order, and are the one other fault. -/
namespace MarkupArena

namespace Json

/-- A member that is a text, and not an empty one. -/
def HasText (value : Json) (key : String) : Prop :=
  ∃ text, text ≠ "" ∧ value.member? key = some (.string text)

def HasBool (value : Json) (key : String) : Prop := ∃ b, value.member? key = some (.bool b)

/-- A member that lists texts, or none. -/
def MayList (value : Json) (key : String) : Prop := ∃ list, value.Lists key list

/-- A text is listed in a member. -/
def ListsText (value : Json) (key name : String) : Prop :=
  ∃ list, value.Lists key list ∧ name ∈ list

theorem Lists.unique {value : Json} {key : String} {list other : List String}
    (h : value.Lists key list) (h' : value.Lists key other) : list = other := by
  rcases h with ⟨habsent, rfl⟩ | hlist <;> rcases h' with ⟨habsent', rfl⟩ | hother
  · rfl
  · cases habsent.symm.trans hother
  · cases hlist.symm.trans habsent'
  · have hsame := Json.array.inj (Option.some.inj (hlist.symm.trans hother))
    exact List.map_injective_iff.mpr (fun _ _ => Json.string.inj) hsame

/-- Only objects have members. -/
theorem exists_of_member? {value member : Json} {key : String}
    (h : value.member? key = some member) : ∃ members, value = .object members := by
  cases value with
  | object members => exact ⟨members, rfl⟩
  | _ => cases h

theorem member?_ne_some {value member : Json} {key : String}
    (hother : ∀ members, value ≠ .object members) : value.member? key ≠ some member := by
  intro h
  obtain ⟨members, hobject⟩ := exists_of_member? h
  exact hother members hobject

end Json

namespace Document

/-- An attribute type: one of four names, an identifier, or a list of values. -/
inductive DescribesType : Json → Prop where
  | named {name : String} (known : name ∈ ["bool", "string", "integer", "float"]) :
      DescribesType (.string name)
  | identifier {type : Json} {name : String}
      (given : type.member? "identifier" = some (.string name)) : DescribesType type
  | enumerable {type : Json} {values : List String}
      (given : type.member? "enumerable" = some (.array (values.map Json.string))) :
      DescribesType type

structure DescribesAttribute (value : Json) : Prop where
  name : value.HasText "name"
  type : ∃ type, value.member? "type" = some type ∧ DescribesType type

/-- A list of attributes, or none. -/
def MayDescribeAttributes (value : Json) : Prop :=
  value.member? "attributes" = none ∨
    ∃ items, value.member? "attributes" = some (.array items) ∧
      ∀ item ∈ items, DescribesAttribute item

/-- The value of an entry: an object, as only objects have members. -/
structure DescribesEntry (value : Json) : Prop where
  tagName : value.HasText "tagName"
  structName : value.HasText "structName"
  hasGlobalAttributes : value.HasBool "hasGlobalAttributes"
  hasClosingTag : value.HasBool "hasClosingTag"
  attributes : MayDescribeAttributes value
  contentCategories : value.MayList "contentCategories"
  permittedContent : value.MayList "permittedContent"
  excludedContent : value.MayList "excludedContent"
  permittedChildElements : value.MayList "permittedChildElements"

/-- The values of a document's entries, all in order and no two with the same tag. -/
structure DescribesTags (document : Json) (items : List Json) : Prop where
  elements : document.member? "elements" = some (.array items)
  entries : ∀ item ∈ items, DescribesEntry item
  distinct : (items.map (·.member? "tagName")).Nodup

/-- Every child that is listed is text, or the structure name of some entry. -/
def KnowsChildren (items : List Json) : Prop :=
  ∀ item ∈ items, ∀ name, item.ListsText "permittedChildElements" name →
    name = Entry.textStruct ∨ ∃ other ∈ items, other.member? "structName" = some (.string name)

structure WellFormed (document : Json) : Prop where
  tags : ∃ items, DescribesTags document items ∧ KnowsChildren items
  globalAttributes : document.MayList "globalAttributes"
  eventHandlerAttributes : document.MayList "eventHandlerAttributes"
  globalAttributePrefixes : document.MayList "globalAttributePrefixes"

/-- All entries are in order, but one of them lists a child that none defines. -/
def MissesChild (document : Json) : Prop :=
  ∃ items, DescribesTags document items ∧ ¬ KnowsChildren items

/-- A reader accepts exactly under a condition, and finds an invalid record otherwise. -/
structure Requires {α : Type} (x : Except LoadFault α) (P : Prop) : Prop where
  accepts : (∃ a, x = .ok a) ↔ P
  rejects : ∀ fault, x = .error fault → fault.code = "INVALID_SCHEMA_RECORD"

section
variable {α β : Type} {P Q : Prop} {x : Except LoadFault α}

theorem requires_ok (a : α) (hp : P) : Requires (.ok a) P where
  accepts := iff_of_true ⟨a, rfl⟩ hp
  rejects := nofun

theorem requires_fail {flaw : Flaw} {tag : Option String}
    (hcode : LoadFault.code ⟨flaw, tag⟩ = "INVALID_SCHEMA_RECORD") (hp : ¬ P) :
    Requires (fail flaw tag : Except LoadFault α) P where
  accepts := iff_of_false nofun hp
  rejects _ h := Except.error.inj h ▸ hcode

theorem Requires.congr (hx : Requires x P) (h : P ↔ Q) : Requires x Q :=
  ⟨hx.accepts.trans h, hx.rejects⟩

theorem Requires.bind {f : α → Except LoadFault β} (hx : Requires x P)
    (hf : ∀ a, x = .ok a → Requires (f a) Q) : Requires (x >>= f) (P ∧ Q) where
  accepts := by
    constructor
    · rintro ⟨b, hb⟩
      obtain ⟨a, ha, hb⟩ := bind_eq_ok_iff.mp hb
      exact ⟨hx.accepts.mp ⟨a, ha⟩, (hf a ha).accepts.mp ⟨b, hb⟩⟩
    · rintro ⟨hp, hq⟩
      obtain ⟨a, ha⟩ := hx.accepts.mpr hp
      obtain ⟨b, hb⟩ := (hf a ha).accepts.mpr hq
      exact ⟨b, bind_eq_ok_iff.mpr ⟨a, ha, hb⟩⟩
  rejects fault h := by
    rcases bind_eq_error_iff.mp h with h | ⟨a, ha, h⟩
    · exact hx.rejects fault h
    · exact (hf a ha).rejects fault h

theorem Requires.map (hx : Requires x P) (f : α → β) : Requires (x.map f) P where
  accepts := by
    rw [← hx.accepts]
    cases x <;> simp [Except.map]
  rejects fault h := by
    cases x with
    | error other => exact hx.rejects fault (congrArg _ (Except.error.inj h))
    | ok a => cases h

theorem Requires.mapM {f : α → Except LoadFault β} {R : α → Prop} (hf : ∀ a, Requires (f a) (R a))
    (l : List α) : Requires (l.mapM f) (∀ a ∈ l, R a) where
  accepts := mapM_succeeds_iff.trans (forall₂_congr fun a _ => (hf a).accepts)
  rejects fault h := by
    obtain ⟨a, -, ha⟩ := mapM_eq_error h
    exact (hf a).rejects fault ha

end

section
variable {value : Json} {key : String} {tag : Option String}

theorem requires_readText : Requires (readText value key tag) (value.HasText key) := by
  unfold readText Json.HasText
  split
  next text htext =>
    rw [htext]
    split
    next hempty => exact requires_fail rfl (by simp [hempty])
    next hempty => exact requires_ok text (by simp [hempty])
  next hother =>
    refine requires_fail rfl ?_
    rintro ⟨text, -, htext⟩
    exact hother text htext

theorem requires_readBool : Requires (readBool value key tag) (value.HasBool key) := by
  unfold readBool Json.HasBool
  split
  next b hb => exact requires_ok b ⟨b, hb⟩
  next hother =>
    refine requires_fail rfl ?_
    rintro ⟨b, hb⟩
    exact hother b hb

theorem strings?_map (list : List String) : strings? (list.map Json.string) = some list := by
  induction list with
  | nil => rfl
  | cons text rest ih => simp [strings?, ih]

theorem requires_readStrings : Requires (readStrings value key tag) (value.MayList key) where
  accepts := by
    constructor
    · rintro ⟨list, h⟩
      exact ⟨list, readStrings_ok h⟩
    · rintro ⟨list, ⟨habsent, rfl⟩ | hlist⟩
      · exact ⟨[], by simp [readStrings, habsent]⟩
      · exact ⟨list, by simp [readStrings, hlist, strings?_map]⟩
  rejects fault h := by
    unfold readStrings at h
    split at h
    · cases h
    · split at h
      · cases h
      · exact Except.error.inj h ▸ rfl
    · exact Except.error.inj h ▸ rfl

/-- A list that is there is read as one of texts. -/
theorem mayList_iff {member : Json} (hmember : value.member? key = some member) :
    value.MayList key ↔
      ∃ list : List String, value.member? key = some (.array (list.map Json.string)) := by
  simp [Json.MayList, Json.Lists, hmember]

theorem requires_readType (type : Option Json) :
    Requires (readType type tag) (∃ given, type = some given ∧ DescribesType given) := by
  unfold readType
  split
  · exact requires_ok _ ⟨_, rfl, .named (by simp)⟩
  · exact requires_ok _ ⟨_, rfl, .named (by simp)⟩
  · exact requires_ok _ ⟨_, rfl, .named (by simp)⟩
  · exact requires_ok _ ⟨_, rfl, .named (by simp)⟩
  next members =>
    split
    next name hname => exact requires_ok _ ⟨_, rfl, .identifier hname⟩
    -- A list of values is asked for only where the identifier is no text.
    next member hmember hother =>
      refine (requires_readStrings.map _).congr ((mayList_iff hmember).trans ?_)
      constructor
      · rintro ⟨values, hvalues⟩
        exact ⟨_, rfl, .enumerable hvalues⟩
      · rintro ⟨given, hgiven, hdescribes⟩
        obtain rfl := Option.some.inj hgiven
        cases hdescribes with
        | identifier hname => exact absurd hname (hother _)
        | enumerable hvalues => exact ⟨_, hvalues⟩
    next habsent hother =>
      refine requires_fail rfl ?_
      rintro ⟨given, hgiven, hdescribes⟩
      obtain rfl := Option.some.inj hgiven
      cases hdescribes with
      | identifier hname => exact absurd hname (hother _)
      | enumerable hvalues => cases habsent.symm.trans hvalues
  next hbool hstring hinteger hfloat hobject =>
    refine requires_fail rfl ?_
    rintro ⟨given, rfl, hdescribes⟩
    have hother : ∀ members, given ≠ .object members := fun members h =>
      hobject members (congrArg some h)
    cases hdescribes with
    | named hknown => simp_all
    | identifier hname => exact Json.member?_ne_some hother hname
    | enumerable hvalues => exact Json.member?_ne_some hother hvalues

theorem requires_readAttribute (item : Json) :
    Requires (readAttribute tag item) (DescribesAttribute item) := by
  unfold readAttribute
  split
  next members =>
    refine (requires_readText.bind fun _ _ => (requires_readType _).bind fun _ _ =>
      requires_ok _ True.intro).congr ?_
    constructor
    · rintro ⟨hname, htype, -⟩
      exact ⟨hname, htype⟩
    · rintro ⟨hname, htype⟩
      exact ⟨hname, htype, True.intro⟩
  next hother =>
    refine requires_fail rfl fun hdescribes => ?_
    obtain ⟨name, -, hname⟩ := hdescribes.name
    exact Json.member?_ne_some hother hname

theorem requires_readAttributes :
    Requires (readAttributes value tag) (MayDescribeAttributes value) := by
  unfold readAttributes MayDescribeAttributes
  split
  next habsent => exact requires_ok _ (.inl habsent)
  next items hitems =>
    refine (Requires.mapM requires_readAttribute items).congr ?_
    simp [hitems]
  next member hother hmember =>
    refine requires_fail rfl ?_
    rintro (habsent | ⟨items, hitems, -⟩)
    · cases habsent.symm.trans hmember
    · exact hother items (Option.some.inj (hmember.symm.trans hitems))

theorem requires_readEntry (item : Json) : Requires (readEntry item) (DescribesEntry item) := by
  unfold readEntry
  split
  next members =>
    refine (requires_readText.bind fun _ _ => requires_readText.bind fun _ _ =>
      requires_readBool.bind fun _ _ => requires_readBool.bind fun _ _ =>
      requires_readAttributes.bind fun _ _ => requires_readStrings.bind fun _ _ =>
      requires_readStrings.bind fun _ _ => requires_readStrings.bind fun _ _ =>
      requires_readStrings.bind fun _ _ => requires_ok _ True.intro).congr ?_
    constructor
    · rintro ⟨htag, hstruct, hglobal, hclosing, hattributes, hcategories, hpermitted, hexcluded,
        hchildren, -⟩
      exact ⟨htag, hstruct, hglobal, hclosing, hattributes, hcategories, hpermitted, hexcluded,
        hchildren⟩
    · rintro ⟨htag, hstruct, hglobal, hclosing, hattributes, hcategories, hpermitted, hexcluded,
        hchildren⟩
      exact ⟨htag, hstruct, hglobal, hclosing, hattributes, hcategories, hpermitted, hexcluded,
        hchildren, True.intro⟩
  next hother =>
    refine requires_fail rfl fun hdescribes => ?_
    obtain ⟨name, -, hname⟩ := hdescribes.tagName
    exact Json.member?_ne_some hother hname

theorem requires_checkDistinct (seen : List String) (entries : List Entry) :
    Requires (checkDistinct seen entries)
      ((entries.map Entry.tagName).Nodup ∧ ∀ entry ∈ entries, entry.tagName ∉ seen) where
  accepts := by
    rw [← checkDistinct_eq_ok_iff]
    exact ⟨fun ⟨_, h⟩ => h, fun h => ⟨(), h⟩⟩
  rejects fault h := by
    induction entries generalizing seen with
    | nil => cases h
    | cons entry rest ih =>
      rw [checkDistinct] at h
      split at h
      · exact Except.error.inj h ▸ rfl
      · exact ih _ h

end

/-! What is read of a document, one part after the other. -/

/-- The entries of a document, if they are in order and no two have the same tag. -/
def readEntries (document : Json) : Except LoadFault (List Entry) := do
  let .object _ := document | fail .notObject none
  let some (.array items) := document.member? "elements" | fail .elementsNotArray none
  let entries ← items.mapM readEntry
  checkDistinct [] entries
  return entries

/-- The schema with given tags, and with what a document says beside its entries. -/
def readGlobals (document : Json) (tags : List TagInfo) : Except LoadFault Schema := do
  let globals ← readStrings document "globalAttributes" none
  let handlers ← readStrings document "eventHandlerAttributes" none
  let leads ← readStrings document "globalAttributePrefixes" none
  return ⟨readVersion document, tags, globals ++ handlers, leads⟩

theorem readSchema_eq (document : Json) : readSchema document = (do
    let entries ← readEntries document
    let tags ← entries.mapM (resolveEntry entries)
    readGlobals document tags) := by
  unfold readSchema readEntries
  cases document with
  | object members =>
    cases hitems : (Json.object members).member? "elements" with
    | none => rfl
    | some value =>
      cases value with
      | array items => simp only [bind_assoc, pure_bind, readGlobals]
      | _ => rfl
  | _ => rfl

/-- A document with a list of entries, whatever they are. -/
theorem readEntries_eq {document : Json} {items : List Json}
    (hitems : document.member? "elements" = some (.array items)) : readEntries document = (do
      let entries ← items.mapM readEntry
      checkDistinct [] entries
      return entries) := by
  obtain ⟨members, rfl⟩ := Json.exists_of_member? hitems
  simp only [readEntries, hitems]

theorem tagNames_of_declaredBy {items : List Json} {entries : List Entry}
    (h : List.Forall₂ (fun value (entry : Entry) => entry.DeclaredBy value) items entries) :
    items.map (·.member? "tagName") =
      (entries.map Entry.tagName).map fun name => some (.string name) := by
  induction h with
  | nil => rfl
  | cons hfirst _ ih => simp only [List.map_cons, hfirst.tagName, ih]

theorem distinct_iff_of_declaredBy {items : List Json} {entries : List Entry}
    (h : List.Forall₂ (fun value (entry : Entry) => entry.DeclaredBy value) items entries) :
    (items.map (·.member? "tagName")).Nodup ↔ (entries.map Entry.tagName).Nodup := by
  rw [tagNames_of_declaredBy h]
  apply List.nodup_map_iff
  intro name other hsame
  exact Json.string.inj (Option.some.inj hsame)

theorem requires_readEntries (document : Json) :
    Requires (readEntries document) (∃ items, DescribesTags document items) := by
  by_cases hlist : ∃ items, document.member? "elements" = some (.array items)
  · obtain ⟨items, hitems⟩ := hlist
    rw [readEntries_eq hitems]
    have hrest : ∀ entries, items.mapM readEntry = .ok entries →
        Requires (checkDistinct [] entries >>= fun _ => pure entries)
          (items.map (·.member? "tagName")).Nodup := by
      intro entries hentries
      have hdeclared := (exists_of_mapM hentries).imp fun _ _ => readEntry_ok
      refine ((requires_checkDistinct [] entries).bind fun _ _ =>
        requires_ok entries True.intro).congr ?_
      simp [distinct_iff_of_declaredBy hdeclared]
    refine ((Requires.mapM requires_readEntry items).bind hrest).congr ?_
    constructor
    · rintro ⟨hdescribes, hdistinct⟩
      exact ⟨items, hitems, hdescribes, hdistinct⟩
    · rintro ⟨other, hother, hdescribes, hdistinct⟩
      obtain rfl : other = items := by simpa [hother] using hitems
      exact ⟨hdescribes, hdistinct⟩
  · have hnone : ¬ ∃ items, DescribesTags document items :=
      fun ⟨items, hdescribes⟩ => hlist ⟨items, hdescribes.elements⟩
    unfold readEntries
    split
    · split
      next items hitems => exact absurd ⟨items, hitems⟩ hlist
      next => exact requires_fail rfl hnone
    · exact requires_fail rfl hnone

/-- Entries that were read are those of the values in the document. -/
theorem readEntries_ok {document : Json} {entries : List Entry}
    (h : readEntries document = .ok entries) : ∃ items, DescribesTags document items ∧
      List.Forall₂ (fun value (entry : Entry) => entry.DeclaredBy value) items entries := by
  obtain ⟨items, hdescribes⟩ := (requires_readEntries document).accepts.mp ⟨entries, h⟩
  rw [readEntries_eq hdescribes.elements] at h
  obtain ⟨read, hread, h⟩ := bind_eq_ok_iff.mp h
  obtain ⟨_, -, h⟩ := bind_eq_ok_iff.mp h
  obtain rfl := Except.ok.inj h
  exact ⟨items, hdescribes, (exists_of_mapM hread).imp fun _ _ => readEntry_ok⟩

/-- Every name in a list stands for text, or is the structure name of some entry. -/
def KnowsAll (entries : List Entry) (names : List String) : Prop :=
  ∀ name ∈ names, name = Entry.textStruct ∨ ∃ other ∈ entries, other.structName = name

theorem knowsChildren_iff {items : List Json} {entries : List Entry}
    (h : List.Forall₂ (fun value (entry : Entry) => entry.DeclaredBy value) items entries) :
    KnowsChildren items ↔ ∀ entry ∈ entries, KnowsAll entries entry.permittedChildElements := by
  have hback : ∀ entry ∈ entries, ∃ item ∈ items, entry.DeclaredBy item :=
    fun _ hentry => exists_of_forall₂_mem h.flip hentry
  have hstruct : ∀ name, (∃ other ∈ items, other.member? "structName" = some (.string name)) ↔
      ∃ other ∈ entries, other.structName = name := by
    intro name
    constructor
    · rintro ⟨item, hitem, hname⟩
      obtain ⟨entry, hentry, hdeclared⟩ := exists_of_forall₂_mem h hitem
      exact ⟨entry, hentry, by simpa [hdeclared.structName] using hname⟩
    · rintro ⟨entry, hentry, rfl⟩
      obtain ⟨item, hitem, hdeclared⟩ := hback entry hentry
      exact ⟨item, hitem, hdeclared.structName⟩
  simp only [KnowsChildren, KnowsAll, hstruct]
  constructor
  · intro hknows entry hentry name hname
    obtain ⟨item, hitem, hdeclared⟩ := hback entry hentry
    exact hknows item hitem name ⟨_, hdeclared.permittedChildElements, hname⟩
  · rintro hknows item hitem name ⟨list, hlist, hname⟩
    obtain ⟨entry, hentry, hdeclared⟩ := exists_of_forall₂_mem h hitem
    rw [hlist.unique hdeclared.permittedChildElements] at hname
    exact hknows entry hentry name hname

theorem tagOfStruct?_eq_none_iff {entries : List Entry} {name : String} :
    Entry.tagOfStruct? entries name = none ↔ ¬ ∃ other ∈ entries, other.structName = name := by
  simp [Entry.tagOfStruct?]

theorem listedTags_succeeds_iff {entries : List Entry} {names : List String} :
    (∃ listed, Entry.listedTags entries names = .ok listed) ↔ KnowsAll entries names := by
  unfold KnowsAll
  induction names with
  | nil => simp [Entry.listedTags]
  | cons name rest ih =>
    rw [Entry.listedTags, List.forall_mem_cons, ← ih]
    split
    next htext => simp [htext]
    next htext =>
      split
      next hnone =>
        refine iff_of_false (by simp) ?_
        rintro ⟨hname, -⟩
        exact hname.elim htext (tagOfStruct?_eq_none_iff.mp hnone)
      next tag hfound =>
        have hname : ∃ other ∈ entries, other.structName = name := by
          by_contra hnone
          simp [tagOfStruct?_eq_none_iff.mpr hnone] at hfound
        cases Entry.listedTags entries rest with
        | error missing => simp [Except.map]
        | ok others => simp [Except.map, hname]

theorem resolveEntry_succeeds_iff {entries : List Entry} {entry : Entry} :
    (∃ info, resolveEntry entries entry = .ok info) ↔
      KnowsAll entries entry.permittedChildElements := by
  rw [← listedTags_succeeds_iff]
  constructor
  · rintro ⟨info, h⟩
    obtain ⟨listed, hlisted, -⟩ := Entry.resolve_ok (resolveEntry_ok h)
    exact ⟨listed, hlisted⟩
  · rintro ⟨listed, hlisted⟩
    exact ⟨_, by rw [resolveEntry, Entry.resolve, hlisted]; rfl⟩

theorem resolveEntry_error {entries : List Entry} {entry : Entry} {fault : LoadFault}
    (h : resolveEntry entries entry = .error fault) : fault.code = "UNKNOWN_CHILD_REFERENCE" := by
  unfold resolveEntry at h
  split at h
  · cases h
  · exact Except.error.inj h ▸ rfl

theorem requires_readGlobals (document : Json) (tags : List TagInfo) :
    Requires (readGlobals document tags) (document.MayList "globalAttributes" ∧
      document.MayList "eventHandlerAttributes" ∧ document.MayList "globalAttributePrefixes") :=
  (requires_readStrings.bind fun _ _ => requires_readStrings.bind fun _ _ =>
    requires_readStrings.bind fun _ _ => requires_ok _ True.intro).congr (by simp)

theorem DescribesTags.unique {document : Json} {items other : List Json}
    (h : DescribesTags document items) (h' : DescribesTags document other) : items = other := by
  have hsame := h.elements.symm.trans h'.elements
  exact Json.array.inj (Option.some.inj hsame)

theorem WellFormed.not_missesChild {document : Json} (h : WellFormed document) :
    ¬ MissesChild document := by
  rintro ⟨items, hdescribes, hmisses⟩
  obtain ⟨other, hother, hknows⟩ := h.tags
  obtain rfl := hdescribes.unique hother
  exact hmisses hknows

/-- A reading goes as far as the document is in order. -/
theorem readSchema_cases (document : Json) :
    (∃ schema, readSchema document = .ok schema ∧ WellFormed document) ∨
    (∃ fault, readSchema document = .error fault ∧ fault.code = "UNKNOWN_CHILD_REFERENCE" ∧
      MissesChild document) ∨
    ∃ fault, readSchema document = .error fault ∧ fault.code = "INVALID_SCHEMA_RECORD" ∧
      ¬ WellFormed document ∧ ¬ MissesChild document := by
  -- Each part is read only if those before it are in order, so the first fault decides.
  have hentries := requires_readEntries document
  cases hread : readEntries document with
  | error fault =>
    have hschema : readSchema document = .error fault := by
      rw [readSchema_eq, hread]
      rfl
    have hnone : ¬ ∃ items, DescribesTags document items := by
      rw [← hentries.accepts, hread]
      simp
    refine .inr (.inr ⟨fault, hschema, hentries.rejects fault hread, ?_, ?_⟩)
    · rintro ⟨⟨items, hdescribes, -⟩, -⟩
      exact hnone ⟨items, hdescribes⟩
    · rintro ⟨items, hdescribes, -⟩
      exact hnone ⟨items, hdescribes⟩
  | ok entries =>
    obtain ⟨items, hdescribes, hdeclared⟩ := readEntries_ok hread
    have hknows : KnowsChildren items ↔ ∃ tags, entries.mapM (resolveEntry entries) = .ok tags := by
      rw [knowsChildren_iff hdeclared, mapM_succeeds_iff]
      exact forall₂_congr fun _ _ => resolveEntry_succeeds_iff.symm
    have hrest : readSchema document = (do
        let tags ← entries.mapM (resolveEntry entries)
        readGlobals document tags) := by
      rw [readSchema_eq, hread]
      rfl
    rw [hrest]
    cases htags : entries.mapM (resolveEntry entries) with
    | error fault =>
      obtain ⟨entry, -, hentry⟩ := mapM_eq_error htags
      refine .inr (.inl ⟨fault, rfl, resolveEntry_error hentry, items, hdescribes, ?_⟩)
      rw [hknows, htags]
      simp
    | ok tags =>
      have hchildren := hknows.mpr ⟨tags, htags⟩
      have hglobals := requires_readGlobals document tags
      cases hschema : readGlobals document tags with
      | ok schema =>
        obtain ⟨hcommon, hhandlers, hleads⟩ := hglobals.accepts.mp ⟨schema, hschema⟩
        exact .inl ⟨schema, hschema, ⟨items, hdescribes, hchildren⟩, hcommon, hhandlers, hleads⟩
      | error fault =>
        refine .inr (.inr ⟨fault, hschema, hglobals.rejects fault hschema, ?_, ?_⟩)
        · rintro ⟨-, hcommon, hhandlers, hleads⟩
          obtain ⟨schema, hok⟩ := hglobals.accepts.mpr ⟨hcommon, hhandlers, hleads⟩
          cases hok.symm.trans hschema
        · rintro ⟨other, hother, hmisses⟩
          obtain rfl := hdescribes.unique hother
          exact hmisses hchildren

/-- A document is read as a schema exactly if it is well-formed. A refusal tells of an unknown child
exactly if all entries are in order, with distinct tags, and one of them lists a child that none of
them defines; every other refusal tells of an invalid record. -/
theorem readSchema_decides (document : Json) :
    ((∃ schema, readSchema document = .ok schema) ↔ WellFormed document) ∧
    ((∃ fault, readSchema document = .error fault ∧ fault.code = "UNKNOWN_CHILD_REFERENCE") ↔
      MissesChild document) ∧
    ((∃ fault, readSchema document = .error fault ∧ fault.code = "INVALID_SCHEMA_RECORD") ↔
      ¬ WellFormed document ∧ ¬ MissesChild document) := by
  rcases readSchema_cases document with ⟨schema, hread, hwell⟩ | ⟨fault, hread, hcode, hmisses⟩ |
    ⟨fault, hread, hcode, hill, hmisses⟩
  · simp [hread, hwell, hwell.not_missesChild]
  · have hill : ¬ WellFormed document := fun hwell => hwell.not_missesChild hmisses
    simp [hread, hcode, hmisses, hill]
  · simp [hread, hcode, hmisses, hill]

end Document

end MarkupArena
