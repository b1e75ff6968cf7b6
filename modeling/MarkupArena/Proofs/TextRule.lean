import MarkupArena.Proofs.ContentModel
import Mathlib.Data.List.Nodup

/-! Where text is permitted, beside the rule for elements. An element suits a parent that permits
one of its categories and excludes none of them. Text has two categories of its own; a parent
permits it for one of them, or by name, and what the parent excludes is not asked. -/
namespace MarkupArena

namespace Entry

/-- A category of text is permitted. -/
def PermitsTextCategory (parent : Entry) : Prop :=
  ∃ category ∈ textCategories, category ∈ parent.permittedContent

/-- Text suits a parent as an element with its categories would. -/
def SuitsText (parent : Entry) : Prop :=
  parent.PermitsTextCategory ∧ ∀ category ∈ textCategories, category ∉ parent.excludedContent

/-- A category of text is permitted, and one is excluded. -/
def PermitsExcludedText (parent : Entry) : Prop :=
  parent.PermitsTextCategory ∧ ∃ category ∈ textCategories, category ∈ parent.excludedContent

/-- An entry with just the categories of text. -/
def LikeText (entry : Entry) : Prop :=
  ∀ category, category ∈ entry.contentCategories ↔ category ∈ textCategories

theorem permitsTextCategory_iff {parent : Entry} :
    parent.PermitsTextCategory ↔ parent.SuitsText ∨ parent.PermitsExcludedText := by
  unfold SuitsText PermitsExcludedText
  rw [← and_or_left]
  refine (and_iff_left ?_).symm
  by_cases hexcluded : ∃ category ∈ textCategories, category ∈ parent.excludedContent
  · exact .inr hexcluded
  · exact .inl fun category hcategory h => hexcluded ⟨category, hcategory, h⟩

theorem allowsText_iff {entries : List Entry} {entry : Entry} {info : TagInfo}
    (h : resolve entries entry = .ok info) : info.allowsText = true ↔
      entry.PermitsTextCategory ∨ textStruct ∈ entry.permittedChildElements := by
  obtain ⟨listed, -, h⟩ := bind_eq_ok_iff.mp h
  obtain rfl := Except.ok.inj h
  rw [Bool.or_eq_true, meets_iff, List.contains_iff_mem, PermitsTextCategory]
  refine or_congr_left ?_
  simp only [and_comm]

end Entry

namespace Schema

/-- A schema treats text in a tag as its entry says: text is permitted by name, or because it suits
as an element would, or in spite of an exclusion. White space is taken everywhere. Entries with the
categories of text suit where text does; an exclusion of one of its categories bars every entry that
has them. -/
structure TextRule (schema : Schema) (entries : List Entry) (parent : Entry) : Prop where
  permitsText_iff : schema.permitsText parent.tagName = true ↔
    Entry.textStruct ∈ parent.permittedChildElements ∨ parent.SuitsText ∨
      parent.PermitsExcludedText
  checkText_iff : ∀ text, schema.checkText parent.tagName text = .ok () ↔
    schema.permitsText parent.tagName = true ∨ Text.onlyMarkupSpace text = true
  suitsChild_iff : ∀ entry ∈ entries, entry.LikeText →
    (parent.SuitsChild schema entries entry.tagName ↔ parent.SuitsText)
  bars : parent.PermitsExcludedText → ∀ entry ∈ entries,
    (∀ category ∈ Entry.textCategories, category ∈ entry.contentCategories) →
    ¬ parent.SuitsChild schema entries entry.tagName

variable {schema : Schema} {entries : List Entry} {parent entry : Entry} {info : TagInfo}

/-- With distinct tags, the child of a tag is its entry. -/
theorem suitsChild_iff_of_mem (hinfo : schema.find? parent.tagName = some info)
    (hresolve : Entry.resolve entries parent = .ok info)
    (hnodup : (entries.map Entry.tagName).Nodup) (hentry : entry ∈ entries) :
    parent.SuitsChild schema entries entry.tagName ↔
      (∃ category ∈ entry.contentCategories, category ∈ parent.permittedContent) ∧
        ∀ category ∈ entry.contentCategories, category ∉ parent.excludedContent := by
  rw [← mem_tagsByCategory_iff_suits hinfo hresolve, Entry.mem_tagsByCategory]
  constructor
  · rintro ⟨other, hother, htag, hsuits⟩
    obtain rfl := List.inj_on_of_nodup_map hnodup hother hentry htag
    exact hsuits
  · intro hsuits
    exact ⟨entry, hentry, rfl, hsuits⟩

theorem textRule_of_resolve (hinfo : schema.find? parent.tagName = some info)
    (hresolve : Entry.resolve entries parent = .ok info)
    (hnodup : (entries.map Entry.tagName).Nodup) : schema.TextRule entries parent where
  permitsText_iff := by
    rw [permitsText, hinfo, Option.any_some, Entry.allowsText_iff hresolve,
      Entry.permitsTextCategory_iff, or_comm]
  checkText_iff text := by
    rw [checkText, require_of_find? hinfo, permitsText, hinfo, Option.any_some]
    cases info.allowsText <;> simp
  suitsChild_iff entry hentry hlike := by
    rw [suitsChild_iff_of_mem hinfo hresolve hnodup hentry]
    simp only [hlike _, Entry.SuitsText, Entry.PermitsTextCategory]
  bars hexcluded entry hentry hcategories := by
    rw [suitsChild_iff_of_mem hinfo hresolve hnodup hentry]
    obtain ⟨-, category, hcategory, hbarred⟩ := hexcluded
    rintro ⟨-, hnone⟩
    exact hnone category (hcategories category hcategory) hbarred

theorem permitsText_of_unknown {tag : String} (h : tag ∉ schema.tagNames) :
    schema.permitsText tag = false := by
  have hnone : schema.find? tag = none := by
    simpa [find?, tagNames] using h
  rw [permitsText, hnone, Option.any_none]

end Schema

namespace Document

/-- A schema treats text as the entries of its document say, and permits none in tags that have no
entry. -/
theorem textRule_of_readSchema {document : Json} {schema : Schema}
    (h : readSchema document = .ok schema) :
    ∃ items entries, document.member? "elements" = some (.array items) ∧
      List.Forall₂ (fun value (entry : Entry) => entry.DeclaredBy value) items entries ∧
      schema.tagNames = entries.map Entry.tagName ∧
      (∀ tag, tag ∉ schema.tagNames → schema.permitsText tag = false) ∧
      ∀ parent ∈ entries, schema.TextRule entries parent := by
  obtain ⟨items, entries, hitems, hdeclared, hnames, hnodup, hrules⟩ := rules_of_readSchema h
  refine ⟨items, entries, hitems, hdeclared, hnames, fun _ => Schema.permitsText_of_unknown, ?_⟩
  intro parent hparent
  obtain ⟨info, hinfo, hresolve⟩ := hrules parent hparent
  exact Schema.textRule_of_resolve hinfo hresolve hnodup

theorem textRule_listSchema : readSchema listDocument = .ok listSchema ∧
    ∃ items entries, listDocument.member? "elements" = some (.array items) ∧
      List.Forall₂ (fun value (entry : Entry) => entry.DeclaredBy value) items entries ∧
      listSchema.tagNames = entries.map Entry.tagName ∧
      (∀ tag, tag ∉ listSchema.tagNames → listSchema.permitsText tag = false) ∧
      ∀ parent ∈ entries, listSchema.TextRule entries parent :=
  ⟨by rfl, textRule_of_readSchema (by rfl)⟩

/-- A block takes what is flow, other than phrasing; a word has the categories of text. -/
def block : Entry :=
  { tagName := "block", structName := "Block", permittedContent := ["flow"],
    excludedContent := ["phrasing"] }

def word : Entry :=
  { tagName := "word", structName := "Word", contentCategories := ["phrasing", "flow"] }

/-- The values that declare the two. -/
def mutedItems : List Json :=
  let value (tag struct : String) (more : List (String × Json)) : Json :=
    .object ([("tagName", .string tag), ("structName", .string struct),
      ("hasGlobalAttributes", .bool true), ("hasClosingTag", .bool true)] ++ more)
  [value "block" "Block" [("permittedContent", .array [.string "flow"]),
      ("excludedContent", .array [.string "phrasing"])],
    value "word" "Word" [("contentCategories", .array [.string "phrasing", .string "flow"])]]

def mutedDocument : Json := .object [("elements", .array mutedItems)]

theorem declaredBy_mutedItems :
    List.Forall₂ (fun value (entry : Entry) => entry.DeclaredBy value) mutedItems
      [block, word] :=
  .cons ⟨rfl, rfl, .inl ⟨rfl, rfl⟩, .inr rfl, .inr rfl, .inl ⟨rfl, rfl⟩⟩
    (.cons ⟨rfl, rfl, .inr rfl, .inl ⟨rfl, rfl⟩, .inl ⟨rfl, rfl⟩, .inl ⟨rfl, rfl⟩⟩ .nil)

/-- A block does not list text and excludes a category of it, and refuses a word for that; text it
permits. -/
theorem permitsText_mutedDocument : ∃ schema, readSchema mutedDocument = .ok schema ∧
    mutedDocument.member? "elements" = some (.array mutedItems) ∧
    List.Forall₂ (fun value (entry : Entry) => entry.DeclaredBy value) mutedItems
      [block, word] ∧
    Entry.textStruct ∉ block.permittedChildElements ∧ ¬ block.SuitsText ∧
    schema.permitsText "block" = true ∧ schema.checkText "block" "x" = .ok () ∧
    word.LikeText ∧
    schema.checkChild "block" "word" = .error (.disallowedChild "block" "word" ["#text"]) := by
  refine ⟨_, by rfl, rfl, declaredBy_mutedItems, by decide, ?_, by decide, by decide, ?_, ?_⟩
  · rintro ⟨-, hnone⟩
    exact hnone "phrasing" (by decide) (by decide)
  · exact fun category => Iff.rfl
  · decide

end Document

end MarkupArena
