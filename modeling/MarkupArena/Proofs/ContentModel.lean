import MarkupArena.Proofs.Work
import MarkupArena.Schema.Document

/-! The content model of a schema document: the children that its entries permit, by structure name
or by category. A schema that is read from the document permits just these, and lists them. -/
namespace MarkupArena

/-- A member that lists texts; an absent one lists none. -/
def Json.Lists (value : Json) (key : String) (list : List String) : Prop :=
  (value.member? key = none ∧ list = []) ∨
    value.member? key = some (.array (list.map Json.string))

namespace Entry

/-- The value of a document that declares an entry, as far as content goes. -/
structure DeclaredBy (entry : Entry) (value : Json) : Prop where
  tagName : value.member? "tagName" = some (.string entry.tagName)
  structName : value.member? "structName" = some (.string entry.structName)
  contentCategories : value.Lists "contentCategories" entry.contentCategories
  permittedContent : value.Lists "permittedContent" entry.permittedContent
  excludedContent : value.Lists "excludedContent" entry.excludedContent
  permittedChildElements : value.Lists "permittedChildElements" entry.permittedChildElements

/-- The last of the entries that has a structure name. -/
def LastNamed (entries : List Entry) (name : String) (entry : Entry) : Prop :=
  ∃ before after, entries = before ++ entry :: after ∧ entry.structName = name ∧
    ∀ later ∈ after, later.structName ≠ name

/-- A tag is permitted by a structure name, other than the one for text. -/
def NamesChild (entries : List Entry) (parent : Entry) (child : String) : Prop :=
  ∃ name ∈ parent.permittedChildElements, name ≠ textStruct ∧
    ∃ entry, LastNamed entries name entry ∧ entry.tagName = child

/-- A tag is permitted by a category: one that the schema accepts for the parent, while the parent
excludes none that the tag has. -/
def SuitsChild (schema : Schema) (entries : List Entry) (parent : Entry) (child : String) : Prop :=
  ∃ entry ∈ entries, entry.tagName = child ∧
    (∃ category ∈ entry.contentCategories,
      schema.checkCategory parent.tagName category = .ok ()) ∧
    ∀ category ∈ entry.contentCategories, category ∉ parent.excludedContent

theorem meets_iff {left right : List String} :
    meets left right = true ↔ ∃ category ∈ left, category ∈ right := by
  simp [meets]

theorem tagOfStruct?_eq_some_iff {entries : List Entry} {name tag : String} :
    tagOfStruct? entries name = some tag ↔
      ∃ entry, LastNamed entries name entry ∧ entry.tagName = tag := by
  rw [tagOfStruct?, Option.map_eq_some_iff]
  refine exists_congr fun entry => and_congr_left fun _ => ?_
  rw [List.find?_eq_some_iff_append]
  constructor
  · rintro ⟨hname, after, before, hentries, hafter⟩
    refine ⟨before.reverse, after.reverse, ?_, by simpa using hname, ?_⟩
    · simpa using congrArg List.reverse hentries
    · intro later hlater
      simpa using hafter later (List.mem_reverse.mp hlater)
  · rintro ⟨before, after, rfl, hname, hafter⟩
    refine ⟨by simpa using hname, after.reverse, before.reverse, by simp, ?_⟩
    intro later hlater
    simpa using hafter later (List.mem_reverse.mp hlater)

theorem mem_listedTags {entries : List Entry} {names listed : List String} {tag : String}
    (h : listedTags entries names = .ok listed) :
    tag ∈ listed ↔ ∃ name ∈ names, name ≠ textStruct ∧ tagOfStruct? entries name = some tag := by
  induction names generalizing listed with
  | nil =>
    obtain rfl := Except.ok.inj h
    simp
  | cons name rest ih =>
    rw [listedTags] at h
    simp only [List.mem_cons, exists_eq_or_imp]
    split at h
    next htext => simpa [htext] using ih h
    next htext =>
      split at h
      · cases h
      next found hfound =>
        cases hrest : listedTags entries rest with
        | error other =>
          rw [hrest] at h
          cases h
        | ok others =>
          rw [hrest] at h
          obtain rfl := Except.ok.inj h
          rw [List.mem_cons, ih hrest, hfound, Option.some.injEq]
          simp [htext, eq_comm]

theorem mem_tagsByCategory {entries : List Entry} {parent : Entry} {tag : String} :
    tag ∈ tagsByCategory entries parent ↔
      ∃ entry ∈ entries, entry.tagName = tag ∧
        (∃ category ∈ entry.contentCategories, category ∈ parent.permittedContent) ∧
        ∀ category ∈ entry.contentCategories, category ∉ parent.excludedContent := by
  rw [tagsByCategory, List.mem_map]
  refine exists_congr fun entry => ?_
  rw [List.mem_filter, Bool.and_eq_true, Bool.not_eq_true', ← Bool.not_eq_true, meets_iff,
    meets_iff]
  simp only [not_exists, not_and]
  tauto

/-- What is resolved for an entry among all entries. -/
theorem resolve_ok {entries : List Entry} {entry : Entry} {info : TagInfo}
    (h : resolve entries entry = .ok info) :
    ∃ listed, listedTags entries entry.permittedChildElements = .ok listed ∧
      info.tagName = entry.tagName ∧
      info.permittedContent = Text.distinct entry.permittedContent ∧
      info.excludedContent = Text.distinct entry.excludedContent ∧
      info.permittedChildTags = Text.distinct (listed ++ tagsByCategory entries entry) := by
  obtain ⟨listed, hlisted, h⟩ := bind_eq_ok_iff.mp h
  obtain rfl := Except.ok.inj h
  exact ⟨listed, hlisted, rfl, rfl, rfl, rfl⟩

theorem tagName_of_resolve? {entries : List Entry} {entry : Entry} {info : TagInfo}
    (h : (resolve entries entry).toOption = some info) : info.tagName = entry.tagName := by
  cases hresolve : resolve entries entry with
  | error name =>
    rw [hresolve] at h
    cases h
  | ok resolved =>
    rw [hresolve] at h
    obtain rfl := Option.some.inj h
    obtain ⟨_, -, htag, -⟩ := resolve_ok hresolve
    exact htag

/-- The first entry of a tag decides what a schema says about it. -/
theorem find?_filterMap_resolve {all entries : List Entry} {tag : String} {entry : Entry}
    {info : TagInfo} (hfind : entries.find? (fun entry => entry.tagName == tag) = some entry)
    (hinfo : resolve all entry = .ok info) :
    (entries.filterMap fun entry => (resolve all entry).toOption).find?
      (fun info => info.tagName == tag) = some info := by
  obtain ⟨htag, before, after, rfl, hbefore⟩ := List.find?_eq_some_iff_append.mp hfind
  have hkept : (resolve all entry).toOption = some info := by
    rw [hinfo]
    rfl
  have hnone : (before.filterMap fun entry => (resolve all entry).toOption).find?
      (fun info => info.tagName == tag) = none := by
    refine List.find?_eq_none.mpr fun found hfound => ?_
    obtain ⟨other, hother, hfound⟩ := List.mem_filterMap.mp hfound
    rw [tagName_of_resolve? hfound]
    simpa using hbefore other hother
  simp only [List.filterMap_append, List.filterMap_cons, hkept]
  rw [List.find?_append, hnone, Option.none_or]
  exact List.find?_cons_of_pos (by rw [tagName_of_resolve? hkept, htag])

end Entry

namespace Document

theorem readText_ok {value : Json} {key text : String} {tag : Option String}
    (h : readText value key tag = .ok text) : value.member? key = some (.string text) := by
  unfold readText at h
  split at h
  next found hfound =>
    split at h
    · cases h
    · rw [hfound, Except.ok.inj h]
  next => cases h

theorem strings?_eq_some {items : List Json} {list : List String}
    (h : strings? items = some list) : items = list.map Json.string := by
  induction items generalizing list with
  | nil =>
    obtain rfl := Option.some.inj h
    rfl
  | cons item rest ih =>
    cases item with
    | string s =>
      obtain ⟨others, hrest, rfl⟩ := Option.map_eq_some_iff.mp h
      rw [List.map_cons, ← ih hrest]
    | _ => cases h

theorem readStrings_ok {value : Json} {key : String} {tag : Option String} {list : List String}
    (h : readStrings value key tag = .ok list) : value.Lists key list := by
  unfold readStrings at h
  split at h
  next habsent => exact .inl ⟨habsent, (Except.ok.inj h).symm⟩
  next items hitems =>
    split at h
    next found hfound =>
      obtain rfl := Except.ok.inj h
      exact .inr (by rw [hitems, strings?_eq_some hfound])
    next => cases h
  next => cases h

theorem readEntry_ok {value : Json} {entry : Entry} (h : readEntry value = .ok entry) :
    entry.DeclaredBy value := by
  unfold readEntry at h
  split at h
  next members =>
    obtain ⟨tagName, htagName, h⟩ := bind_eq_ok_iff.mp h
    obtain ⟨structName, hstructName, h⟩ := bind_eq_ok_iff.mp h
    obtain ⟨hasGlobalAttributes, -, h⟩ := bind_eq_ok_iff.mp h
    obtain ⟨hasClosingTag, -, h⟩ := bind_eq_ok_iff.mp h
    obtain ⟨attributes, -, h⟩ := bind_eq_ok_iff.mp h
    obtain ⟨contentCategories, hcategories, h⟩ := bind_eq_ok_iff.mp h
    obtain ⟨permittedContent, hpermitted, h⟩ := bind_eq_ok_iff.mp h
    obtain ⟨excludedContent, hexcluded, h⟩ := bind_eq_ok_iff.mp h
    obtain ⟨permittedChildElements, hchildren, h⟩ := bind_eq_ok_iff.mp h
    obtain rfl := Except.ok.inj h
    exact ⟨readText_ok htagName, readText_ok hstructName, readStrings_ok hcategories,
      readStrings_ok hpermitted, readStrings_ok hexcluded, readStrings_ok hchildren⟩
  next => cases h

theorem checkDistinct_eq_ok_iff {seen : List String} {entries : List Entry} :
    checkDistinct seen entries = .ok () ↔
      (entries.map Entry.tagName).Nodup ∧ ∀ entry ∈ entries, entry.tagName ∉ seen := by
  induction entries generalizing seen with
  | nil => simp [checkDistinct]
  | cons entry rest ih =>
    rw [checkDistinct]
    split
    next hseen =>
      refine iff_of_false nofun ?_
      rintro ⟨-, hnew⟩
      exact hnew entry List.mem_cons_self (by simpa using hseen)
    next hnew =>
      have hentry : entry.tagName ∉ seen := by simpa using hnew
      simp only [ih, List.map_cons, List.nodup_cons, List.mem_map, List.mem_cons]
      grind

theorem resolveEntry_ok {entries : List Entry} {entry : Entry} {info : TagInfo}
    (h : resolveEntry entries entry = .ok info) : Entry.resolve entries entry = .ok info := by
  unfold resolveEntry at h
  split at h
  next hfound => rw [hfound, Except.ok.inj h]
  next => cases h

/-- A schema has the entries of its document, each resolved among all of them. -/
theorem readSchema_ok {document : Json} {schema : Schema} (h : readSchema document = .ok schema) :
    ∃ items entries, document.member? "elements" = some (.array items) ∧
      List.Forall₂ (fun value (entry : Entry) => entry.DeclaredBy value) items entries ∧
      (entries.map Entry.tagName).Nodup ∧
      List.Forall₂ (fun entry info => Entry.resolve entries entry = .ok info) entries
        schema.tags := by
  unfold readSchema at h
  split at h
  next members =>
    split at h
    next items hitems =>
      obtain ⟨entries, hentries, h⟩ := bind_eq_ok_iff.mp h
      obtain ⟨_, hdistinct, h⟩ := bind_eq_ok_iff.mp h
      obtain ⟨tags, htags, h⟩ := bind_eq_ok_iff.mp h
      obtain ⟨globals, -, h⟩ := bind_eq_ok_iff.mp h
      obtain ⟨handlers, -, h⟩ := bind_eq_ok_iff.mp h
      obtain ⟨leads, -, h⟩ := bind_eq_ok_iff.mp h
      obtain rfl := Except.ok.inj h
      exact ⟨items, entries, hitems, (exists_of_mapM hentries).imp fun _ _ => readEntry_ok,
        (checkDistinct_eq_ok_iff.mp hdistinct).1,
        (exists_of_mapM htags).imp fun _ _ => resolveEntry_ok⟩
    next => cases h
  next => cases h

end Document

namespace Schema

section
variable {rules : Entry → TagInfo → Prop} {entries : List Entry} {tags : List TagInfo}
  (hrules : ∀ entry info, rules entry info → info.tagName = entry.tagName)
  (htags : List.Forall₂ rules entries tags)
include hrules htags

theorem tagNames_of_forall₂ : tags.map TagInfo.tagName = entries.map Entry.tagName := by
  induction htags with
  | nil => rfl
  | cons hfirst _ ih => rw [List.map_cons, List.map_cons, hrules _ _ hfirst, ih]

/-- An entry whose tag no other one has is found under its tag. -/
theorem find?_of_forall₂ (hnodup : (entries.map Entry.tagName).Nodup) {entry : Entry}
    (hentry : entry ∈ entries) :
    ∃ info, (tags.find? fun info => info.tagName == entry.tagName) = some info ∧
      rules entry info := by
  induction htags with
  | nil => cases hentry
  | @cons first found rest others hfirst _ ih =>
    have hfound : found.tagName = first.tagName := hrules first found hfirst
    rw [List.map_cons, List.nodup_cons] at hnodup
    rcases List.mem_cons.mp hentry with rfl | hrest
    · exact ⟨found, by simp [hfound], hfirst⟩
    · have hother : found.tagName ≠ entry.tagName := by
        intro hsame
        exact hnodup.1 (hfound ▸ hsame ▸ List.mem_map_of_mem hrest)
      simpa [hother] using ih hnodup.2 hrest

end

section
variable {schema : Schema} {tag : String} {info : TagInfo} (hinfo : schema.find? tag = some info)
include hinfo

theorem require_of_find? (accepts : TagInfo → Bool) (refusal : Unit → Rejection) :
    schema.require tag accepts refusal =
      if accepts info then .ok () else .error (refusal ()) := by
  simp [require, lookup, hinfo, bind, Except.bind]

theorem checkChild_ok_iff {child : String} :
    schema.checkChild tag child = .ok () ↔ child ∈ info.permittedChildTags := by
  rw [checkChild, require_of_find? hinfo]
  simp [TagInfo.permitsChild]

theorem checkCategory_ok_iff {category : String} :
    schema.checkCategory tag category = .ok () ↔
      category ∈ info.permittedContent ∧ category ∉ info.excludedContent := by
  simp [checkCategory, lookup, hinfo, bind, Except.bind, openCategories]

theorem checkChild_error {child : String} {why : Rejection}
    (h : schema.checkChild tag child = .error why) :
    why = .disallowedChild tag child (schema.allowedChildren tag) := by
  rw [checkChild, require_of_find? hinfo] at h
  split at h
  · cases h
  · exact (Except.error.inj h).symm

theorem checkText_error {text : String} {why : Rejection}
    (h : schema.checkText tag text = .error why) :
    why = .disallowedChild tag textChild (schema.allowedChildren tag) := by
  rw [checkText, require_of_find? hinfo] at h
  split at h
  · cases h
  · exact (Except.error.inj h).symm

theorem allowedChildren_of_find? :
    schema.allowedChildren tag =
      (if schema.permitsText tag then [textChild] else []) ++
        Text.sorted info.permittedChildTags := by
  cases htext : info.allowsText <;> simp [allowedChildren, permitsText, hinfo, htext]

end

/-- The tags that are found by category are those that suit. -/
theorem mem_tagsByCategory_iff_suits {schema : Schema} {entries : List Entry} {parent : Entry}
    {info : TagInfo} (hinfo : schema.find? parent.tagName = some info)
    (hresolve : Entry.resolve entries parent = .ok info) {child : String} :
    child ∈ Entry.tagsByCategory entries parent ↔ parent.SuitsChild schema entries child := by
  obtain ⟨_, -, -, hpermitted, hexcluded, -⟩ := Entry.resolve_ok hresolve
  rw [Entry.mem_tagsByCategory]
  simp only [Entry.SuitsChild, checkCategory_ok_iff hinfo, hpermitted, hexcluded,
    Text.mem_distinct]
  grind

/-- What is resolved for an entry permits the children that the content model permits. -/
theorem mem_permittedChildTags {schema : Schema} {entries : List Entry} {parent : Entry}
    {info : TagInfo} (hinfo : schema.find? parent.tagName = some info)
    (hresolve : Entry.resolve entries parent = .ok info) {child : String} :
    child ∈ info.permittedChildTags ↔
      parent.NamesChild entries child ∨ parent.SuitsChild schema entries child := by
  obtain ⟨listed, hlisted, -, -, -, hchildren⟩ := Entry.resolve_ok hresolve
  rw [hchildren, Text.mem_distinct, List.mem_append, Entry.mem_listedTags hlisted,
    mem_tagsByCategory_iff_suits hinfo hresolve]
  simp only [Entry.NamesChild, Entry.tagOfStruct?_eq_some_iff]

/-- A schema treats a tag as its entry says among all entries: it accepts the children that the
content model permits, and it lists them, each once and in the order of their UTF-16 units, after
the mark for text where text is permitted. A refusal carries the same list. -/
structure Honours (schema : Schema) (entries : List Entry) (parent : Entry) : Prop where
  checkChild_iff : ∀ child, schema.checkChild parent.tagName child = .ok () ↔
    parent.NamesChild entries child ∨ parent.SuitsChild schema entries child
  lists : ∃ names, schema.allowedChildren parent.tagName =
      (if schema.permitsText parent.tagName then [textChild] else []) ++ names ∧
    (∀ child, child ∈ names ↔ schema.checkChild parent.tagName child = .ok ()) ∧
    names.Nodup ∧ Text.InOrder names
  refusesChild : ∀ child why, schema.checkChild parent.tagName child = .error why →
    why = .disallowedChild parent.tagName child (schema.allowedChildren parent.tagName)
  refusesText : ∀ text why, schema.checkText parent.tagName text = .error why →
    why = .disallowedChild parent.tagName textChild (schema.allowedChildren parent.tagName)

theorem honours_of_resolve {schema : Schema} {entries : List Entry} {parent : Entry}
    {info : TagInfo} (hinfo : schema.find? parent.tagName = some info)
    (hresolve : Entry.resolve entries parent = .ok info) : schema.Honours entries parent where
  checkChild_iff child := by
    rw [checkChild_ok_iff hinfo, mem_permittedChildTags hinfo hresolve]
  lists := by
    refine ⟨Text.sorted info.permittedChildTags, allowedChildren_of_find? hinfo, ?_, ?_,
      Text.inOrder_sorted _⟩
    · intro child
      rw [Text.mem_sorted, checkChild_ok_iff hinfo]
    · obtain ⟨_, _, _, _, _, hchildren⟩ := Entry.resolve_ok hresolve
      rw [(Text.perm_sorted _).nodup_iff, hchildren]
      exact Text.nodup_distinct _
  refusesChild _ _ := checkChild_error hinfo
  refusesText _ _ := checkText_error hinfo

end Schema

namespace Document

/-- A schema finds for each entry of its document what the entry comes to among all of them. -/
theorem rules_of_readSchema {document : Json} {schema : Schema}
    (h : readSchema document = .ok schema) :
    ∃ items entries, document.member? "elements" = some (.array items) ∧
      List.Forall₂ (fun value (entry : Entry) => entry.DeclaredBy value) items entries ∧
      schema.tagNames = entries.map Entry.tagName ∧ (entries.map Entry.tagName).Nodup ∧
      ∀ entry ∈ entries, ∃ info, schema.find? entry.tagName = some info ∧
        Entry.resolve entries entry = .ok info := by
  obtain ⟨items, entries, hitems, hdeclared, hnodup, htags⟩ := readSchema_ok h
  have hname : ∀ (entry : Entry) info, Entry.resolve entries entry = .ok info →
      info.tagName = entry.tagName := by
    intro entry info hresolve
    obtain ⟨_, _, hname, _⟩ := Entry.resolve_ok hresolve
    exact hname
  exact ⟨items, entries, hitems, hdeclared, Schema.tagNames_of_forall₂ hname htags, hnodup,
    fun _ => Schema.find?_of_forall₂ hname htags hnodup⟩

/-- A schema honours every entry of the document that it was read from. -/
theorem honours_of_readSchema {document : Json} {schema : Schema}
    (h : readSchema document = .ok schema) :
    ∃ items entries, document.member? "elements" = some (.array items) ∧
      List.Forall₂ (fun value (entry : Entry) => entry.DeclaredBy value) items entries ∧
      schema.tagNames = entries.map Entry.tagName ∧
      ∀ parent ∈ entries, schema.Honours entries parent := by
  obtain ⟨items, entries, hitems, hdeclared, hnames, -, hrules⟩ := rules_of_readSchema h
  refine ⟨items, entries, hitems, hdeclared, hnames, fun parent hparent => ?_⟩
  obtain ⟨info, hinfo, hresolve⟩ := hrules parent hparent
  exact Schema.honours_of_resolve hinfo hresolve

/-- A list takes items by name; an item takes text and what is phrasing, other than notes. -/
def listDocument : Json :=
  let entry (tag struct : String) (more : List (String × Json)) : Json :=
    .object ([("tagName", .string tag), ("structName", .string struct),
      ("hasGlobalAttributes", .bool true), ("hasClosingTag", .bool true)] ++ more)
  .object [("elements", .array [
    entry "list" "List" [("permittedChildElements", .array [.string "Item", .string "Item"])],
    entry "item" "Item" [("permittedContent", .array [.string "phrasing"]),
      ("excludedContent", .array [.string "note"])],
    entry "word" "Word" [("contentCategories", .array [.string "phrasing"])],
    entry "note" "Note" [("contentCategories", .array [.string "phrasing", .string "note"])]])]

def listSchema : Schema :=
  let info (tag struct : String) : TagInfo :=
    { tagName := tag, structName := struct, hasGlobalAttributes := true, hasClosingTag := true,
      attributes := [], contentCategories := [], permittedContent := [], excludedContent := [],
      permittedChildTags := [], allowsText := false }
  ⟨.finite false 0 0,
    [{ info "list" "List" with permittedChildTags := ["item"] },
      { info "item" "Item" with
        permittedContent := ["phrasing"], excludedContent := ["note"],
        permittedChildTags := ["word"], allowsText := true },
      { info "word" "Word" with contentCategories := ["phrasing"] },
      { info "note" "Note" with contentCategories := ["phrasing", "note"] }], [], []⟩

theorem honours_listSchema :
    readSchema listDocument = .ok listSchema ∧
    ∃ items entries, listDocument.member? "elements" = some (.array items) ∧
      List.Forall₂ (fun value (entry : Entry) => entry.DeclaredBy value) items entries ∧
      listSchema.tagNames = entries.map Entry.tagName ∧
      ∀ parent ∈ entries, listSchema.Honours entries parent :=
  ⟨by rfl, honours_of_readSchema (by rfl)⟩

example : listSchema.allowedChildren "item" = ["#text", "word"] := by decide

end Document

end MarkupArena
