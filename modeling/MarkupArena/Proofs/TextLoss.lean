import MarkupArena.Proofs.ContentModel
import MarkupArena.Proofs.Obstacles
import MarkupArena.Proofs.RawText
import MarkupArena.Schema.Html

/-! What is left of the text of scripts, style sheets, titles and text areas once they were
rendered. All text is escaped alike, but not all of it is read alike. -/
namespace MarkupArena

namespace Text

theorem length_writeTextChar_pos (c : Char) : 0 < (writeTextChar c).length :=
  List.length_pos_iff.mpr (Token.char c).write_ne_nil

theorem length_le_flatMap (text : List Char) :
    text.length ≤ (text.flatMap writeTextChar).length := by
  induction text with
  | nil => exact Nat.le_refl _
  | cons c rest ih =>
    have hpos := length_writeTextChar_pos c
    rw [List.flatMap_cons, List.length_append, List.length_cons]
    omega

theorem writeTextChar_eq_iff {c : Char} :
    writeTextChar c = [c] ↔ c ≠ '&' ∧ c ≠ '<' ∧ c ≠ '>' := by
  unfold writeTextChar
  split
  next h => simp [h, ampersand]
  split
  next h => simp [h, lessThan]
  split
  next h => simp [h, greaterThan]
  next hamp hlt hgt => simp [hamp, hlt, hgt]

/-- Escaping leaves only those texts as they are that hold nothing to escape. -/
theorem flatMap_writeTextChar_eq_iff {text : List Char} :
    text.flatMap writeTextChar = text ↔ ∀ c ∈ text, c ≠ '&' ∧ c ≠ '<' ∧ c ≠ '>' := by
  induction text with
  | nil => simp
  | cons c rest ih =>
    rw [List.forall_mem_cons, ← ih, ← writeTextChar_eq_iff, List.flatMap_cons]
    constructor
    · intro h
      -- The rest is not shorter when it is written, so there is room for one character only.
      have hlength := congrArg List.length h
      have hrest := length_le_flatMap rest
      have hpos := length_writeTextChar_pos c
      rw [List.length_append, List.length_cons] at hlength
      have happend : writeTextChar c ++ rest.flatMap writeTextChar = [c] ++ rest := h
      exact List.append_inj happend (by rw [List.length_singleton]; omega)
    · rintro ⟨hc, hrest⟩
      rw [hc, hrest]
      rfl

end Text

namespace Reading

section
variable {name : String} {model : TextModel} {skips : Bool}

/-- What is read in place of the text of an element after the element was rendered. -/
def rereadText (tag text : String) : String :=
  match tag with
  | "title" => text
  | "textarea" => String.ofList (withoutFeed text.toList)
  | _ => Text.escapeText text

/-- There is nothing in the text of an element that rendering changes. -/
def Unharmed (tag text : String) : Prop :=
  (tag = "script" ∨ tag = "style" → ∀ c ∈ text.toList, c ≠ '&' ∧ c ≠ '<' ∧ c ≠ '>') ∧
    (tag = "textarea" → text.toList.head? ≠ some '\n')

theorem withoutFeed_eq_iff {text : List Char} :
    withoutFeed text = text ↔ text.head? ≠ some '\n' := by
  unfold withoutFeed
  split
  next rest => simp
  next hnot =>
    refine ⟨fun _ hhead => ?_, fun _ => rfl⟩
    obtain ⟨rest, rfl⟩ := List.head?_eq_some_iff.mp hhead
    exact hnot rest rfl

theorem IsRaw.ofList_takenText (h : IsRaw name model skips) (text : String) :
    String.ofList (takenText model.references skips text.toList) = rereadText name text := by
  have hescape : String.ofList (text.toList.flatMap Text.writeTextChar) = Text.escapeText text := by
    rw [Text.escapeText, Text.escapeTextChars_eq_flatMap]
  cases h with
  | script | style => exact hescape
  | title => exact String.ofList_toList
  | textarea => rfl

theorem IsRaw.rereadText_eq_iff (h : IsRaw name model skips) {text : String} :
    rereadText name text = text ↔ Unharmed name text := by
  have hescape : Text.escapeText text = text ↔
      ∀ c ∈ text.toList, c ≠ '&' ∧ c ≠ '<' ∧ c ≠ '>' := by
    rw [← Text.flatMap_writeTextChar_eq_iff, ← Text.escapeTextChars_eq_flatMap, Text.escapeText,
      ← String.toList_inj, String.toList_ofList]
  cases h with
  | script | style => simpa [Unharmed, rereadText] using hescape
  | title => simp [Unharmed, rereadText]
  | textarea =>
    have hfeed : withoutFeed text.toList = text.toList ↔ _ := withoutFeed_eq_iff
    simpa [Unharmed, rereadText, ← String.toList_inj] using hfeed

end

end Reading

namespace Content

/-- What is read in the markup of an element whose text is not markup. -/
theorem summarize_of_isRaw {info : TagInfo} {attributes : List Attribute}
    {model : Reading.TextModel} {skips : Bool} {s : String}
    (h : Reading.IsRaw info.tagName model skips) (hcloses : info.hasClosingTag = true)
    (hnames : ∀ given ∈ attributes, Text.isAttributeName given.name)
    (hnul : '\x00' ∉ s.toList) (hreturn : '\r' ∉ s.toList) :
    ∃ summary, Reading.summarize (Content.element info attributes [.text s]).markup = .ok summary ∧
      summary.text = String.ofList (Reading.takenText model.references skips s.toList) := by
  have hlegible : (Content.element info attributes [.text s]).Legible fun _ => true := by
    refine .element h.isTagName hcloses hnames (fun hopen => ?_)
      (List.forall_mem_singleton.mpr (.text s))
    rw [hcloses] at hopen
    cases hopen
  have htokens : (Content.element info attributes [.text s]).tokens =
      Reading.writtenAround info.tagName attributes s.toList := by
    rw [tokens, hcloses]
    simp [tokensAll, tokens, Reading.writtenAround]
  have hmarkup := hlegible.toList_markup
  rw [htokens] at hmarkup
  obtain ⟨children, hread, htext⟩ := Reading.read_writtenAround h hnames hnul hreturn hmarkup
  unfold Reading.summarize
  rw [hread]
  refine ⟨_, rfl, ?_⟩
  rw [← htext]
  exact String.append_empty

end Content

namespace Html

/-- The tags whose text is not markup. -/
def rawTags : List String := ["script", "style", "title", "textarea"]

theorem exists_isRaw {tag : String} (h : tag ∈ rawTags) :
    ∃ model skips, Reading.IsRaw tag model skips := by
  simp only [rawTags, List.mem_cons, List.not_mem_nil, or_false] at h
  rcases h with rfl | rfl | rfl | rfl
  · exact ⟨_, _, .script⟩
  · exact ⟨_, _, .style⟩
  · exact ⟨_, _, .title⟩
  · exact ⟨_, _, .textarea⟩

/-- They are closed by end tags, and text is permitted in them. -/
theorem find?_of_isRaw {tag : String} {model : Reading.TextModel} {skips : Bool}
    (h : Reading.IsRaw tag model skips) : ∃ info, Schema.html.find? tag = some info ∧
      info.hasClosingTag = true ∧ info.allowsText = true := by
  have hentry : ∃ entry, entries.find? (fun entry => entry.tagName == tag) = some entry ∧
      entry.permittedChildElements = [Entry.textStruct] ∧ entry.hasClosingTag = true := by
    cases h <;> exact ⟨_, rfl, rfl, rfl⟩
  obtain ⟨entry, hfind, htext, hcloses⟩ := hentry
  have hlisted : Entry.listedTags entries entry.permittedChildElements = .ok [] := by
    rw [htext]
    rfl
  have hresolve : ∃ info, Entry.resolve entries entry = .ok info ∧ info.hasClosingTag = true ∧
      info.allowsText = true := by
    unfold Entry.resolve
    rw [hlisted]
    refine ⟨_, rfl, hcloses, ?_⟩
    simp [htext]
  obtain ⟨info, hinfo, hcloses, hallows⟩ := hresolve
  exact ⟨info, Entry.find?_filterMap_resolve hfind hinfo, hcloses, hallows⟩

end Html

namespace World

variable {w : World} {a : ArenaId} {tag : String} {model : Reading.TextModel} {skips : Bool}
  {s : String}

/-- An element whose text is not markup is made with its text as the only child. -/
theorem element_of_isRaw (hw : w.Reachable) (ha : w.Opened a)
    (hschema : (w.arena a).options.schema = .html)
    (hlimit : (w.arena a).options.maxNodes = none) (site : CallSite)
    (h : Reading.IsRaw tag model skips) (s : String) :
    ∃ (info : TagInfo) (attributes : List Attribute) (root child : Handle) (w' : World),
      perform (Build.element a site tag .empty [.text s]) w = (.ok root, w') ∧
      World.Grows w w' ∧ info.tagName = tag ∧ info.hasClosingTag = true ∧
      (∀ given ∈ attributes, Text.isAttributeName given.name) ∧
      (Tree.node root (.element ⟨info, attributes, [child]⟩)
        [.node child (.text s) []]).Stored w' a := by
  obtain ⟨info, hinfo, hcloses, hallows⟩ := Html.find?_of_isRaw h
  have hname := Schema.tagName_of_find? hinfo
  have haccept : w.accept a tag .empty (Child.listParts [.text s]) = .ok (info, []) := by
    rw [← hschema] at hinfo
    refine accept_eq_ok_iff.mpr ⟨hinfo, rfl, fun _ => ⟨rfl, ?_⟩⟩
    rw [hw.ordered.checkParts_eq_ok_iff]
    refine List.forall_mem_singleton.mpr ?_
    rw [← hname] at hinfo
    exact (checkText_eq_ok_iff hinfo).mpr fun _ => hallows
  generalize hsite : (if (w.arena a).options.traceConstruction then some site else none) = traced
  have hquiet : Build.announce w a traced tag [] = w := by
    unfold Build.announce
    rw [List.any_nil, Bool.and_false]
    rfl
  have hplace := Build.perform_elementAt w a traced tag .empty [.text s]
  rw [haccept] at hplace
  dsimp only at hplace
  rw [hquiet] at hplace
  obtain ⟨root, w', hrun⟩ : ∃ root w',
      perform (Build.elementAt a traced tag .empty [.text s]) w = (.ok root, w') := by
    refine ⟨_, _, hplace.trans (Build.storeOver_of_unlimited ha hlimit (fun _ => rfl) ?_)⟩
    intro h hpart
    cases List.mem_singleton.mp hpart
  obtain ⟨hgrow, hpost⟩ :=
    Build.yields_elementAt ha traced tag .empty [.text s] w w' root (.refl w) hrun
  obtain ⟨info', given, handles, hinfo', hgiven, hplaced, hhold⟩ := hpost w' (.refl w')
  rw [hschema, hinfo] at hinfo'
  obtain rfl := Option.some.inj hinfo'
  obtain rfl : given = [] := (normalize_eq_ok_iff.mp hgiven).1
  have hplaced : List.Forall₂ (Build.Placed w' a) [.text s] handles := hplaced
  obtain ⟨child, rest, hchild, hrest, rfl⟩ := List.forall₂_cons_left_iff.mp hplaced
  obtain rfl := List.forall₂_nil_left_iff.mp hrest
  refine ⟨info, Build.withSite traced [], root, child, w', ?_, hgrow, hname, hcloses, ?_, ?_⟩
  · rw [Build.perform_element, hsite, hrun]
  · cases traced with
    | none => exact List.forall_mem_nil _
    | some site =>
      have htitle : Text.isAttributeName Build.siteAttribute := by decide
      exact List.forall_mem_singleton.mpr htitle
  · refine .node hhold.resolve rfl (List.forall_mem_singleton.mpr ?_)
    exact .node (World.Holds.resolve hchild) rfl (List.forall_mem_nil _)

/-- The text of such an element is its own, and what is read in its markup is what its rules
take. -/
theorem reread_of_isRaw (hw : w.Reachable) (ha : w.Opened a)
    (hschema : (w.arena a).options.schema = .html)
    (hlimit : (w.arena a).options.maxNodes = none) (site : CallSite)
    (h : Reading.IsRaw tag model skips) (hnul : '\x00' ∉ s.toList) (hreturn : '\r' ∉ s.toList) :
    ∃ root w' markup, perform (Build.element a site tag .empty [.text s]) w = (.ok root, w') ∧
      World.Grows w w' ∧ w'.Reachable ∧ w'.textContent a root = .ok s ∧
      w'.preserialize a root = .ok markup ∧
      ∀ {v : World} {b g}, v.Reachable → v.resolve b g = .ok (.rendered markup) →
        v.textContent b g =
          .ok (String.ofList (Reading.takenText model.references skips s.toList)) := by
  obtain ⟨info, attributes, root, child, w', hrun, hgrow, rfl, hcloses, hnames, hstored⟩ :=
    element_of_isRaw hw ha hschema hlimit site h s
  have hw' : w'.Reachable := by
    have hcall := hw.call (.element a site info.tagName .empty [.text s])
    rwa [hrun] at hcall
  refine ⟨root, w', _, hrun, hgrow, hw', ?_, hw'.ordered.preserialize_eq hstored, ?_⟩
  · have hown : ∀ v ∈ (Tree.node root (.element ⟨info, attributes, [child]⟩)
        [.node child (.text s) []]).visits 0, ownText v.node = .ok v.node.words := by
      simp [Tree.visits, Tree.visitsAll, ownText, Node.words]
    have hwords := (textContent_of_texts (hw'.ordered.walk_eq hstored) hown).trans
      (congrArg Except.ok (hstored.join_visits 0))
    refine hwords.trans (congrArg Except.ok ?_)
    exact String.append_empty
  · intro v b g hv hr
    obtain ⟨summary, hsummary, htext⟩ := Content.summarize_of_isRaw h hcloses hnames hnul hreturn
    rw [hv.ordered.textContent_of_rendered hr hsummary, htext]

/-- The text of a script, a style sheet, a title or a text area is its own as long as it is not
rendered. What is read in its markup is the text as it was escaped in scripts and style sheets, the
text itself in titles, and the text without a line feed at its start in text areas, so it is the
same only where nothing is escaped or dropped. -/
theorem raw_text_reread (hw : w.Reachable) (ha : w.Opened a)
    (hschema : (w.arena a).options.schema = .html)
    (hlimit : (w.arena a).options.maxNodes = none) (site : CallSite) (htag : tag ∈ Html.rawTags)
    (hnul : '\x00' ∉ s.toList) (hreturn : '\r' ∉ s.toList) :
    ∃ root w' markup, perform (Build.element a site tag .empty [.text s]) w = (.ok root, w') ∧
      w'.textContent a root = .ok s ∧ w'.preserialize a root = .ok markup ∧
      ∀ {v : World} {b g}, v.Reachable → v.resolve b g = .ok (.rendered markup) →
        v.textContent b g = .ok (Reading.rereadText tag s) ∧
        (v.textContent b g = .ok s ↔ Reading.Unharmed tag s) := by
  obtain ⟨model, skips, h⟩ := Html.exists_isRaw htag
  obtain ⟨root, w', markup, hrun, -, -, htext, hmarkup, hreread⟩ :=
    reread_of_isRaw hw ha hschema hlimit site h hnul hreturn
  refine ⟨root, w', markup, hrun, htext, hmarkup, fun hv hr => ?_⟩
  rw [hreread hv hr, h.ofList_takenText]
  refine ⟨rfl, ?_⟩
  rw [Except.ok.injEq]
  exact h.rereadText_eq_iff

end World

/-- An arena for any markup. -/
def barePage : World := { arenas := #[{ options := {}, listener := none }] }

theorem reachable_barePage : barePage.Reachable := World.reachable_empty.call (.openArena {} none)

/-- A text area loses the line feed at the start of its text. -/
theorem raw_text_reread_of_textarea :
    barePage.Reachable ∧ barePage.Opened ⟨0⟩ ∧ "textarea" ∈ Html.rawTags ∧
    (barePage.arena ⟨0⟩).options.schema = .html ∧
    (barePage.arena ⟨0⟩).options.maxNodes = none ∧
    ∃ root w' markup, perform (Build.element ⟨0⟩ ⟨[], []⟩ "textarea" .empty [.text "\n1 < 2"])
        barePage = (.ok root, w') ∧
      w'.textContent ⟨0⟩ root = .ok "\n1 < 2" ∧ w'.preserialize ⟨0⟩ root = .ok markup ∧
      ∀ {v : World} {b g}, v.Reachable → v.resolve b g = .ok (.rendered markup) →
        v.textContent b g = .ok "1 < 2" := by
  have hopened : barePage.Opened ⟨0⟩ := Nat.zero_lt_one
  have htag : "textarea" ∈ Html.rawTags := by decide
  obtain ⟨root, w', markup, hrun, htext, hmarkup, hreread⟩ :=
    World.raw_text_reread reachable_barePage hopened rfl rfl ⟨[], []⟩ htag
      (show '\x00' ∉ "\n1 < 2".toList by decide) (by decide)
  exact ⟨reachable_barePage, hopened, htag, rfl, rfl, root, w', markup, hrun, htext, hmarkup,
    fun hv hr => (hreread hv hr).1⟩

/-- A script is read back as it was escaped. -/
theorem escaped_in_script :
    barePage.Reachable ∧ ∃ root w' markup g v,
      perform (Build.element ⟨0⟩ ⟨[], []⟩ "script" .empty [.text "a<b"]) barePage =
        (.ok root, w') ∧
      w'.textContent ⟨0⟩ root = .ok "a<b" ∧ w'.preserialize ⟨0⟩ root = .ok markup ∧
      perform (Build.rendered ⟨0⟩ markup) w' = (.ok g, v) ∧
      v.textContent ⟨0⟩ g = .ok "a&lt;b" := by
  have hopened : barePage.Opened ⟨0⟩ := Nat.zero_lt_one
  obtain ⟨root, w', markup, hrun, hgrow, hw', htext, hmarkup, hreread⟩ :=
    World.reread_of_isRaw reachable_barePage hopened rfl rfl ⟨[], []⟩ .script
      (show '\x00' ∉ "a<b".toList by decide) (by decide)
  have hroom : (w'.arena ⟨0⟩).exceededLimit? = none := by
    rw [Arena.exceededLimit?, hgrow.options hopened]
    rfl
  have hstore : perform (Build.rendered ⟨0⟩ markup) w' = _ :=
    allocate_of_resolves hroom (List.forall_mem_nil _)
  obtain ⟨-, hhold⟩ := yields_allocate (hgrow.opened ⟨0⟩ hopened) (.rendered markup) w' _ _
    (.refl w') hstore
  refine ⟨reachable_barePage, root, w', markup, _, _, hrun, htext, hmarkup, hstore, ?_⟩
  exact hreread (hw'.store ⟨0⟩ (.rendered markup) hroom (List.forall_mem_nil _))
    (hhold _ (.refl _)).resolve

end MarkupArena
