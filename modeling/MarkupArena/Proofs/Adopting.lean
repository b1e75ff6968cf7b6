import MarkupArena.Proofs.Rereading
import MarkupArena.Proofs.Traversal

/-! Adopting markup that was rendered. Its summary and its text are those of the tree it was
rendered from, where divisions and spans have end tags. -/
namespace MarkupArena

namespace Reading

theorem textOfAll_append (contents others : List Content) :
    Content.textOfAll (contents ++ others) =
      Content.textOfAll contents ++ Content.textOfAll others := by
  induction contents with
  | nil => exact (String.empty_append).symm
  | cons content rest ih =>
    rw [List.cons_append, Content.textOfAll, ih, Content.textOfAll, String.append_assoc]

/-- What is added to contents, the last of which come first, adds some tags and some text. -/
structure Shows (add : List Content → List Content) (tags : List String) (hasText : Bool)
    (text : String) : Prop where
  tags_eq : ∀ back, (add back).reverse.filterMap Content.tag? =
    back.reverse.filterMap Content.tag? ++ tags
  hasText_eq : ∀ back, (add back).any Content.isVisibleText =
    (back.any Content.isVisibleText || hasText)
  text_eq : ∀ back, Content.textOfAll (add back).reverse = Content.textOfAll back.reverse ++ text

theorem Shows.refl : Shows id [] false "" where
  tags_eq _ := (List.append_nil _).symm
  hasText_eq _ := (Bool.or_false _).symm
  text_eq _ := String.append_empty.symm

section
variable {add more : List Content → List Content} {tags others : List String}
  {hasText hasMore : Bool} {text rest : String}

theorem Shows.trans (h : Shows add tags hasText text) (h' : Shows more others hasMore rest) :
    Shows (fun back => more (add back)) (tags ++ others) (hasText || hasMore) (text ++ rest) where
  tags_eq back := by rw [h'.tags_eq, h.tags_eq, List.append_assoc]
  hasText_eq back := by rw [h'.hasText_eq, h.hasText_eq, Bool.or_assoc]
  text_eq back := by rw [h'.text_eq, h.text_eq, String.append_assoc]

theorem shows_addText (value : String) :
    Shows (Content.addText value) [] (!Text.onlyMarkupSpace value) value where
  tags_eq back := by
    match back with
    | [] => rfl
    | .text before :: rest =>
      simp [Content.addText, Content.tag?]
      rfl
    | .element name children :: rest => simp [Content.addText, Content.tag?]
  hasText_eq back := by
    match back with
    | [] => simp [Content.addText, Content.isVisibleText]
    | .text before :: rest =>
      simp [Content.addText, Content.isVisibleText, Text.onlyMarkupSpace, Bool.or_right_comm]
    | .element name children :: rest =>
      simp [Content.addText, Content.isVisibleText, Bool.or_comm]
  text_eq back := by
    match back with
    | [] => simp [Content.addText, Content.textOfAll, Content.textOf]
    | .text before :: rest =>
      simp [Content.addText, Content.textOfAll, Content.textOf, textOfAll_append,
        String.append_assoc]
    | .element name children :: rest =>
      simp [Content.addText, Content.textOfAll, Content.textOf, textOfAll_append,
        String.append_assoc]

theorem shows_element (name : String) (children : List Content) :
    Shows (.element name children :: ·) [name] false (Content.textOfAll children) where
  tags_eq back := by simp [Content.tag?]
  hasText_eq back := by simp [Content.isVisibleText]
  text_eq back := by simp [Content.textOfAll, Content.textOf, textOfAll_append]

theorem shows_chars (chars : List Char) :
    Shows (fun back => chars.foldl (fun back c => Content.addText (String.singleton c) back) back)
      [] (!chars.all Text.isMarkupSpace) (String.ofList chars) := by
  induction chars with
  | nil => exact .refl
  | cons c chars ih =>
    have hboth := (shows_addText (String.singleton c)).trans ih
    have hblank : (!Text.onlyMarkupSpace (String.singleton c) || !chars.all Text.isMarkupSpace) =
        !(c :: chars).all Text.isMarkupSpace := by
      simp [Text.onlyMarkupSpace]
    have htext : String.singleton c ++ String.ofList chars = String.ofList (c :: chars) :=
      String.toList_injective (by simp)
    rw [hblank, htext] at hboth
    exact hboth

end

end Reading

namespace Content

mutual

/-- All text of the content, tags dropped. -/
def words : Content → String
  | element _ _ children => wordsAll children
  | text value => value
  | fragment children => wordsAll children
  | rendered _ => ""

def wordsAll : List Content → String
  | [] => ""
  | content :: rest => content.words ++ wordsAll rest

end

variable {content : Content}

theorem shows_readAllAfter {contents : List Content}
    (h : ∀ content ∈ contents, Reading.Shows content.readAfter content.summary.1 content.summary.2
      content.words) :
    Reading.Shows (readAllAfter contents) ((summaries contents).flatMap Prod.fst)
      ((summaries contents).any Prod.snd) (wordsAll contents) := by
  induction contents with
  | nil => exact .refl
  | cons content rest ih =>
    rw [List.forall_mem_cons] at h
    exact h.1.trans (ih h.2)

/-- What content is read as has the tags and the text of the content. -/
theorem Flowing.shows (h : content.Flowing TagInfo.hasClosingTag) :
    Reading.Shows content.readAfter content.summary.1 content.summary.2 content.words := by
  induction h with
  | @element info attributes children _ _ _ _ ih =>
    have hinside := (shows_readAllAfter ih).text_eq []
    have hwhole := Reading.shows_element info.tagName (readAllAfter children []).reverse
    rw [hinside, List.reverse_nil, Reading.Content.textOfAll, String.empty_append] at hwhole
    exact hwhole
  | @text value =>
    have hchars := Reading.shows_chars value.toList
    rw [String.ofList_toList] at hchars
    exact hchars
  | fragment _ ih => exact shows_readAllAfter ih

/-- Reading the markup of divisions and spans gives the summary and the text of what was
rendered. -/
theorem Flowing.summarize_markup (h : content.Flowing TagInfo.hasClosingTag) :
    Reading.summarize content.markup =
      .ok ⟨Text.distinct content.summary.1, content.summary.2, content.words⟩ := by
  have htags := h.shows.tags_eq []
  have hvisible := h.shows.hasText_eq []
  have hwords := h.shows.text_eq []
  rw [List.reverse_nil, List.filterMap_nil, List.nil_append] at htags
  rw [List.any_nil, Bool.false_or, ← List.any_reverse] at hvisible
  rw [List.reverse_nil, Reading.Content.textOfAll, String.empty_append] at hwords
  unfold Reading.summarize
  rw [h.read_markup]
  show Except.ok (Reading.Summary.mk _ _ _) = _
  rw [htags, hvisible, hwords]

theorem Flowing.adopt_markup (h : content.Flowing TagInfo.hasClosingTag) :
    Reading.adopt content.markup = .ok content.preserialized := by
  unfold Reading.adopt
  rw [h.summarize_markup]
  rfl

end Content

namespace World

variable {w : World} {a : ArenaId}

theorem textContent_of_texts {root : Handle} {visited : List Visited}
    (hwalk : w.walk a root = .ok visited) {text : Visited → String}
    (htext : ∀ v ∈ visited, ownText v.node = .ok (text v)) :
    w.textContent a root = .ok (String.join (visited.map text)) := by
  rw [textContent_of_walk hwalk, mapM_eq_ok htext]
  rfl

end World

/-- The text of a node of its own, if it was not rendered before. -/
def Node.words : Node → String
  | .text value => value
  | _ => ""

namespace Tree

variable {w : World} {a : ArenaId} {admits : TagInfo → Bool}

theorem join_visitsAll {trees : List Tree} (h : ∀ tree ∈ trees, ∀ depth,
    String.join ((tree.visits depth).map fun v => v.node.words) = tree.content.words)
    (depth : Nat) :
    String.join ((visitsAll depth trees).map fun v => v.node.words) =
      Content.wordsAll (contents trees) := by
  induction trees with
  | nil => rfl
  | cons tree rest ih =>
    rw [List.forall_mem_cons] at h
    rw [visitsAll, List.map_append, String.join_append, h.1, ih h.2]
    rfl

/-- The nodes that a walk visits hold the text of the tree, piece by piece. -/
theorem Stored.join_visits {tree : Tree} (hstored : tree.Stored w a) (depth : Nat) :
    String.join ((tree.visits depth).map fun v => v.node.words) = tree.content.words := by
  induction hstored generalizing depth with
  | @node handle stored children hresolve hhandles hchildren ih =>
    have hinside := join_visitsAll ih (depth + 1)
    rw [visits, List.map_cons, String.join_cons, hinside, content]
    cases stored with
    | element e => exact String.empty_append
    | fragment handles => exact String.empty_append
    | text value =>
      obtain rfl := List.map_eq_nil_iff.mp hhandles
      exact String.append_empty
    | rendered markup =>
      obtain rfl := List.map_eq_nil_iff.mp hhandles
      exact String.append_empty

theorem Stored.ownText_of_visits {tree : Tree} (hstored : tree.Stored w a)
    (h : tree.content.Flowing admits) {depth : Nat} {v : Visited}
    (hv : v ∈ tree.visits depth) : World.ownText v.node = .ok v.node.words := by
  induction hstored generalizing depth with
  | @node handle stored children hresolve hhandles hchildren ih =>
    have hbelow : (∀ content ∈ contents children, content.Flowing admits) →
        v ∈ visitsAll (depth + 1) children → World.ownText v.node = .ok v.node.words := by
      intro hall hmem
      obtain ⟨child, hchild, hmem⟩ := mem_visitsAll.mp hmem
      rw [contents_eq_map] at hall
      exact ih child hchild (hall _ (List.mem_map_of_mem hchild)) hmem
    rw [visits, List.mem_cons] at hv
    rw [content] at h
    cases stored with
    | element e =>
      cases h with
      | element _ _ _ hall => exact hv.elim (fun he => he ▸ rfl) (hbelow hall)
    | fragment handles =>
      cases h with
      | fragment hall => exact hv.elim (fun he => he ▸ rfl) (hbelow hall)
    | text value =>
      obtain rfl := List.map_eq_nil_iff.mp hhandles
      exact hv.elim (fun he => he ▸ rfl) (hbelow (List.forall_mem_nil _))
    -- The text of markup rendered before would have to be read, but there is none of it here.
    | rendered markup => cases h

end Tree

namespace World

variable {w : World} {a : ArenaId}

theorem Ordered.textContent_eq {admits : TagInfo → Bool} (hw : w.Ordered) {tree : Tree}
    (hstored : tree.Stored w a) (h : tree.content.Flowing admits) :
    w.textContent a tree.handle = .ok tree.content.words := by
  rw [textContent_of_texts (hw.walk_eq hstored) fun v hv => hstored.ownText_of_visits h hv,
    hstored.join_visits]

/-- The text of markup that was rendered before is what reading it gives. -/
theorem Ordered.textContent_of_rendered (hw : w.Ordered) {h : Handle} {markup : Rendered}
    (hr : w.resolve a h = .ok (.rendered markup)) {summary : Reading.Summary}
    (hsummary : Reading.summarize markup.html = .ok summary) :
    w.textContent a h = .ok summary.text := by
  rw [hw.textContent_of_leaf hr rfl, ownText, hsummary]

/-- Markup that was rendered from text and divisions and spans is adopted with the summary that
preserializing gives, and the text that is read in it is the text that was rendered. -/
theorem reads_back (hw : w.Reachable) {h : Handle} {content : Content} (hc : w.Denotes a h content)
    (hflowing : content.Flowing TagInfo.hasClosingTag) :
    ∃ html markup text, w.render a h false = .ok html ∧ w.preserialize a h = .ok markup ∧
      Reading.adopt html = .ok markup ∧ w.textContent a h = .ok text ∧
      ∀ {v : World} {b g held}, v.Reachable → v.resolve b g = .ok (.rendered held) →
        held.html = html → v.textContent b g = .ok text := by
  obtain ⟨tree, hstored, rfl, rfl⟩ := hc
  have hordered := hw.ordered
  refine ⟨tree.content.markup, tree.content.preserialized, tree.content.words,
    hordered.render_eq hstored false, hordered.preserialize_eq hstored,
    hflowing.adopt_markup, hordered.textContent_eq hstored hflowing, ?_⟩
  intro v b g held hv hr hhtml
  have hsummary := hflowing.summarize_markup
  rw [← hhtml] at hsummary
  exact hv.ordered.textContent_of_rendered hr hsummary

end World

/-- A division or a span, which may hold anything. -/
def flowTag (name structName : String) (closes : Bool) : TagInfo :=
  { tagName := name, structName, hasGlobalAttributes := true, hasClosingTag := closes
    attributes := [], contentCategories := [], permittedContent := [], excludedContent := []
    permittedChildTags := [], allowsText := true }

/-- A schema in which divisions may do without closing tags. -/
def flowSchema (closes : Bool) : Schema :=
  ⟨Number.ofNat 1, [flowTag "div" "Div" closes, flowTag "span" "Span" true], [], []⟩

def division (closes : Bool) : Element := ⟨flowTag "div" "Div" closes, [], []⟩

def note : Element :=
  ⟨flowTag "span" "Span" true, [⟨"Title", "\">"⟩], [ArenaId.handle ⟨0⟩ 0 0]⟩

/-- An empty division with a span behind it, whose title and text hold what ends values and tags. -/
def flowPage (closes : Bool) : World :=
  { arenas := #[{
      options := { schema := flowSchema closes }
      listener := none
      nodes := #[.text "a<b", .element note, .element (division closes),
        .fragment [ArenaId.handle ⟨0⟩ 0 2, ArenaId.handle ⟨0⟩ 0 1]] }]
    stored := 4 }

def flowTree (closes : Bool) : Tree :=
  .node (ArenaId.handle ⟨0⟩ 0 3) (.fragment [ArenaId.handle ⟨0⟩ 0 2, ArenaId.handle ⟨0⟩ 0 1])
    [.node (ArenaId.handle ⟨0⟩ 0 2) (.element (division closes)) [],
      .node (ArenaId.handle ⟨0⟩ 0 1) (.element note)
        [.node (ArenaId.handle ⟨0⟩ 0 0) (.text "a<b") []]]

theorem reachable_flowPage (closes : Bool) : (flowPage closes).Reachable := by
  have hopen := World.reachable_empty.call (.openArena { schema := flowSchema closes } none)
  have htext := hopen.store ⟨0⟩ (.text "a<b") rfl (List.forall_mem_nil _)
  have hnote := htext.store ⟨0⟩ (.element note) rfl <|
    List.forall_mem_singleton.mpr ⟨_, World.Holds.resolve ⟨0, 0, rfl, rfl⟩⟩
  have hdivision := hnote.store ⟨0⟩ (.element (division closes)) rfl (List.forall_mem_nil _)
  refine hdivision.store ⟨0⟩ (.fragment _) rfl fun child hchild => ?_
  rcases List.mem_pair.mp hchild with rfl | rfl
  · exact ⟨_, World.Holds.resolve ⟨2, 0, rfl, rfl⟩⟩
  · exact ⟨_, World.Holds.resolve ⟨1, 0, rfl, rfl⟩⟩

theorem stored_flowTree (closes : Bool) : (flowTree closes).Stored (flowPage closes) ⟨0⟩ := by
  refine .node (World.Holds.resolve ⟨3, 0, rfl, rfl⟩) rfl fun child hchild => ?_
  rcases List.mem_pair.mp hchild with rfl | rfl
  · exact .node (World.Holds.resolve ⟨2, 0, rfl, rfl⟩) rfl (List.forall_mem_nil _)
  · refine .node (World.Holds.resolve ⟨1, 0, rfl, rfl⟩) rfl fun text htext => ?_
    obtain rfl := List.mem_singleton.mp htext
    exact .node (World.Holds.resolve ⟨0, 0, rfl, rfl⟩) rfl (List.forall_mem_nil _)

theorem flowing_flowTree {closes : Bool} {admits : TagInfo → Bool}
    (hdivision : admits (flowTag "div" "Div" closes))
    (hspan : admits (flowTag "span" "Span" true)) :
    (flowTree closes).content.Flowing admits := by
  refine .fragment fun child hchild => ?_
  rcases List.mem_pair.mp hchild with rfl | rfl
  · exact .element (.inl rfl) hdivision (List.forall_mem_nil _) (List.forall_mem_nil _)
  · refine .element (.inr rfl) hspan (by decide +kernel) fun text htext => ?_
    obtain rfl := List.mem_singleton.mp htext
    exact .text (by decide) (by decide)

theorem legible_flowTree : (flowTree false).content.Legible (· != "div") := by
  refine .fragment fun child hchild => ?_
  rcases List.mem_pair.mp hchild with rfl | rfl
  · exact .element (Reading.isTagName_of_isFlow (.inl rfl)) rfl (List.forall_mem_nil _)
      (fun _ => rfl) (List.forall_mem_nil _)
  · refine .element (Reading.isTagName_of_isFlow (.inr rfl)) rfl (by decide +kernel) nofun
      fun text htext => ?_
    obtain rfl := List.mem_singleton.mp htext
    exact .text _

/-- The page as it is rendered, with what is read in it. -/
def flowMarkup : Rendered :=
  ⟨"<div></div><span Title=\"&quot;>\">a&lt;b</span>", ["div", "span"], false⟩

/-- The page with its markup beside it. -/
def keptPage : World := (flowPage true).store ⟨0⟩ (.rendered flowMarkup)

theorem reads_back_flowPage :
    (flowPage true).Reachable ∧
    (flowPage true).Denotes ⟨0⟩ (flowTree true).handle (flowTree true).content ∧
    (flowTree true).content.Flowing TagInfo.hasClosingTag ∧
    (flowPage true).render ⟨0⟩ (flowTree true).handle false = .ok flowMarkup.html ∧
    (flowPage true).preserialize ⟨0⟩ (flowTree true).handle = .ok flowMarkup ∧
    Reading.adopt flowMarkup.html = .ok flowMarkup ∧
    (flowPage true).textContent ⟨0⟩ (flowTree true).handle = .ok "a<b" ∧
    keptPage.Reachable ∧
    keptPage.resolve ⟨0⟩ (ArenaId.handle ⟨0⟩ 0 4) = .ok (.rendered flowMarkup) ∧
    keptPage.textContent ⟨0⟩ (ArenaId.handle ⟨0⟩ 0 4) = .ok "a<b" := by
  have hreachable := reachable_flowPage true
  have hstored := stored_flowTree true
  have hdenotes : (flowPage true).Denotes ⟨0⟩ (flowTree true).handle (flowTree true).content :=
    ⟨_, hstored, rfl, rfl⟩
  have hflowing : (flowTree true).content.Flowing TagInfo.hasClosingTag := flowing_flowTree rfl rfl
  have hkept : keptPage.Reachable :=
    hreachable.store ⟨0⟩ (.rendered flowMarkup) rfl (List.forall_mem_nil _)
  have hresolve : keptPage.resolve ⟨0⟩ (ArenaId.handle ⟨0⟩ 0 4) = .ok (.rendered flowMarkup) :=
    World.Holds.resolve ⟨4, 0, rfl, rfl⟩
  obtain ⟨html, markup, text, hrender, hpreserialize, hadopt, htext, hback⟩ :=
    World.reads_back hreachable hdenotes hflowing
  have hhtml : flowMarkup.html = html :=
    Except.ok.inj ((hreachable.ordered.render_eq hstored false).symm.trans hrender)
  have hmarkup : flowMarkup = markup :=
    Except.ok.inj ((hreachable.ordered.preserialize_eq hstored).symm.trans hpreserialize)
  have hwords : "a<b" = text :=
    Except.ok.inj ((hreachable.ordered.textContent_eq hstored hflowing).symm.trans htext)
  subst hhtml hmarkup hwords
  exact ⟨hreachable, hdenotes, hflowing, hrender, hpreserialize, hadopt, htext, hkept, hresolve,
    hback hkept hresolve rfl⟩

/-- A division without a closing tag is left open, so all that was rendered after it is read as what
it holds. -/
theorem left_open_of_flowPage :
    (flowPage false).Reachable ∧
    (flowPage false).Denotes ⟨0⟩ (flowTree false).handle (flowTree false).content ∧
    (flowTree false).content.Flowing
      (fun info => (flowSchema false).find? info.tagName = some info) ∧
    ∃ html markup adopted,
      (flowPage false).render ⟨0⟩ (flowTree false).handle false = .ok html ∧
      (flowPage false).preserialize ⟨0⟩ (flowTree false).handle = .ok markup ∧
      Reading.adopt html = .ok adopted ∧
      markup.tagNames = ["div", "span"] ∧ adopted.tagNames = ["div"] := by
  have hreachable := reachable_flowPage false
  have hstored := stored_flowTree false
  have hflowing : (flowTree false).content.Flowing fun info =>
      (flowSchema false).find? info.tagName = some info :=
    flowing_flowTree (by decide) (by decide)
  have hread := Reading.read_write hflowing.flows legible_flowTree.toList_markup
  have hadopt : ∃ adopted, Reading.adopt (flowTree false).content.markup = .ok adopted ∧
      adopted.tagNames = ["div"] := by
    unfold Reading.adopt Reading.summarize
    rw [hread]
    exact ⟨_, rfl, rfl⟩
  obtain ⟨adopted, hadopt, htags⟩ := hadopt
  exact ⟨hreachable, ⟨_, hstored, rfl, rfl⟩, hflowing, _, _, adopted,
    hreachable.ordered.render_eq hstored false, hreachable.ordered.preserialize_eq hstored, hadopt,
    rfl, htags⟩

end MarkupArena
