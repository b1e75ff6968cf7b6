import MarkupArena.Proofs.SoundMarkup
import MarkupArena.Proofs.Tokens
import MarkupArena.Proofs.Views

/-! Markup says what it was rendered from. Reading its pieces from the last to the first gives back
the tree, but for fragments and for how its text was divided into nodes. -/
namespace MarkupArena

/-- Content without fragments. -/
inductive Piece where
  | element (tag : String) (attributes : List Attribute) (children : List Piece)
  | text (value : String)
  | rendered (markup : Rendered)

namespace Piece

/-- Puts a piece before others. An empty text is dropped, and a text is joined with one after it. -/
def before : Piece → List Piece → List Piece
  | .text value, pieces =>
    if value = "" then pieces
    else match pieces with
      | .text next :: rest => .text (value ++ next) :: rest
      | _ => .text value :: pieces
  | piece, pieces => piece :: pieces

/-- Joins adjacent texts and drops empty ones. -/
def join (pieces : List Piece) : List Piece := pieces.foldr before []

theorem before_text_text (value next : String) (pieces : List Piece) :
    before (.text value) (before (.text next) pieces) = before (.text (value ++ next)) pieces := by
  by_cases hvalue : value = ""
  · subst hvalue
    simp [before]
  · by_cases hnext : next = ""
    · subst hnext
      simp [before]
    · have hboth : value ++ next ≠ "" := fun he => hvalue (String.append_eq_empty_iff.mp he).1
      match pieces with
      | [] => simp [before, hvalue, hnext, hboth]
      | .element .. :: rest => simp [before, hvalue, hnext, hboth]
      | .rendered _ :: rest => simp [before, hvalue, hnext, hboth]
      | .text last :: rest => simp [before, hvalue, hnext, hboth, String.append_assoc]

end Piece

namespace Content

mutual

/-- The content with all fragments replaced by what is in them. -/
def pieces : Content → List Piece
  | element info attributes children =>
    [.element info.tagName attributes (Piece.join (piecesAll children))]
  | text value => [.text value]
  | fragment children => piecesAll children
  | rendered markup => [.rendered markup]

def piecesAll : List Content → List Piece
  | [] => []
  | content :: rest => content.pieces ++ piecesAll rest

end

/-- What is left of the content when fragments are spliced into their parents, adjacent texts are
joined and empty texts are dropped, at every level. -/
def normal (content : Content) : List Piece := Piece.join content.pieces

/-- Nothing was rendered before, the tags and attributes have names that can be read back, and a tag
without a closing tag, as `closes` has it, is empty. -/
inductive Legible (closes : String → Bool) : Content → Prop where
  | element {info : TagInfo} {attributes : List Attribute} {children : List Content} :
      Text.IsTagName info.tagName → info.hasClosingTag = closes info.tagName →
      (∀ given ∈ attributes, Text.isAttributeName given.name) →
      (info.hasClosingTag = false → children = []) →
      (∀ child ∈ children, Legible closes child) →
      Legible closes (.element info attributes children)
  | text (value : String) : Legible closes (.text value)
  | fragment {children : List Content} :
      (∀ child ∈ children, Legible closes child) → Legible closes (.fragment children)

mutual

/-- The tags and characters that the content is written in. -/
def tokens : Content → List Token
  | element info attributes children =>
    .start info.tagName attributes ::
      (tokensAll children ++ if info.hasClosingTag then [.finish info.tagName] else [])
  | text value => value.toList.map .char
  | fragment children => tokensAll children
  | rendered _ => []

def tokensAll : List Content → List Token
  | [] => []
  | content :: rest => content.tokens ++ tokensAll rest

end

section
variable {closes : String → Bool} {content : Content}

theorem toList_markups {contents : List Content}
    (h : ∀ content ∈ contents, content.markup.toList = content.tokens.flatMap Token.write) :
    (String.join (markups contents)).toList = (tokensAll contents).flatMap Token.write := by
  induction contents with
  | nil => rfl
  | cons content rest ih =>
    rw [List.forall_mem_cons] at h
    rw [markups, String.join_cons, String.toList_append, h.1, ih h.2, tokensAll,
      List.flatMap_append]

theorem Legible.toList_markup (h : content.Legible closes) :
    content.markup.toList = content.tokens.flatMap Token.write := by
  induction h with
  | @element info attributes children _ _ _ _ _ ih =>
    have hattributes : (String.join (attributes.map World.attributeText)).toList =
        attributes.flatMap writeAttribute := by
      rw [String.toList_join, List.flatMap_map]
      exact List.flatMap_congr fun given _ => toList_attributeText given
    have hclose : (World.endTagText ⟨info, attributes, []⟩).toList =
        (if info.hasClosingTag then [Token.finish info.tagName] else []).flatMap Token.write := by
      unfold World.endTagText
      cases info.hasClosingTag <;> simp [Token.write, Element.tag]
    rw [markup, String.toList_append, String.toList_append, toList_markups ih, hclose, tokens,
      List.flatMap_cons, List.flatMap_append]
    simp [World.startTagText, Element.tag, hattributes, Token.write]
  | text value =>
    simp [markup, tokens, Text.escapeText, Text.escapeTextChars_eq_flatMap, List.flatMap_map,
      Token.write]
  | fragment _ ih => exact toList_markups ih

theorem mem_tokensAll {contents : List Content} {token : Token} :
    token ∈ tokensAll contents ↔ ∃ content ∈ contents, token ∈ content.tokens := by
  induction contents with
  | nil => simp [tokensAll]
  | cons content rest ih => simp [tokensAll, ih]

theorem Legible.tokens_legible (h : content.Legible closes) :
    ∀ token ∈ content.tokens, token.Legible := by
  induction h with
  | @element info attributes children htag _ hattributes _ _ ih =>
    intro token htoken
    rcases List.mem_cons.mp htoken with rfl | htoken
    · exact ⟨htag, hattributes⟩
    rcases List.mem_append.mp htoken with htoken | htoken
    · obtain ⟨child, hchild, htoken⟩ := mem_tokensAll.mp htoken
      exact ih child hchild token htoken
    · split at htoken
      · obtain rfl := List.mem_singleton.mp htoken
        exact htag
      · cases htoken
  | text value =>
    intro token htoken
    obtain ⟨c, -, rfl⟩ := List.mem_map.mp htoken
    exact True.intro
  | fragment _ ih =>
    intro token htoken
    obtain ⟨child, hchild, htoken⟩ := mem_tokensAll.mp htoken
    exact ih child hchild token htoken

end

end Content

namespace Token

/-- Reads a token before those read so far. The levels are the elements that are closed but not yet
begun, innermost first: each holds what was read in it. -/
def read (closes : String → Bool) : Token → List (List Piece) → List (List Piece)
  | start tag attributes, levels =>
    match closes tag, levels with
    | true, inner :: outer :: levels =>
      Piece.before (.element tag attributes inner) outer :: levels
    | false, outer :: levels => Piece.before (.element tag attributes []) outer :: levels
    | _, levels => levels
  | finish _, levels => [] :: levels
  | char c, inner :: levels => Piece.before (.text (String.ofList [c])) inner :: levels
  | _, levels => levels

theorem read_start_of_closes {closes : String → Bool} {tag : String} (h : closes tag = true)
    (attributes : List Attribute) (inner outer : List Piece) (levels : List (List Piece)) :
    read closes (.start tag attributes) (inner :: outer :: levels) =
      Piece.before (.element tag attributes inner) outer :: levels := by
  simp [read, h]

theorem read_start_of_empty {closes : String → Bool} {tag : String} (h : closes tag = false)
    (attributes : List Attribute) (outer : List Piece) (levels : List (List Piece)) :
    read closes (.start tag attributes) (outer :: levels) =
      Piece.before (.element tag attributes []) outer :: levels := by
  simp [read, h]

end Token

namespace Content

variable {closes : String → Bool} {content : Content}

theorem read_chars (chars : List Char) (inner : List Piece) (levels : List (List Piece)) :
    (chars.map Token.char).foldr (Token.read closes) (inner :: levels) =
      Piece.before (.text (String.ofList chars)) inner :: levels := by
  induction chars with
  | nil => rfl
  | cons c chars ih =>
    rw [List.map_cons, List.foldr_cons, ih, Token.read, Piece.before_text_text,
      ← String.ofList_append, List.singleton_append]

theorem read_tokensAll {contents : List Content}
    (h : ∀ content ∈ contents, ∀ inner levels,
      content.tokens.foldr (Token.read closes) (inner :: levels) =
        content.pieces.foldr Piece.before inner :: levels)
    (inner : List Piece) (levels : List (List Piece)) :
    (tokensAll contents).foldr (Token.read closes) (inner :: levels) =
      (piecesAll contents).foldr Piece.before inner :: levels := by
  induction contents with
  | nil => rfl
  | cons content rest ih =>
    rw [List.forall_mem_cons] at h
    rw [tokensAll, List.foldr_append, ih h.2, h.1, piecesAll, List.foldr_append]

/-- Reading what the content is written in puts its pieces before what was read. -/
theorem Legible.read_tokens (h : content.Legible closes) (inner : List Piece)
    (levels : List (List Piece)) :
    content.tokens.foldr (Token.read closes) (inner :: levels) =
      content.pieces.foldr Piece.before inner :: levels := by
  induction h generalizing inner levels with
  | @element info attributes children _ hcloses _ hempty _ ih =>
    rw [tokens, List.foldr_cons, List.foldr_append]
    cases hclosing : info.hasClosingTag with
    | true =>
      have hfinish : Token.read closes (.finish info.tagName) (inner :: levels) =
          [] :: inner :: levels := rfl
      rw [if_pos rfl, List.foldr_cons, List.foldr_nil, hfinish, read_tokensAll ih,
        Token.read_start_of_closes (hcloses.symm.trans hclosing)]
      rfl
    | false =>
      obtain rfl := hempty hclosing
      rw [if_neg Bool.false_ne_true, List.foldr_nil, tokensAll, List.foldr_nil,
        Token.read_start_of_empty (hcloses.symm.trans hclosing)]
      rfl
  | text value =>
    rw [tokens, read_chars, String.ofList_toList]
    rfl
  | fragment _ ih => exact read_tokensAll ih inner levels

/-- The content as a document is written, with the line that goes before it. -/
def document (content : Content) (withDoctype : Bool) : List Token :=
  if withDoctype then .doctype :: content.tokens else content.tokens

theorem Legible.document_legible (h : content.Legible closes) (withDoctype : Bool) :
    ∀ token ∈ content.document withDoctype, token.Legible := by
  cases withDoctype with
  | false => exact h.tokens_legible
  | true => exact List.forall_mem_cons.mpr ⟨True.intro, h.tokens_legible⟩

theorem Legible.read_document (h : content.Legible closes) (withDoctype : Bool) :
    (content.document withDoctype).foldr (Token.read closes) [[]] = [content.normal] := by
  cases withDoctype with
  | false => exact h.read_tokens [] []
  | true =>
    show Token.read closes .doctype (content.tokens.foldr (Token.read closes) [[]]) = _
    rw [h.read_tokens]
    rfl

end Content

namespace World

theorem toList_of_render {w : World} {a : ArenaId} {h : Handle} {content : Content}
    {closes : String → Bool} {withDoctype : Bool} {html : String} (hc : w.Denotes a h content)
    (hlegible : content.Legible closes) (hr : w.render a h withDoctype = .ok html) :
    html.toList = (content.document withDoctype).flatMap Token.write := by
  obtain ⟨other, hother, rfl⟩ := denotes_of_render hr
  obtain rfl := hother.unique hc
  cases withDoctype with
  | false => exact hlegible.toList_markup
  | true =>
    rw [if_pos rfl, String.toList_append, hlegible.toList_markup]
    rfl

/-- What was rendered can be told from its markup: no text, value or name that it holds can be
mistaken for markup. -/
theorem normal_eq_of_render_eq {w w' : World} {a a' : ArenaId} {h h' : Handle}
    {content content' : Content} {closes : String → Bool} {withDoctype withDoctype' : Bool}
    {html : String} (hc : w.Denotes a h content) (hc' : w'.Denotes a' h' content')
    (hlegible : content.Legible closes) (hlegible' : content'.Legible closes)
    (hr : w.render a h withDoctype = .ok html) (hr' : w'.render a' h' withDoctype' = .ok html) :
    content.normal = content'.normal := by
  have hsame : (content.document withDoctype).flatMap Token.write ++ [] =
      (content'.document withDoctype').flatMap Token.write ++ [] := by
    rw [← toList_of_render hc hlegible hr, ← toList_of_render hc' hlegible' hr']
  have hend : ∀ (token : Token) t, token.Legible → token.write ++ t ≠ [] := by
    intro token t _ he
    exact token.write_ne_nil (List.append_eq_nil_iff.mp he).1
  obtain ⟨htokens, -⟩ := Token.separable_write.run (hlegible.document_legible withDoctype)
    (hlegible'.document_legible withDoctype') hend hend hsame
  have hread := hlegible.read_document withDoctype
  rw [htokens, hlegible'.read_document withDoctype'] at hread
  exact (List.cons.inj hread).1.symm

end World

/-- A text, the same text in two parts, and a paragraph around each, with a title that holds what
ends a value and a tag. -/
def twoParagraphs : World :=
  { arenas := #[{
      options := { schema := prose }
      listener := none
      nodes := #[.text "a<b", .text "a", .text "<b",
        .fragment [ArenaId.handle ⟨0⟩ 0 1, ArenaId.handle ⟨0⟩ 0 2],
        .element ⟨paragraph, [⟨"title", "\">"⟩], [ArenaId.handle ⟨0⟩ 0 0]⟩,
        .element ⟨paragraph, [⟨"title", "\">"⟩], [ArenaId.handle ⟨0⟩ 0 3]⟩] }]
    stored := 6 }

def wholeParagraph : Tree :=
  .node (ArenaId.handle ⟨0⟩ 0 4)
    (.element ⟨paragraph, [⟨"title", "\">"⟩], [ArenaId.handle ⟨0⟩ 0 0]⟩)
    [.node (ArenaId.handle ⟨0⟩ 0 0) (.text "a<b") []]

def splitParagraph : Tree :=
  .node (ArenaId.handle ⟨0⟩ 0 5)
    (.element ⟨paragraph, [⟨"title", "\">"⟩], [ArenaId.handle ⟨0⟩ 0 3]⟩)
    [.node (ArenaId.handle ⟨0⟩ 0 3)
      (.fragment [ArenaId.handle ⟨0⟩ 0 1, ArenaId.handle ⟨0⟩ 0 2])
      [.node (ArenaId.handle ⟨0⟩ 0 1) (.text "a") [],
        .node (ArenaId.handle ⟨0⟩ 0 2) (.text "<b") []]]

theorem stored_wholeParagraph : wholeParagraph.Stored twoParagraphs ⟨0⟩ := by
  refine .node (World.Holds.resolve ⟨4, 0, rfl, rfl⟩) rfl fun child hchild => ?_
  obtain rfl := List.mem_singleton.mp hchild
  exact .node (World.Holds.resolve ⟨0, 0, rfl, rfl⟩) rfl (by simp)

theorem stored_splitParagraph : splitParagraph.Stored twoParagraphs ⟨0⟩ := by
  refine .node (World.Holds.resolve ⟨5, 0, rfl, rfl⟩) rfl fun child hchild => ?_
  obtain rfl := List.mem_singleton.mp hchild
  refine .node (World.Holds.resolve ⟨3, 0, rfl, rfl⟩) rfl fun part hpart => ?_
  rcases List.mem_pair.mp hpart with rfl | rfl
  · exact .node (World.Holds.resolve ⟨1, 0, rfl, rfl⟩) rfl (by simp)
  · exact .node (World.Holds.resolve ⟨2, 0, rfl, rfl⟩) rfl (by simp)

theorem isTagName_paragraph : Text.IsTagName paragraph.tagName := by
  refine ⟨by decide, fun c hc => ?_⟩
  obtain rfl : c = 'p' := List.mem_singleton.mp hc
  decide

theorem legible_wholeParagraph : wholeParagraph.content.Legible fun _ => true := by
  refine .element isTagName_paragraph rfl (by decide) nofun fun child hchild => ?_
  obtain rfl := List.mem_singleton.mp hchild
  exact .text _

theorem legible_splitParagraph : splitParagraph.content.Legible fun _ => true := by
  refine .element isTagName_paragraph rfl (by decide) nofun fun child hchild => ?_
  obtain rfl := List.mem_singleton.mp hchild
  refine .fragment fun part hpart => ?_
  rcases List.mem_pair.mp hpart with rfl | rfl
  · exact .text _
  · exact .text _

theorem normal_eq_of_twoParagraphs : ∃ html,
    twoParagraphs.render ⟨0⟩ wholeParagraph.handle false = .ok html ∧
    twoParagraphs.render ⟨0⟩ splitParagraph.handle false = .ok html ∧
    wholeParagraph.content.Legible (fun _ => true) ∧
    splitParagraph.content.Legible (fun _ => true) ∧
    wholeParagraph.content.normal = splitParagraph.content.normal := by
  have hwhole := World.render_of_stored stored_wholeParagraph (by decide) false
  have hsplit := World.render_of_stored stored_splitParagraph (by decide) false
  have hsame : splitParagraph.content.markup = wholeParagraph.content.markup := by decide
  rw [hsame] at hsplit
  exact ⟨_, hwhole, hsplit, legible_wholeParagraph, legible_splitParagraph,
    World.normal_eq_of_render_eq ⟨_, stored_wholeParagraph, rfl, rfl⟩
      ⟨_, stored_splitParagraph, rfl, rfl⟩ legible_wholeParagraph legible_splitParagraph hwhole
      hsplit⟩

end MarkupArena
