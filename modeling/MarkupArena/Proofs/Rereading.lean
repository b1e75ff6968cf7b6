import MarkupArena.Proofs.Decoding
import MarkupArena.Proofs.Nesting
import MarkupArena.Proofs.Scanning

/-! Reading back the markup of text, fragments, divisions and spans. It is read tag by tag and
character by character, and gives the content it was written for, texts side by side as one. -/
namespace MarkupArena

namespace Content

/-- Text, fragments, and divisions and spans whose entries are admitted. Text has neither a NUL,
which is lost in reading, nor a carriage return, which is read as a line feed. -/
inductive Flowing (admits : TagInfo → Bool) : Content → Prop where
  | element {info : TagInfo} {attributes : List Attribute} {children : List Content} :
      Reading.Builder.IsFlow info.tagName → admits info →
      (∀ given ∈ attributes, Text.isAttributeName given.name) →
      (∀ child ∈ children, Flowing admits child) →
      Flowing admits (.element info attributes children)
  | text {value : String} :
      '\x00' ∉ value.toList → '\r' ∉ value.toList → Flowing admits (.text value)
  | fragment {children : List Content} :
      (∀ child ∈ children, Flowing admits child) → Flowing admits (.fragment children)

mutual

/-- What has been read once the content was read after other content; the last comes first. -/
def readAfter : Content → List Reading.Content → List Reading.Content
  | element info _ children, back =>
    .element info.tagName (readAllAfter children []).reverse :: back
  | text value, back =>
    value.toList.foldl (fun back c => Reading.Content.addText (String.singleton c) back) back
  | fragment children, back => readAllAfter children back
  | rendered _, back => back

def readAllAfter : List Content → List Reading.Content → List Reading.Content
  | [], back => back
  | content :: rest, back => readAllAfter rest (content.readAfter back)

end

end Content

namespace Reading

/-- A piece of markup as it is read after its line ends were made alike. -/
def pieceRead (token : MarkupArena.Token) : Token := tokenRead (tokenUnified token)

namespace Builder

open Draft

/-- What is read adds to the innermost element and leaves the levels as they were. -/
structure Adds (levels : List OpenElement) (add : List Content → List Content) (b b' : Builder) :
    Prop where
  within : Within levels b'
  fills : Fills (top levels).number b.draft b'.draft
  back_eq : b'.draft.back (top levels).number = add (b.draft.back (top levels).number)

variable {levels : List OpenElement} {b b' b'' : Builder}

theorem Adds.refl (hb : Within levels b) : Adds levels id b b := ⟨hb, .refl _ _, rfl⟩

theorem Adds.trans {add more : List Content → List Content} (h : Adds levels add b b')
    (h' : Adds levels more b' b'') : Adds levels (fun back => more (add back)) b b'' where
  within := h'.within
  fills := h.fills.trans h'.fills
  back_eq := by rw [h'.back_eq, h.back_eq]

theorem adds_text {chars : List Char} (hnul : '\x00' ∉ chars) (hb : Within levels b) :
    Adds levels
      (fun back => chars.foldl (fun back c => Content.addText (String.singleton c) back) back) b
      (b.takeAll (chars.map .character)) := by
  induction chars generalizing b with
  | nil => exact .refl hb
  | cons c chars ih =>
    obtain ⟨hc, hchars⟩ := not_or.mp (mt List.mem_cons.mpr hnul)
    obtain ⟨hnext, hdraft⟩ := hb.take_character (Ne.symm hc)
    have hfirst : Adds levels (Content.addText (String.singleton c)) b (b.take (.character c)) :=
      { within := hnext
        fills := hdraft ▸ fills_append_text b.draft _ _
        back_eq := by rw [hdraft, back_append_text hb.growing hb.top_lt] }
    exact hfirst.trans (ih hchars hnext)

theorem adds_contents {contents : List MarkupArena.Content}
    (h : ∀ content ∈ contents, ∀ {levels b}, Within levels b →
      Adds levels content.readAfter b (b.takeAll (content.tokens.map pieceRead)))
    (hb : Within levels b) : Adds levels (MarkupArena.Content.readAllAfter contents) b
      (b.takeAll ((MarkupArena.Content.tokensAll contents).map pieceRead)) := by
  induction contents generalizing b with
  | nil => exact .refl hb
  | cons content rest ih =>
    rw [List.forall_mem_cons] at h
    have hfirst := h.1 hb
    rw [MarkupArena.Content.tokensAll, List.map_append, takeAll_append]
    exact hfirst.trans (ih h.2 hfirst.within)

/-- The content is read as it was written, at the end of whatever element is open. -/
theorem adds_content {content : MarkupArena.Content}
    (h : content.Flowing TagInfo.hasClosingTag) (hb : Within levels b) :
    Adds levels content.readAfter b (b.takeAll (content.tokens.map pieceRead)) := by
  induction h generalizing levels b with
  | @element info attributes children hname hcloses _ _ ih =>
    let tag : Tag := ⟨info.tagName, OpenTag.attributesRead (attributes.map attributeUnified), false⟩
    obtain ⟨hbegun, hdraft⟩ := hb.take_start tag hname
    have hinside := adds_contents ih hbegun
    -- The end tag meets the element that the start tag opened, so it closes that one alone.
    obtain ⟨n, -, hclosed, hsame, hone⟩ := hinside.within.take_finish hname
    obtain rfl : n = 1 := hone _ _ rfl rfl
    have hfills : Fills b.draft.size (b.draft.begin (top levels).number info.tagName) _ :=
      hdraft ▸ hinside.fills
    obtain ⟨hwhole, hback⟩ := hfills.of_begin hb.growing hb.top_lt hinside.within.growing
    have hinner := hinside.back_eq
    rw [hdraft, top, back_begin_new hb.top_lt] at hinner
    have hrun : b.takeAll ((MarkupArena.Content.element info attributes children).tokens.map
        pieceRead) = ((b.take (.start tag)).takeAll
          ((MarkupArena.Content.tokensAll children).map pieceRead)).take
            (.finish info.tagName) := by
      rw [MarkupArena.Content.tokens, hcloses, if_pos rfl, List.map_cons, List.map_append]
      exact takeAll_append _ _ _
    rw [hrun]
    refine ⟨hclosed, hsame ▸ hwhole, ?_⟩
    rw [hsame, hback, hinner, MarkupArena.Content.readAfter]
  | @text value hnul _ =>
    rw [MarkupArena.Content.tokens, List.map_map]
    exact adds_text hnul hb
  | fragment _ ih => exact adds_contents ih hb

theorem growing_start : Draft.start.Growing where
  later number child hchild := by
    rcases number with _ | _ | number
    · obtain rfl : child = 1 := by simpa [pieces, Draft.start, Draft.root] using hchild
      decide
    · simp [pieces, Draft.start] at hchild
    · simp [pieces, Draft.start] at hchild
  bare number branch hbranch := by
    rcases number with _ | _ | number
    · exact (Option.some.inj hbranch) ▸ rfl
    · exact (Option.some.inj hbranch) ▸ rfl
    · simp [Draft.start] at hbranch

theorem within_start : Within [] Builder.start where
  visible := rfl
  sunk := rfl
  debt := rfl
  outer := rfl
  flow := List.forall_mem_nil _
  numbers := List.forall_mem_nil _
  rooted := by decide
  growing := growing_start
  mode := .inr ⟨rfl, rfl⟩
  model := rfl
  fault := rfl
  formatting := rfl
  fostering := rfl
  skipNewline := rfl

/-- At the end of the text nothing else is to be closed. -/
theorem Within.content_eq (hb : Within levels b) : b.content = .ok b.draft.content := by
  have hnone : b.endMode? = none := by
    have htemplate : b.inTemplate = false := by
      unfold inTemplate OpenElements.any
      rw [hb.visible, hb.sunk]
      refine Bool.or_eq_false_iff.mpr ⟨List.any_eq_false.mpr fun e he => ?_, rfl⟩
      rcases List.mem_append.mp he with he | he
      · rcases (hb.flow e he).2 with hname | hname <;> simp [OpenElement.isHtml, hname]
      · obtain rfl := List.mem_singleton.mp he
        decide
    unfold endMode?
    rcases hb.mode with hmode | ⟨hmode, -⟩ <;> simp [hmode, htemplate]
  have hends : ∀ fuel, endModes fuel b = b := by
    intro fuel
    cases fuel with
    | zero => rfl
    | succ fuel => rw [endModes, hnone]
  unfold Builder.content
  rw [hends]
  dsimp only
  rw [hb.fault]

end Builder

/-- A tag of a division or a span, or a character that is read as it stands. -/
def Flows : MarkupArena.Token → Prop
  | .doctype => False
  | .start tag given => Builder.IsFlow tag ∧ ∀ g ∈ given, Text.isAttributeName g.name
  | .finish tag => Builder.IsFlow tag
  | .char c => c ≠ '\x00' ∧ c ≠ '\r'

theorem isPlainName_of_isFlow {name : String} (h : Builder.IsFlow name) : IsPlainName name := by
  rcases h with rfl | rfl
  · exact ⟨'d', ['i', 'v'], rfl, rfl, List.all_eq_true.mp rfl⟩
  · exact ⟨'s', ['p', 'a', 'n'], rfl, rfl, List.all_eq_true.mp rfl⟩

theorem isTagName_of_isFlow {name : String} (h : Builder.IsFlow name) : Text.IsTagName name := by
  rcases h with rfl | rfl
  · exact ⟨by decide, List.all_eq_true.mp rfl⟩
  · exact ⟨by decide, List.all_eq_true.mp rfl⟩

theorem Flows.readable {token : MarkupArena.Token} (h : Flows token) : Readable token := by
  cases token with
  | doctype => exact h
  | start => exact ⟨isPlainName_of_isFlow h.1, h.2⟩
  | finish => exact isPlainName_of_isFlow h
  | char => exact True.intro

theorem Flows.unified {token : MarkupArena.Token} (h : Flows token) :
    Flows (tokenUnified token) := by
  cases token with
  | start => exact ⟨h.1, List.forall_mem_map.mpr h.2⟩
  | doctype | finish | char => exact h

/-- Nothing but divisions and spans is open. -/
def Builder.Settled (b : Builder) : Prop := ∃ levels, Builder.Within levels b

theorem Flows.take {token : MarkupArena.Token} (h : Flows token) {b : Builder} (hb : b.Settled) :
    (b.take (tokenRead token)).Settled := by
  obtain ⟨levels, hb⟩ := hb
  cases token with
  | doctype => exact h.elim
  | start => exact ⟨_, (hb.take_start _ h.1).1⟩
  | finish =>
    obtain ⟨n, -, hclosed, -⟩ := hb.take_finish h
    exact ⟨_, hclosed⟩
  | char => exact ⟨_, (hb.take_character h.1).1⟩

/-- Markup that is written in tags of divisions and spans and in characters is read as these, one
after the other. -/
theorem read_write {tokens : List MarkupArena.Token} (hflows : ∀ token ∈ tokens, Flows token)
    {html : String} (hhtml : html.toList = tokens.flatMap MarkupArena.Token.write) :
    read html = .ok (Builder.start.takeAll (tokens.map pieceRead)).draft.content := by
  have hplain : .char '\r' ∉ tokens := fun hmem => (hflows _ hmem).2 rfl
  have hunified : ∀ token ∈ tokens.map tokenUnified, Flows token :=
    List.forall_mem_map.mpr fun token ht => (hflows token ht).unified
  have hreadable : ∀ token ∈ tokens.map tokenUnified, Readable token :=
    fun token ht => (hunified token ht).readable
  have hstart : Builder.start.Settled := ⟨[], Builder.within_start⟩
  have htake : ∀ b, Builder.Settled b → ∀ token ∈ tokens.map tokenUnified,
      (b.take (tokenRead token)).Settled := fun b hb token ht => (hunified token ht).take hb
  have hread := readAll_write (P := Builder.Settled) (fun b ⟨levels, hb⟩ => ⟨hb.fault, hb.model⟩)
    hreadable htake hstart le_rfl
  obtain ⟨levels, hend⟩ : (Builder.start.takeAll (tokens.map pieceRead)).Settled := by
    refine Builder.takeAll_keeps (P := Builder.Settled) hstart fun b hb token ht => ?_
    obtain ⟨piece, hpiece, rfl⟩ := List.mem_map.mp ht
    exact htake b hb _ (List.mem_map_of_mem hpiece)
  rw [List.map_map] at hread
  unfold read
  rw [hhtml, normalizeNewlines_write (fun token ht => (hflows token ht).readable) hplain]
  dsimp only
  rw [hread]
  exact hend.content_eq

end Reading

namespace Content

variable {content : Content} {admits : TagInfo → Bool}

theorem Flowing.legible (h : content.Flowing TagInfo.hasClosingTag) :
    content.Legible fun _ => true := by
  induction h with
  | element hname hcloses hattributes _ ih =>
    refine .element (Reading.isTagName_of_isFlow hname) hcloses hattributes (fun hopen => ?_) ih
    rw [hcloses] at hopen
    cases hopen
  | text => exact .text _
  | fragment _ ih => exact .fragment ih

theorem Flowing.flows (h : content.Flowing admits) :
    ∀ token ∈ content.tokens, Reading.Flows token := by
  induction h with
  | @element info attributes children hname _ hattributes _ ih =>
    intro token htoken
    rcases List.mem_cons.mp htoken with rfl | htoken
    · exact ⟨hname, hattributes⟩
    rcases List.mem_append.mp htoken with htoken | htoken
    · obtain ⟨child, hchild, htoken⟩ := mem_tokensAll.mp htoken
      exact ih child hchild token htoken
    · split at htoken
      · obtain rfl := List.mem_singleton.mp htoken
        exact hname
      · cases htoken
  | @text value hnul hreturn =>
    intro token htoken
    obtain ⟨c, hc, rfl⟩ := List.mem_map.mp htoken
    exact ⟨fun he => hnul (he ▸ hc), fun he => hreturn (he ▸ hc)⟩
  | fragment _ ih =>
    intro token htoken
    obtain ⟨child, hchild, htoken⟩ := mem_tokensAll.mp htoken
    exact ih child hchild token htoken

/-- The content is read from its markup as it was written. -/
theorem Flowing.read_markup (h : content.Flowing TagInfo.hasClosingTag) :
    Reading.read content.markup = .ok (content.readAfter []).reverse := by
  have hadds := Reading.Builder.adds_content h Reading.Builder.within_start
  rw [Reading.read_write h.flows h.legible.toList_markup]
  refine congrArg Except.ok ?_
  refine (hadds.within.growing.held_eq_reverse Reading.Draft.root).trans ?_
  exact congrArg List.reverse hadds.back_eq

end Content

end MarkupArena
