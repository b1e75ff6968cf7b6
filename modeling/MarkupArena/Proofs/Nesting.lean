import Mathlib.Data.List.TakeWhile
import MarkupArena.Proofs.Drafts
import MarkupArena.Reading.Summary

/-! Divisions and spans as they are read. Each is opened at the end of the innermost element, and
its end tag closes it with all around it as it was. -/
namespace MarkupArena.Reading.Builder

/-- The names of divisions and spans. -/
def IsFlow (name : String) : Prop := name = "div" ∨ name = "span"

theorem IsFlow.ne_template {name : String} (h : IsFlow name) : name ≠ "template" := by
  rcases h with rfl | rfl <;> decide

/-- The element that stands for the text as a whole. -/
def outermost : OpenElement := ⟨Draft.root, .html, "html", []⟩

/-- The innermost open element. -/
def top : List OpenElement → OpenElement
  | [] => outermost
  | e :: _ => e

/-- The state of reading within divisions and spans, innermost first, where nothing else is open or
waits to be opened again. -/
structure Within (levels : List OpenElement) (b : Builder) : Prop where
  visible : b.elements.visible = levels ++ [outermost]
  sunk : b.elements.sunk = []
  debt : b.elements.debt = 0
  outer : b.elements.outer = .html
  flow : ∀ e ∈ levels, e.space = .html ∧ IsFlow e.name
  numbers : ∀ e ∈ levels, e.number < b.draft.size
  rooted : Draft.root < b.draft.size
  growing : b.draft.Growing
  mode : b.mode = .body ∨ b.mode = .template ∧ levels = []
  model : b.model = .markup
  fault : b.fault = none
  formatting : b.formatting = []
  fostering : b.fostering = false
  skipNewline : b.skipNewline = false

theorem spot_eq {b : Builder} {e : OpenElement} (hfostering : b.fostering = false)
    (he : b.elements.innermost? = some e) : b.spot = ⟨e.number, none⟩ := by
  unfold spot fosters
  rw [hfostering, he]
  rfl

namespace Within

variable {levels : List OpenElement} {b : Builder} {name : String} {tag : Tag}

theorem endText (hb : Within levels b) : Within levels b.endText :=
  { hb with skipNewline := rfl }

theorem innermost? (hb : Within levels b) : b.elements.innermost? = some (top levels) := by
  rw [OpenElements.innermost?, hb.visible]
  cases levels <;> rfl

theorem context (hb : Within levels b) : b.elements.context = .html := by
  rw [OpenElements.context, hb.visible]
  cases levels with
  | nil => exact hb.outer
  | cons e levels =>
    have hspace := (hb.flow e List.mem_cons_self).1
    cases levels <;> simp [Context.within, Context.html, hspace]

theorem top_lt (hb : Within levels b) : (top levels).number < b.draft.size := by
  cases levels with
  | nil => exact hb.rooted
  | cons e levels => exact hb.numbers e List.mem_cons_self

theorem startTag (hb : Within levels b) : b.startTag tag = startIn b.fuel b.mode tag b := by
  unfold Builder.startTag sendStart
  simp [hb.innermost?, startsForeign, hb.context, Context.html]

theorem endTag (hb : Within levels b) : b.endTag name = endIn b.fuel b.mode name b := by
  unfold Builder.endTag sendEnd
  simp [hb.context, Context.html]

/-- What is found in scope is one of the levels. -/
theorem exists_of_inScope (hb : Within levels b) {bounds wanted : OpenElement → Bool}
    (hbounds : bounds outermost) (hwanted : wanted outermost = false)
    (h : Stack.inScope bounds wanted b.stack) : ∃ e ∈ levels, wanted e := by
  rw [Builder.stack, hb.visible] at h
  clear hb
  induction levels with
  | nil => simp [Stack.inScope, hbounds, hwanted] at h
  | cons e levels ih =>
    simp only [List.cons_append, Stack.inScope, Bool.or_eq_true, Bool.and_eq_true] at h
    rcases h with he | ⟨-, h⟩
    · exact ⟨e, List.mem_cons_self, he⟩
    · obtain ⟨found, hfound, hwant⟩ := ih h
      exact ⟨found, List.mem_cons_of_mem _ hfound, hwant⟩

theorem closeParagraph (hb : Within levels b) : b.closeParagraph = b := by
  unfold Builder.closeParagraph
  refine if_neg fun h => ?_
  obtain ⟨e, he, hwanted⟩ := hb.exists_of_inScope (by decide) (by decide) h
  have hname := (hb.flow e he).2
  simp [OpenElement.isHtml] at hwanted
  rcases hname with hname | hname <;> simp [hname] at hwanted

theorem reopenFormatting (hb : Within levels b) : b.reopenFormatting = b := by
  unfold Builder.reopenFormatting
  rw [hb.formatting]
  show { b with formatting := [] } = b
  rw [← hb.formatting]

theorem startBody (hb : Within levels b) (hname : IsFlow tag.name) :
    b.startBody tag = b.openTag tag := by
  unfold Builder.startBody startSingle
  rcases hname with hname | hname
  · simp [hname, headNames, misplacedNames, blockNames, hb.closeParagraph]
  · simp [hname, headNames, misplacedNames, blockNames, headingNames, voidNames, plainVoidNames,
      objectNames, formattingNames, hb.reopenFormatting]

theorem openTag_eq (hb : Within levels b) (hname : tag.name ≠ "template") : b.openTag tag = { b with
    draft := b.draft.begin (top levels).number tag.name
    elements := { b.elements with
      visible := ⟨b.draft.size, .html, tag.name, tag.attributes⟩ :: b.elements.visible
      past := b.elements.past.drop 1 } } := by
  have hbare : OpenElement.isHtml ⟨b.draft.size, .html, tag.name, tag.attributes⟩ "template" =
      false := by
    simp [OpenElement.isHtml, hname]
  have hspot : ({ b with draft := b.draft.create tag.name false } : Builder).spot =
      ⟨(top levels).number, none⟩ := spot_eq hb.fostering hb.innermost?
  unfold openTag openElement addElement add onElements OpenElements.push
  dsimp only
  rw [hbare, hspot, if_pos hb.debt]
  rfl

/-- A start tag opens one more level. -/
theorem openTag (hb : Within levels b) (hname : IsFlow tag.name) (hmode : b.mode = .body) :
    Within (⟨b.draft.size, .html, tag.name, tag.attributes⟩ :: levels) (b.openTag tag) := by
  rw [hb.openTag_eq hname.ne_template]
  have hsize := Draft.size_begin b.draft (top levels).number tag.name
  exact { hb with
    visible := congrArg (List.cons _) hb.visible
    flow := List.forall_mem_cons.mpr ⟨⟨rfl, hname⟩, hb.flow⟩
    numbers := by
      rw [hsize]
      exact List.forall_mem_cons.mpr ⟨Nat.lt_succ_self _, fun e he =>
        Nat.lt_succ_of_lt (hb.numbers e he)⟩
    rooted := hsize ▸ Nat.lt_succ_of_lt hb.rooted
    growing := hb.growing.begin hb.top_lt
    mode := .inl hmode }

/-- A start tag falls under the rules of ordinary content, if not at once. -/
theorem startIn_eq (hb : Within levels b) (hname : IsFlow tag.name) :
    ∃ modes, startIn b.fuel b.mode tag b =
      Builder.openTag { b with mode := .body, templateModes := modes } tag := by
  obtain ⟨fuel, hfuel⟩ : ∃ fuel, b.fuel = fuel + 2 :=
    ⟨8 * b.stack.length + 14, by unfold Builder.fuel; omega⟩
  have hbody : ∀ modes, Within levels { b with mode := .body, templateModes := modes } :=
    fun modes => { hb with mode := .inl rfl }
  rcases hb.mode with hmode | ⟨hmode, -⟩
  · refine ⟨b.templateModes, ?_⟩
    have hsame : ({ b with mode := .body } : Builder) = b := by rw [← hmode]
    rw [hsame, ← hb.startBody hname, hmode, hfuel]
    rfl
  · refine ⟨.body :: b.templateModes.drop 1, ?_⟩
    rw [hmode, hfuel, ← (hbody _).startBody hname]
    unfold Builder.startIn
    rcases hname with hname | hname <;>
      simp [hname, headNames, sectionNames, cellNames, Builder.startIn]

/-- A start tag begins an element in the innermost one. -/
theorem take_start (hb : Within levels b) (tag : Tag) (hname : IsFlow tag.name) :
    Within (⟨b.draft.size, .html, tag.name, tag.attributes⟩ :: levels) (b.take (.start tag)) ∧
      (b.take (.start tag)).draft = b.draft.begin (top levels).number tag.name := by
  have htext := hb.endText
  obtain ⟨modes, hmodes⟩ := htext.startIn_eq hname
  have hbody : Within levels { b.endText with mode := .body, templateModes := modes } :=
    { htext with mode := .inl rfl }
  rw [take, htext.startTag, hmodes]
  exact ⟨hbody.openTag hname rfl, by rw [hbody.openTag_eq hname.ne_template]; rfl⟩

theorem appendText (hb : Within levels b) {number : Nat} (hnumber : number < b.draft.size)
    (value : String) : Within levels { b with draft := b.draft.append number (.text value) } := by
  have hsize := Draft.size_append_text b.draft number value
  exact { hb with
    numbers := hsize ▸ hb.numbers
    rooted := hsize ▸ hb.rooted
    growing := hb.growing.append_text hnumber }

/-- A character of text goes to the end of the innermost element. -/
theorem take_character (hb : Within levels b) {c : Char} (hc : c ≠ '\x00') :
    Within levels (b.take (.character c)) ∧ (b.take (.character c)).draft =
      b.draft.append (top levels).number (.text (String.singleton c)) := by
  let next : Builder := { b with skipNewline := false, afterNul := c == '\x00' }
  have hnext : Within levels next := { hb with skipNewline := rfl }
  have hbody : charIn charFuel c next = next.bodyChar c := by
    rcases hb.mode with hmode | ⟨hmode, -⟩ <;>
    · have hmode : next.mode = _ := hmode
      unfold charFuel charIn
      rw [hmode]
  have htake : b.take (.character c) = next.addChar c := by
    show b.char c = _
    unfold char
    rw [hb.skipNewline]
    dsimp only
    rw [hb.context]
    show charIn charFuel c next = _
    rw [hbody, bodyChar, if_neg hc, hnext.reopenFormatting]
  have hadd : next.addChar c =
      { next with draft := b.draft.append (top levels).number (.text (String.singleton c)) } := by
    have hsome : next.elements.innermost?.isNone = false := by
      rw [hnext.innermost?]
      rfl
    unfold addChar add
    rw [hsome, if_neg Bool.false_ne_true]
    dsimp only
    rw [spot_eq hnext.fostering hnext.innermost?]
    rfl
  rw [htake, hadd]
  exact ⟨hnext.appendText hb.top_lt _, rfl⟩

theorem close (hb : Within levels b) {n : Nat} (hn : n ≤ levels.length) :
    Within (levels.drop n) (b.onElements (OpenElements.popMany n)) := by
  have hvisible : (b.elements.visible.drop n) = levels.drop n ++ [outermost] := by
    rw [hb.visible, List.drop_append_of_le_length hn]
  exact { hb with
    visible := hvisible
    outer := by
      show (if (b.elements.visible.take n).isEmpty then b.elements.outer
        else if (b.elements.visible.drop n).isEmpty then .within b.elements.sunk.head?
        else .html) = _
      rw [hvisible, hb.outer]
      simp
    flow := fun e he => hb.flow e (List.mem_of_mem_drop he)
    numbers := fun e he => hb.numbers e (List.mem_of_mem_drop he)
    mode := hb.mode.imp id fun ⟨hmode, hnone⟩ => ⟨hmode, by rw [hnone, List.drop_nil]⟩ }

/-- No end tag of a division or a span is left out. -/
theorem popWhile_eq (hb : Within levels b) {test : OpenElement → Bool}
    (htest : test (top levels) = false) : b.popWhile test = b := by
  have hnone : b.elements.visible.takeWhile test = [] := by
    rw [hb.visible]
    cases levels with
    | nil => exact List.takeWhile_cons_of_neg (by simpa [top] using htest)
    | cons e levels => exact List.takeWhile_cons_of_neg (by simpa [top] using htest)
  have hsame : b.elements.popWhile test = b.elements := by
    have hzero : b.elements.popMany 0 = b.elements := rfl
    unfold OpenElements.popWhile
    rw [hnone, List.length_nil, hzero]
    simp [hb.sunk]
  unfold Builder.popWhile onElements
  rw [hsame]

theorem popThrough_eq (hb : Within levels b) (test : OpenElement → Bool)
    (htest : ∃ e ∈ levels, test e) : ∃ n < levels.length,
      (levels.takeWhile fun e => !test e).length = n ∧
      b.popThrough test = b.onElements (OpenElements.popMany (n + 1)) := by
  obtain ⟨e, he, hfound⟩ := htest
  have hlt : (levels.takeWhile fun e => !test e).length < levels.length := by
    refine Nat.lt_of_le_of_ne (List.takeWhile_prefix _).length_le fun heq => ?_
    have hall := List.takeWhile_eq_self_iff.mp ((List.takeWhile_prefix _).eq_of_length heq) e he
    rw [hfound] at hall
    cases hall
  refine ⟨_, hlt, rfl, ?_⟩
  unfold Builder.popThrough onElements OpenElements.popThrough
  rw [hb.visible, List.takeWhile_append, if_neg (Nat.ne_of_lt hlt)]

theorem not_implied (hb : Within levels b) :
    Stack.impliedNames.contains (top levels).name = false := by
  cases levels with
  | nil => decide
  | cons e levels =>
    rcases (hb.flow e List.mem_cons_self).2 with hname | hname <;>
      simp [top, hname, Stack.impliedNames]

/-- The end tag of a division closes the innermost one, with what is open inside. -/
theorem closeBlock_eq (hb : Within levels b) : ∃ n ≤ levels.length,
    b.closeBlock "div" = b.onElements (OpenElements.popMany n) ∧
      ∀ e rest, levels = e :: rest → e.name = "div" → n = 1 := by
  have hdiv : ∀ e rest, levels = e :: rest → e.name = "div" → e.isHtml "div" := by
    rintro e rest rfl hname
    simp [OpenElement.isHtml, (hb.flow e List.mem_cons_self).1, hname]
  unfold Builder.closeBlock
  split
  next h =>
    obtain ⟨n, hn, hlength, hpop⟩ :=
      hb.popThrough_eq _ (hb.exists_of_inScope (by decide) (by decide) h)
    refine ⟨n + 1, hn, ?_, ?_⟩
    · unfold popImplied popNamed
      rw [hb.popWhile_eq hb.not_implied, hpop]
    · intro e rest hlevels hname
      rw [hlevels, List.takeWhile_cons_of_neg (by simp [hdiv e rest hlevels hname])] at hlength
      rw [← hlength]
      rfl
  next h =>
    refine ⟨0, Nat.zero_le _, rfl, fun e rest hlevels hname => absurd ?_ h⟩
    rw [Builder.stack, hb.visible, hlevels]
    show (e.isHtml "div" || _) = true
    rw [hdiv e rest hlevels hname, Bool.true_or]

/-- The end tag of a span closes the innermost one, unless there is a division inside it. -/
theorem closeOther_eq (hb : Within levels b) : ∃ n ≤ levels.length,
    b.closeOther "span" = b.onElements (OpenElements.popMany n) ∧
      ∀ e rest, levels = e :: rest → e.name = "span" → n = 1 := by
  have hstack : b.stack.dropLast = levels := by
    rw [Builder.stack, hb.visible, List.dropLast_concat]
  have hspan : ∀ e rest, levels = e :: rest → e.name = "span" → e.endsWith "span" := by
    rintro e rest rfl hname
    simp [OpenElement.endsWith, hname]
  have htop : (Stack.impliedNames.contains (top levels).name && (top levels).name != "span") =
      false := by
    rw [hb.not_implied, Bool.false_and]
  unfold Builder.closeOther
  rw [hstack]
  dsimp only
  generalize hinner : levels.takeWhile (fun e => !e.endsWith "span" && !e.isSpecial) = inner
  -- If the innermost element is a span, the search ends there.
  have hfound : ∀ e rest, levels = e :: rest → e.name = "span" →
      levels.drop inner.length = e :: rest := by
    intro e rest hlevels hname
    have hnone : inner = [] := by
      rw [← hinner, hlevels,
        List.takeWhile_cons_of_neg (by simp [hspan e rest hlevels hname])]
    rw [hnone]
    exact hlevels
  split
  next e outer hdrop =>
    split
    next =>
      have hmem : e ∈ levels := List.mem_of_mem_drop (hdrop ▸ List.mem_cons_self)
      obtain ⟨n, hn, hlength, hpop⟩ :=
        hb.popThrough_eq (fun o => o.number == e.number) ⟨e, hmem, by simp⟩
      refine ⟨n + 1, hn, ?_, ?_⟩
      · unfold popImpliedBut
        rw [hb.popWhile_eq htop, hpop]
      · intro first rest hlevels hname
        obtain ⟨rfl, rfl⟩ := List.cons.inj (hdrop.symm.trans (hfound first rest hlevels hname))
        rw [hlevels, List.takeWhile_cons_of_neg (by simp)] at hlength
        rw [← hlength]
        rfl
    next hends =>
      refine ⟨0, Nat.zero_le _, rfl, fun first rest hlevels hname => absurd ?_ hends⟩
      obtain ⟨rfl, rfl⟩ := List.cons.inj (hdrop.symm.trans (hfound first rest hlevels hname))
      exact hspan e outer hlevels hname
  next hdrop =>
    refine ⟨0, Nat.zero_le _, rfl, fun first rest hlevels hname => ?_⟩
    cases hdrop.symm.trans (hfound first rest hlevels hname)

theorem endBody_eq (hb : Within levels b) (hname : IsFlow name) : ∃ n ≤ levels.length,
    b.endBody name = b.onElements (OpenElements.popMany n) ∧
      ∀ e rest, levels = e :: rest → e.name = name → n = 1 := by
  rcases hname with rfl | rfl
  · exact hb.closeBlock_eq
  · exact hb.closeOther_eq

/-- An end tag closes some of the levels, and the innermost alone if that has its name. -/
theorem take_finish (hb : Within levels b) (hname : IsFlow name) : ∃ n ≤ levels.length,
    Within (levels.drop n) (b.take (.finish name)) ∧
      (b.take (.finish name)).draft = b.draft ∧
      ∀ e rest, levels = e :: rest → e.name = name → n = 1 := by
  have htext := hb.endText
  obtain ⟨fuel, hfuel⟩ : ∃ fuel, b.endText.fuel = fuel + 1 :=
    ⟨8 * b.endText.stack.length + 15, by unfold Builder.fuel; omega⟩
  rw [take, htext.endTag, hfuel]
  rcases htext.mode with hmode | ⟨hmode, hnone⟩
  · obtain ⟨n, hn, hclose, htop⟩ := htext.endBody_eq hname
    have hend : endIn (fuel + 1) b.endText.mode name b.endText =
        b.endText.onElements (OpenElements.popMany n) := by
      rw [← hclose, hmode]
      rfl
    rw [hend]
    exact ⟨n, hn, htext.close hn, rfl, htop⟩
  · have hend : endIn (fuel + 1) b.endText.mode name b.endText = b.endText := by
      rw [hmode]
      rcases hname with rfl | rfl <;> rfl
    rw [hend]
    refine ⟨0, Nat.zero_le _, htext, rfl, fun e rest hlevels => ?_⟩
    rw [hnone] at hlevels
    cases hlevels

end Within

end MarkupArena.Reading.Builder
