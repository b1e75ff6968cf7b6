import MarkupArena.Proofs.Adopting

/-! How text is read that is not markup, in scripts, style sheets, titles and text areas. It is
taken character by character up to the end tag; references count in titles and text areas only, and
a text area drops a line feed at its start. -/
namespace MarkupArena

namespace Reading

theorem eq_of_toLower {c : Char} (h : c.toLower = '<') : c = '<' := by
  unfold Char.toLower at h
  split at h
  next hupper =>
    have hval := congrArg (fun d => d.val.toNat) h
    simp [UInt32.le_iff_toNat_le] at hupper hval
    omega
  next => exact h

/-- No tag begins with another character than an angle bracket. -/
theorem startsWithTag_of_ne {c : Char} (hc : c ≠ '<') (lead name rest : List Char) :
    startsWithTag ('<' :: lead) name (c :: rest) = false := by
  have hlower : ¬ '<' = c.toLower := fun he => hc (eq_of_toLower he.symm)
  simp [startsWithTag, startsWith, hlower]

/-- A tag in lower case is found where it begins. -/
theorem startsWithTag_self {lead name : List Char}
    (hlower : (lead ++ name).map Char.toLower = lead ++ name) (rest : List Char) :
    startsWithTag lead name (lead ++ name ++ '>' :: rest) = true := by
  unfold startsWithTag startsWith
  rw [List.take_left, hlower, ← List.length_append, List.drop_left]
  simp [nameEnds]

theorem IsPlainName.toLower {name : String} (hname : IsPlainName name) :
    name.toList.map Char.toLower = name.toList := by
  obtain ⟨first, more, hchars, hfirst, hmore⟩ := hname
  have hrest : more.map Char.toLower = more :=
    (List.map_congr_left fun c hc => toLower_of_plain (hmore c hc)).trans (List.map_id _)
  rw [hchars, List.map_cons, toLower_of_plain (by rw [hfirst]; rfl), hrest]

theorem startsWithTag_finish {name : String} (hname : IsPlainName name) :
    startsWithTag ['<', '/'] name.toList (MarkupArena.Token.finish name).write = true := by
  refine startsWithTag_self ?_ []
  rw [List.map_append, hname.toLower]
  rfl

/-- Text without angle brackets is split off before the end tag. -/
theorem splitRaw_append {name : String} (hname : IsPlainName name) {run : List Char}
    (hrun : '<' ∉ run) : splitRaw name.toList (run ++ (MarkupArena.Token.finish name).write) =
      (run, (MarkupArena.Token.finish name).write) := by
  induction run with
  | nil => exact if_pos (startsWithTag_finish hname)
  | cons c run ih =>
    obtain ⟨hc, hrun⟩ := not_or.mp (mt List.mem_cons.mpr hrun)
    rw [List.cons_append, splitRaw, startsWithTag_of_ne (Ne.symm hc), ih hrun]
    rfl

theorem splitScript_append {run : List Char} (hrun : '<' ∉ run) :
    splitScript .code (run ++ (MarkupArena.Token.finish "script").write) =
      (run, (MarkupArena.Token.finish "script").write) := by
  induction run with
  | nil => decide +kernel
  | cons c run ih =>
    obtain ⟨hc, hrun⟩ := not_or.mp (mt List.mem_cons.mpr hrun)
    have hcode : ScriptPlace.code.next c
        (c :: (run ++ (MarkupArena.Token.finish "script").write)) = .code := by
      simp [ScriptPlace.next, hc]
    rw [List.cons_append, splitScript, startsWithTag_of_ne (Ne.symm hc), hcode, ih hrun]
    rfl

/-- The elements whose text is not markup, how that text is split off, and whether a line feed at
its start is dropped. -/
inductive IsRaw : String → TextModel → Bool → Prop where
  | script : IsRaw "script" .script false
  | style : IsRaw "style" (.raw "style" false) false
  | title : IsRaw "title" (.raw "title" true) false
  | textarea : IsRaw "textarea" (.raw "textarea" true) true

namespace TextModel

/-- Whether references count in a text. -/
def references : TextModel → Bool
  | raw _ references => references
  | _ => false

/-- Splits before the end tag of the element. -/
def split : TextModel → List Char → List Char × List Char
  | raw name _, text => splitRaw name.toList text
  | script, text => splitScript .code text
  | _, text => (text, [])

end TextModel

section
variable {name : String} {model : TextModel} {skips : Bool} (h : IsRaw name model skips)
include h

theorem IsRaw.isPlainName : IsPlainName name := by
  cases h with
  | script => exact ⟨'s', ['c', 'r', 'i', 'p', 't'], rfl, rfl, List.all_eq_true.mp rfl⟩
  | style => exact ⟨'s', ['t', 'y', 'l', 'e'], rfl, rfl, List.all_eq_true.mp rfl⟩
  | title => exact ⟨'t', ['i', 't', 'l', 'e'], rfl, rfl, List.all_eq_true.mp rfl⟩
  | textarea =>
    exact ⟨'t', ['e', 'x', 't', 'a', 'r', 'e', 'a'], rfl, rfl, List.all_eq_true.mp rfl⟩

theorem IsRaw.isTagName : Text.IsTagName name := by
  cases h <;> exact ⟨by decide, List.all_eq_true.mp rfl⟩

theorem IsRaw.split_append {run : List Char} (hrun : '<' ∉ run) :
    model.split (run ++ (MarkupArena.Token.finish name).write) =
      (run, (MarkupArena.Token.finish name).write) := by
  have hplain := h.isPlainName
  cases h with
  | script => exact splitScript_append hrun
  | style | title | textarea => exact splitRaw_append hplain hrun

end

/-- Text without a line feed at its start. -/
def withoutFeed : List Char → List Char
  | '\n' :: rest => rest
  | text => text

theorem withoutFeed_cons {c : Char} (hc : c ≠ '\n') (rest : List Char) :
    withoutFeed (c :: rest) = c :: rest := by
  unfold withoutFeed
  split
  next heq => exact absurd (List.cons.inj heq).1 hc
  next => rfl

namespace Builder

variable {b : Builder} {name : String} {model : TextModel} {skips : Bool}

/-- The text of an element as it is taken where it is split off. -/
def takeRun (b : Builder) (references : Bool) (run : List Char) : Builder :=
  if references then b.takeDecoded (run.map withoutNul) else b.takeText (run.map withoutNul)

theorem takeRaw_finish (hname : IsPlainName name) (references : Bool) (run : List Char) :
    b.takeRaw references (run, (MarkupArena.Token.finish name).write) =
      (Builder.take { b.takeRun references run with model := .markup } (.finish name), []) := by
  have hread : readEndTag ((MarkupArena.Token.finish name).write.drop 2) = ([.finish name], []) :=
    readEndTag_finish [] hname
  unfold takeRaw
  dsimp only
  rw [hread]
  rfl

theorem readAll_split (h : IsRaw name model skips) (hfault : b.fault = none)
    (hmodel : b.model = model) {text : List Char} (hne : text ≠ []) (fuel : Nat) :
    b.readAll (fuel + 1) text = (b.takeRaw model.references (model.split text)).1.readAll fuel
      (b.takeRaw model.references (model.split text)).2 := by
  cases text with
  | nil => exact absurd rfl hne
  | cons c rest => cases h <;> simp [readAll, hfault, hmodel, TextModel.references, TextModel.split]

/-- Text without angle brackets is taken together with the end tag after it. -/
theorem readAll_raw (h : IsRaw name model skips) (hfault : b.fault = none)
    (hmodel : b.model = model) {run : List Char} (hrun : '<' ∉ run) (fuel : Nat) :
    b.readAll (fuel + 1) (run ++ (MarkupArena.Token.finish name).write) =
      Builder.take { b.takeRun model.references run with model := .markup } (.finish name) := by
  have hne : run ++ (MarkupArena.Token.finish name).write ≠ [] := fun he =>
    (MarkupArena.Token.finish name).write_ne_nil (List.append_eq_nil_iff.mp he).2
  rw [readAll_split h hfault hmodel hne, h.split_append hrun, takeRaw_finish h.isPlainName]
  exact readAll_nil _ _

theorem takeRun_written (b : Builder) (references : Bool) {text : List Char}
    (hnul : '\x00' ∉ text) : b.takeRun references (text.flatMap Text.writeTextChar) =
      b.takeText (if references then text else text.flatMap Text.writeTextChar) := by
  have hsame : (text.flatMap Text.writeTextChar).map withoutNul =
      text.flatMap Text.writeTextChar := by
    refine (List.map_congr_left fun c hc => if_neg fun he => ?_).trans (List.map_id _)
    obtain ⟨d, hd, hc⟩ := List.mem_flatMap.mp hc
    rcases (Text.mem_writeTextChar hc).2 with rfl | hmem
    · exact hnul (he ▸ hd)
    · exact absurd (he ▸ hmem) (by decide)
  unfold takeRun
  rw [hsame]
  cases references with
  | false => rfl
  | true =>
    show b.takeDecoded (text.flatMap Text.writeTextChar) = b.takeText text
    rw [takeDecoded_written, takeAll, List.foldl_map]
    rfl

/-- The state after an element whose text is not markup was closed again. -/
def closed (b : Builder) : Builder :=
  { b.pop.withMode b.returnMode with model := .markup, skipNewline := false, afterNul := false }

/-- The state of reading in an element whose text is not markup. Nothing else is open, and closing
it leads back to ordinary content. -/
structure InRaw (e : OpenElement) (b : Builder) : Prop where
  visible : b.elements.visible = [e, outermost]
  html : e.space = .html
  number : e.number < b.draft.size
  mode : b.mode = .rawText
  outside : Within [] b.closed

/-- A draft is left with text added to an element that is still open. -/
structure Fed (e : OpenElement) (text : List Char) (d : Draft) (b : Builder) : Prop where
  inside : InRaw e b
  fills : Draft.Fills e.number d b.draft
  back_eq : b.draft.back e.number =
    text.foldl (fun back c => Content.addText (String.singleton c) back) (d.back e.number)

namespace InRaw

variable {e : OpenElement}

theorem context (hb : InRaw e b) : b.elements.context = .html := by
  rw [OpenElements.context, hb.visible]
  simp [Context.within, Context.html, hb.html]

theorem innermost? (hb : InRaw e b) : b.elements.innermost? = some e := by
  rw [OpenElements.innermost?, hb.visible]
  rfl

theorem growing (hb : InRaw e b) : b.draft.Growing := hb.outside.growing

theorem appendText (hb : InRaw e b) (value : String) (afterNul : Bool) :
    InRaw e { b with
      draft := b.draft.append e.number (.text value), skipNewline := false, afterNul } where
  visible := hb.visible
  html := hb.html
  number := by
    rw [Draft.size_append_text]
    exact hb.number
  mode := hb.mode
  outside := hb.outside.appendText hb.number value

/-- The end tag closes the element. -/
theorem take_finish (hb : InRaw e b) (name : String) :
    Builder.take { b with model := .markup } (.finish name) = b.closed := by
  obtain ⟨fuel, hfuel⟩ : ∃ fuel, b.fuel = fuel + 1 :=
    ⟨8 * b.stack.length + 15, by unfold Builder.fuel; omega⟩
  let ended : Builder := { b with model := .markup, skipNewline := false, afterNul := false }
  have hhtml : ended.elements.context.notHtml = false := congrArg Context.notHtml hb.context
  have hrules : endIn ended.fuel ended.mode name ended = b.closed := by
    rw [show ended.fuel = fuel + 1 from hfuel, show ended.mode = .rawText from hb.mode]
    rfl
  show sendEnd (fun b => endIn b.fuel b.mode name b) name ended = b.closed
  unfold sendEnd
  rw [hhtml, ← hrules]
  rfl

/-- A character goes to the end of the element, whatever it is. -/
theorem char_eq (hb : InRaw e b) (hskip : b.skipNewline = false) (c : Char) :
    b.char c = { b with
      draft := b.draft.append e.number (.text (String.singleton c))
      skipNewline := false
      afterNul := c == '\x00' } := by
  let next : Builder := { b with skipNewline := false, afterNul := c == '\x00' }
  have hrules : charIn charFuel c next = next.addChar c := by
    unfold charFuel charIn
    rw [show next.mode = .rawText from hb.mode]
  have hsome : next.elements.innermost?.isNone = false := congrArg Option.isNone hb.innermost?
  have hspot : next.spot = ⟨e.number, none⟩ := spot_eq hb.outside.fostering hb.innermost?
  unfold char
  rw [hskip]
  dsimp only
  rw [hb.context]
  show charIn charFuel c next = _
  rw [hrules, addChar, hsome, if_neg Bool.false_ne_true, add, hspot]
  rfl

theorem awaitNothing (hb : InRaw e b) (afterNul : Bool) :
    InRaw e { b with skipNewline := false, afterNul } where
  visible := hb.visible
  html := hb.html
  number := hb.number
  mode := hb.mode
  outside := hb.outside

/-- Text is added to the element character by character. -/
theorem fed_text (hb : InRaw e b) (hskip : b.skipNewline = false) (text : List Char) :
    Fed e text b.draft (b.takeText text) := by
  induction text generalizing b with
  | nil => exact ⟨hb, .refl _ _, rfl⟩
  | cons c rest ih =>
    have hnext := hb.appendText (String.singleton c) (c == '\x00')
    rw [← hb.char_eq hskip] at hnext
    have hdraft : (b.char c).draft = b.draft.append e.number (.text (String.singleton c)) := by
      rw [hb.char_eq hskip]
    have hrest := ih hnext (by rw [hb.char_eq hskip])
    rw [hdraft] at hrest
    exact {
      inside := hrest.inside
      fills := (Draft.fills_append_text b.draft _ _).trans hrest.fills
      back_eq := by
        show ((b.char c).takeText rest).draft.back e.number = _
        rw [hrest.back_eq, Draft.back_append_text hb.growing hb.number]
        rfl }

/-- A line feed at the start is dropped where it is awaited. -/
theorem fed_withoutFeed (hb : InRaw e b) (text : List Char) :
    Fed e (if b.skipNewline then withoutFeed text else text) b.draft (b.takeText text) := by
  cases hskip : b.skipNewline with
  | false => exact hb.fed_text hskip text
  | true =>
    rw [if_pos rfl]
    cases text with
    | nil => exact ⟨hb, .refl _ _, rfl⟩
    | cons c rest =>
      show Fed e _ b.draft ((b.char c).takeText rest)
      by_cases hc : c = '\n'
      · have hchar : b.char c = { b with skipNewline := false, afterNul := false } := by
          unfold char
          rw [hskip, hc]
          rfl
        rw [hchar, hc]
        exact (hb.awaitNothing false).fed_text rfl rest
      · have hchar : b.char c = char { b with skipNewline := false } c := by
          unfold char
          simp [hskip, hc]
        rw [hchar, withoutFeed_cons hc]
        exact (hb.awaitNothing b.afterNul).fed_text rfl (c :: rest)

end InRaw

/-- Opening an element whose text is not markup leaves nothing else open. -/
theorem Within.openRaw (hb : Within [] b) (tag : Tag) (hname : tag.name ≠ "template")
    (model : TextModel) (skips : Bool) :
    InRaw ⟨b.draft.size, .html, tag.name, tag.attributes⟩
        { b.openRaw tag model with skipNewline := skips } ∧
      (b.openRaw tag model).draft = b.draft.begin Draft.root tag.name ∧
      (b.openRaw tag model).fault = none := by
  have hsize := Draft.size_begin b.draft Draft.root tag.name
  have hvisible : b.elements.visible = [outermost] := hb.visible
  unfold Builder.openRaw
  rw [hb.openTag_eq hname]
  refine ⟨?_, rfl, hb.fault⟩
  exact {
    visible := congrArg (List.cons _) hvisible
    html := rfl
    number := hsize ▸ Nat.lt_succ_self _
    mode := rfl
    outside := {
      visible := hvisible
      sunk := hb.sunk
      debt := hb.debt
      outer := by
        show (if b.elements.visible.isEmpty then Context.within b.elements.sunk.head?
          else .html) = _
        rw [hvisible]
        rfl
      flow := List.forall_mem_nil _
      numbers := List.forall_mem_nil _
      rooted := hsize ▸ Nat.lt_succ_of_lt hb.rooted
      growing := hb.growing.begin hb.rooted
      mode := hb.mode
      model := rfl
      fault := hb.fault
      formatting := hb.formatting
      fostering := hb.fostering
      skipNewline := rfl } }

/-- At the start of a text the start tag of such an element opens it. -/
theorem take_start_raw (h : IsRaw name model skips) (given : List Attribute) (closes : Bool) :
    ∃ b₀ : Builder, Within [] b₀ ∧ b₀.draft = .start ∧
      Builder.start.take (.start ⟨name, given, closes⟩) =
        { b₀.openRaw ⟨name, given, closes⟩ model with skipNewline := skips } := by
  have hstart := within_start.endText
  have hbody : Within [] { Builder.start.endText with mode := .body, templateModes := [.body] } :=
    { hstart with mode := .inl rfl }
  have htag : Builder.start.take (.start ⟨name, given, closes⟩) =
      startIn 24 .template ⟨name, given, closes⟩ Builder.start.endText := hstart.startTag
  cases h with
  | script | style | title => exact ⟨_, hstart, rfl, htag.trans rfl⟩
  | textarea => exact ⟨_, hbody, rfl, htag.trans rfl⟩

end Builder

/-- How an element is written that holds nothing but text. -/
def writtenAround (name : String) (given : List Attribute) (text : List Char) :
    List MarkupArena.Token :=
  .start name given :: (text.map .char ++ [.finish name])

/-- What is read as the text of an element whose text is not markup. -/
def takenText (references skips : Bool) (text : List Char) : List Char :=
  let shown := if references then text else text.flatMap Text.writeTextChar
  if skips then withoutFeed shown else shown

section
variable {name : String} {model : TextModel} {skips : Bool} {given : List Attribute}
  {text : List Char}

theorem flatMap_writtenAround (name : String) (given : List Attribute) (text : List Char) :
    (writtenAround name given text).flatMap MarkupArena.Token.write =
      '<' :: (name.toList ++ (given.flatMap writeAttribute ++ '>' ::
        (text.flatMap Text.writeTextChar ++ (MarkupArena.Token.finish name).write))) := by
  rw [writtenAround, List.flatMap_cons, List.flatMap_append, flatMap_write_char,
    List.flatMap_singleton]
  simp [MarkupArena.Token.write]

/-- An element whose text is not markup is read with the text that its rules take. -/
theorem readAll_writtenAround (h : IsRaw name model skips)
    (hnames : ∀ g ∈ given, Text.isAttributeName g.name) (hnul : '\x00' ∉ text) (fuel : Nat) :
    ∃ b : Builder, Builder.start.readAll (fuel + 2)
        ((writtenAround name given text).flatMap MarkupArena.Token.write) = b ∧
      Builder.Within [] b ∧ ∃ children, b.draft.back Draft.root = [.element name children] ∧
        Content.textOfAll children = String.ofList (takenText model.references skips text) := by
  have hplain := h.isPlainName
  have hbare : name ≠ "template" := by cases h <;> decide
  obtain ⟨b₀, hb₀, hstart, htaken⟩ :=
    Builder.take_start_raw h (OpenTag.attributesRead given) false
  obtain ⟨hraw, hdraft, hfault⟩ :=
    hb₀.openRaw ⟨name, OpenTag.attributesRead given, false⟩ hbare model skips
  rw [hstart] at hdraft
  rw [hstart, ← htaken] at hraw
  generalize hopened : Builder.start.take
    (.start ⟨name, OpenTag.attributesRead given, false⟩) = opened at htaken hraw
  have hbegun : opened.draft = Draft.start.begin Draft.root name := by
    rw [htaken]
    exact hdraft
  have hskip : opened.skipNewline = skips := by rw [htaken]
  have hfed := hraw.fed_withoutFeed
    (if model.references then text else text.flatMap Text.writeTextChar)
  rw [hskip, hbegun] at hfed
  -- One round takes the start tag, and one the text with the end tag after it.
  have hread : Builder.start.readAll (fuel + 2)
      ((writtenAround name given text).flatMap MarkupArena.Token.write) =
      (opened.takeText (if model.references then text else
        text.flatMap Text.writeTextChar)).closed := by
    have hfirst : Builder.start.takeAll
        [.start ⟨name, OpenTag.attributesRead given, false⟩] = opened := hopened
    rw [flatMap_writtenAround, Builder.readAll_markup rfl rfl (readMarkup_start _ _ hplain hnames),
      hfirst, Builder.readAll_raw h (by rw [htaken]; exact hfault) (by rw [htaken]; rfl)
        (bracket_not_mem_flatMap text), Builder.takeRun_written _ _ hnul,
      hfed.inside.take_finish]
  obtain ⟨-, helement⟩ :=
    hfed.fills.of_begin Builder.growing_start (by decide) hfed.inside.growing
  have hback := hfed.back_eq
  rw [Draft.back_begin_new (by decide)] at hback
  refine ⟨_, hread, hfed.inside.outside, _, helement, ?_⟩
  refine (congrArg (fun back => Content.textOfAll back.reverse) hback).trans ?_
  rw [(shows_chars _).text_eq [], List.reverse_nil, Content.textOfAll, String.empty_append]
  rfl

theorem read_writtenAround (h : IsRaw name model skips)
    (hnames : ∀ g ∈ given, Text.isAttributeName g.name) (hnul : '\x00' ∉ text)
    (hreturn : '\r' ∉ text) {html : String}
    (hhtml : html.toList = (writtenAround name given text).flatMap MarkupArena.Token.write) :
    ∃ children, read html = .ok [.element name children] ∧
      Content.textOfAll children = String.ofList (takenText model.references skips text) := by
  have hreadable : ∀ token ∈ writtenAround name given text, Readable token := by
    refine List.forall_mem_cons.mpr ⟨⟨h.isPlainName, hnames⟩, List.forall_mem_append.mpr ⟨?_, ?_⟩⟩
    · exact List.forall_mem_map.mpr fun _ _ => True.intro
    · exact List.forall_mem_singleton.mpr h.isPlainName
  have hplain : .char '\r' ∉ writtenAround name given text := by
    simpa [writtenAround] using hreturn
  have hunified : (writtenAround name given text).map tokenUnified =
      writtenAround name (given.map attributeUnified) text := by
    simp [writtenAround, tokenUnified]
  have hnames' : ∀ g ∈ given.map attributeUnified, Text.isAttributeName g.name :=
    List.forall_mem_map.mpr hnames
  have hlength : 2 ≤ ((writtenAround name (given.map attributeUnified) text).flatMap
      MarkupArena.Token.write).length := by
    rw [flatMap_writtenAround]
    simp [MarkupArena.Token.write]
    omega
  obtain ⟨fuel, hfuel⟩ := Nat.exists_eq_add_of_le' hlength
  obtain ⟨b, hb, hwithin, children, hback, htext⟩ :=
    readAll_writtenAround h hnames' hnul fuel
  refine ⟨children, ?_, htext⟩
  unfold read
  rw [hhtml, normalizeNewlines_write hreadable hplain, hunified]
  dsimp only
  rw [hfuel, hb, hwithin.content_eq]
  refine congrArg Except.ok ?_
  refine (hwithin.growing.held_eq_reverse Draft.root).trans ?_
  rw [hback]
  rfl

end

end Reading

end MarkupArena
