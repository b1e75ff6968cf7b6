import MarkupArena.Proofs.Layout

/-! Text that was laid out in lines says what it said before: its markup and its text are those of
the lines, and the lines are read off its children again. -/
namespace MarkupArena

open Build

/-- Whether a node is a line break. -/
def Node.isBreak : Node → Bool
  | .element e => e.tag == "br"
  | _ => false

/-- The lines that children stand for: the text before each line break, or none. -/
def readLines (before : String) : List Node → List String
  | [] => []
  | .text value :: rest => readLines (before ++ value) rest
  | node :: rest => if node.isBreak then before :: readLines "" rest else readLines before rest

section
variable {br : TagInfo} (htag : br.tagName = "br")
include htag

theorem isBreak_br : (Node.element ⟨br, [], []⟩).isBreak = true := by
  show (br.tagName == "br") = true
  rw [htag]
  rfl

theorem readLines_lineNodes (line : List Char) (rest : List Node) :
    readLines "" (lineNodes br line ++ rest) = String.ofList line :: readLines "" rest := by
  have hbreak : ∀ before, readLines before (.element ⟨br, [], []⟩ :: rest) =
      before :: readLines "" rest := fun before => by
    rw [readLines, isBreak_br htag, if_pos rfl]
    exact nofun
  cases line with
  | nil => exact hbreak ""
  | cons c others =>
    show readLines ("" ++ String.ofList (c :: others)) (.element ⟨br, [], []⟩ :: rest) = _
    rw [hbreak, String.empty_append]

/-- The lines are read off what is stored for them. -/
theorem readLines_rowNodes (count : Option Nat) (lines : List (List Char)) :
    readLines "" (rowNodes br count lines) = lines.map (written count) := by
  induction lines with
  | nil => rfl
  | cons line rest ih =>
    rw [rowNodes_cons, readLines_lineNodes htag, ih]
    rfl

theorem countP_isBreak_rowNodes (count : Option Nat) (lines : List (List Char)) :
    (rowNodes br count lines).countP Node.isBreak = lines.length := by
  induction lines with
  | nil => rfl
  | cons line rest ih =>
    have hline : (lineNodes br (expandTabs count line)).countP Node.isBreak = 1 := by
      unfold lineNodes
      split <;> simp [Node.isBreak, Element.tag, htag]
    rw [rowNodes_cons, List.countP_append, hline, ih, List.length_cons, Nat.add_comm]

theorem markup_lineNodes (hopen : br.hasClosingTag = false) (line : List Char) :
    String.join ((lineNodes br line).map fun n => (n.contentWith []).markup) =
      Text.escapeText (String.ofList line) ++ "<br>" := by
  have hbr : (Content.element br [] []).markup = "<br>" := by
    simp [Content.markup, Content.markups, World.startTagText, World.endTagText, Element.tag, htag,
      hopen, String.join]
  cases line with
  | nil =>
    have hmarkups : (lineNodes br []).map (fun n => (n.contentWith []).markup) =
        [(Content.element br [] []).markup] := rfl
    rw [hmarkups, hbr]
    decide
  | cons c rest =>
    have hmarkups : (lineNodes br (c :: rest)).map (fun n => (n.contentWith []).markup) =
        [Text.escapeText (String.ofList (c :: rest)), (Content.element br [] []).markup] := rfl
    rw [hmarkups, hbr]
    simp [String.join_cons]

/-- What a division around lines is rendered as. -/
theorem markup_division {div : TagInfo} (hdiv : div.tagName = "div")
    (hcloses : div.hasClosingTag = true) (hopen : br.hasClosingTag = false) (count : Option Nat)
    (lines : List (List Char)) :
    (Content.element div [⟨"class", "soft_pre"⟩]
      ((rowNodes br count lines).map (·.contentWith []))).markup =
      "<div class=\"soft_pre\">" ++
        String.join ((lines.map (written count)).map fun line => Text.escapeText line ++ "<br>") ++
        "</div>" := by
  have hrows : String.join ((rowNodes br count lines).map fun n => (n.contentWith []).markup) =
      String.join ((lines.map (written count)).map fun line => Text.escapeText line ++ "<br>") := by
    induction lines with
    | nil => rfl
    | cons line rest ih =>
      rw [rowNodes_cons, List.map_append, String.join_append, markup_lineNodes htag hopen, ih,
        List.map_cons, List.map_cons, String.join_cons]
      rfl
  have hstart : World.startTagText ⟨div, [⟨"class", "soft_pre"⟩], []⟩ =
      "<div class=\"soft_pre\">" := by
    unfold World.startTagText
    rw [Element.tag, hdiv]
    show "<" ++ "div" ++ String.join [World.attributeText ⟨"class", "soft_pre"⟩] ++ ">" = _
    decide
  have hend : World.endTagText ⟨div, [⟨"class", "soft_pre"⟩], []⟩ = "</div>" := by
    unfold World.endTagText
    rw [if_pos hcloses, Element.tag, hdiv]
    decide
  rw [Content.markup, Content.markups_eq_map, List.map_map, hstart, hend]
  exact congrArg (fun rows => "<div class=\"soft_pre\">" ++ rows ++ "</div>") hrows

omit htag in
/-- The text of a division around lines is theirs. -/
theorem textOf_rowNodes (count : Option Nat) (lines : List (List Char)) :
    textOf (Content.leavesAll ((rowNodes br count lines).map (·.contentWith []))) =
      .ok (String.join (lines.map (written count))) := by
  have hline : ∀ line, textOf (Content.leavesAll ((lineNodes br line).map (·.contentWith []))) =
      .ok (String.ofList line) := by
    intro line
    cases line with
    | nil => rfl
    | cons c rest =>
      have hleaves : Content.leavesAll ((lineNodes br (c :: rest)).map (·.contentWith [])) =
          [.text (String.ofList (c :: rest))] := rfl
      rw [hleaves, textOf_cons]
      exact congrArg Except.ok String.append_empty
  induction lines with
  | nil => rfl
  | cons line rest ih =>
    rw [Content.leavesAll_eq_flatten] at ih
    rw [rowNodes_cons, Content.leavesAll_eq_flatten, List.map_append, List.map_append,
      List.flatten_append, textOf_append, ih, ← Content.leavesAll_eq_flatten, hline,
      List.map_cons, String.join_cons]
    rfl

end

namespace Build

/-- Where tabs stay, lines are no longer than the text they are taken from. -/
theorem fits_none {separator text : String} {lines : List (List Char)}
    (hsplits : Splits separator.toList text.toList lines)
    (htext : (Text.units text).length ≤ Text.maxUnits) : Fits none lines := by
  refine ⟨Nat.zero_le _, fun line hline => ?_⟩
  obtain ⟨before, after, heq⟩ := hsplits.infix_of_mem hline
  have hlength : (Text.units (written none line)).length ≤ (Text.units text).length := by
    rw [written, expandTabs_none, Text.units, Text.units, String.toList_ofList, ← heq,
      List.flatMap_append, List.flatMap_append, List.length_append, List.length_append]
    omega
  exact hlength.trans htext

/-- Where tabs stay, lines joined by what they were split at are the text. -/
theorem intercalate_written_none {separator text : String} {lines : List (List Char)}
    (hsplits : Splits separator.toList text.toList lines) :
    separator.intercalate (lines.map (written none)) = text := by
  have hwritten : String.toList ∘ written none = id := funext fun line => by
    rw [Function.comp_apply, written, String.toList_ofList, expandTabs_none, id]
  rw [← String.toList_inj, String.toList_intercalate, List.map_map, hwritten, List.map_id]
  exact hsplits.intercalate_eq

end Build

/-- Lines laid out in a division: each is followed by a line break, and none of it is lost. Markup
and text are handed out unless they are too long. -/
structure World.LaysOut (w : World) (a : ArenaId) (h : Handle) (lines : List String) : Prop where
  markup : w.render a h false >>= handOut = handOut ("<div class=\"soft_pre\">" ++
    String.join (lines.map fun line => Text.escapeText line ++ "<br>") ++ "</div>")
  text : w.textContent a h >>= handOut = handOut (String.join lines)
  children : ∃ e members, w.resolve a h = .ok (.element e) ∧ e.tag = "div" ∧
    e.children.mapM (w.resolve a) = .ok members ∧
    members.countP Node.isBreak = lines.length ∧ readLines "" members = lines

namespace World

/-- A division around rows of lines lays them out. -/
theorem Ordered.laysOut {w : World} (hw : w.Ordered) {a : ArenaId} {h : Handle} {div br : TagInfo}
    (htags : Html.LineTags div br) {handles : List Handle} (count : Option Nat)
    (lines : List (List Char)) (hresolve : w.resolve a h = .ok (divNode div handles))
    (hmembers : List.Forall₂ (fun h n => w.resolve a h = .ok n) handles (rowNodes br count lines)) :
    w.LaysOut a h (lines.map (written count)) := by
  have hdiv := Schema.tagName_of_find? htags.division
  have hbr := Schema.tagName_of_find? htags.lineBreak
  obtain ⟨tree, hstored, hhandle, hcontent⟩ := denotes_of_resolve hresolve
    (contents_of_resolves hmembers fun _ => children_of_mem_rowNodes)
  refine ⟨?_, ?_, ?_⟩
  · rw [← hhandle, hw.render_eq hstored, hcontent]
    exact congrArg handOut (markup_division hbr hdiv htags.closes htags.void count lines)
  · rw [← hhandle, hw.textContent_eq_textOf hstored, hcontent]
    exact congrArg (· >>= handOut) (textOf_rowNodes count lines)
  · refine ⟨_, _, hresolve, hdiv, mapM_of_forall₂ hmembers, ?_, readLines_rowNodes hbr count lines⟩
    rw [countP_isBreak_rowNodes hbr, List.length_map]

/-- A text split at a separator is laid out in an arena with the bundled schema, where there are no
call sites and there is no budget. Tabs stay, or a natural number of spaces stands for each. The
lines that the separator leaves, one more than it is found, are laid out with their tabs replaced,
and no empty text is stored for them. That fails only if a text would be longer than texts can be:
what a tab stands for, or a line with its tabs replaced. Where tabs stay it cannot fail unless the
text itself is too long, and then the text is had again by joining the lines that are read off. -/
theorem text_laid_out {w : World} (hw : w.Reachable) {a : ArenaId} (ha : w.Opened a)
    (hoptions : (w.arena a).options.Plain) (site : CallSite) (value : String) {separator : String}
    (hseparator : separator ≠ "") {tab : Build.Tab} {count : Option Nat} (htab : tab.Means count) :
    ∃ lines, Build.Splits separator.toList value.toList lines ∧
      lines.length = Build.separatorCount separator.toList value.toList + 1 ∧
      (Build.Fits count lines → ∃ h w' nodes,
        perform (Build.lines a site value tab separator) w = (.ok h, w') ∧
        w' = w.append a nodes ∧ .text "" ∉ nodes ∧
        w'.LaysOut a h (lines.map (Build.written count))) ∧
      (¬ Build.Fits count lines →
        (perform (Build.lines a site value tab separator) w).1 = .error .textTooLong) ∧
      (count = none → ((Text.units value).length ≤ Text.maxUnits → Build.Fits count lines) ∧
        separator.intercalate (lines.map (Build.written count)) = value) := by
  have hne : separator.toList ≠ [] := fun h => hseparator (String.toList_inj.mp h)
  have hlines : linesOf separator.toList value.toList =
      splitLines separator.toList 0 value.toList := by
    rw [linesOf, if_neg (by simpa using hne)]
  have hsplits := splits_splitLines hne value.toList
  have hplain : w.Plain a := ⟨hw.ordered, ha, hoptions⟩
  obtain ⟨div, br, htags⟩ := Html.exists_lineTags
  rw [← hlines] at hsplits
  refine ⟨_, hsplits, ?_, fun hfits => ?_, perform_lines_of_not_fits hplain htab site, ?_⟩
  · rw [hlines, length_splitLines hne]
  · obtain ⟨handles, w', hrun, hw', hordered, hresolve, hmembers⟩ :=
      perform_lines hplain htags htab site hfits
    refine ⟨_, w', _, hrun, hw', fun hempty => ?_, hordered.laysOut htags count _ hresolve hmembers⟩
    rcases List.mem_append.mp hempty with hrow | hdivision
    · rcases mem_rowNodes hrow with heq | ⟨value, hvalue, heq⟩
      · cases heq
      · exact hvalue (Node.text.inj heq).symm
    · cases List.mem_singleton.mp hdivision
  · rintro rfl
    exact ⟨fits_none hsplits, intercalate_written_none hsplits⟩

end World

def blankPage : World := { arenas := #[{ options := {}, listener := none }] }

theorem reachable_blankPage : blankPage.Reachable := World.reachable_empty.call (.openArena {} none)

theorem plain_blankPage : (blankPage.arena ⟨0⟩).options.Plain := ⟨rfl, rfl, rfl⟩

/-- Of the three letters in a row the first two are a separator, and the last is a line. -/
theorem text_laid_out_of_overlapping :
    blankPage.Reachable ∧ blankPage.Opened ⟨0⟩ ∧ (blankPage.arena ⟨0⟩).options.Plain ∧
    Build.Tab.Means .kept none ∧
    ∃ h w' nodes, perform (Build.lines ⟨0⟩ ⟨[], []⟩ "aa\tb<aaa" .kept "aa") blankPage =
        (.ok h, w') ∧
      w' = blankPage.append ⟨0⟩ nodes ∧ .text "" ∉ nodes ∧
      w'.LaysOut ⟨0⟩ h ["", "\tb<", "a"] ∧ "aa".intercalate ["", "\tb<", "a"] = "aa\tb<aaa" := by
  have hopened : blankPage.Opened ⟨0⟩ := Nat.zero_lt_one
  obtain ⟨lines, hsplits, -, hlaid, -, hkept⟩ := World.text_laid_out reachable_blankPage hopened
    plain_blankPage ⟨[], []⟩ "aa\tb<aaa" (show "aa" ≠ "" by decide) .kept
  have hthree : Build.Splits "aa".toList "aa\tb<aaa".toList
      ["".toList, "\tb<".toList, "a".toList] := Build.splits_splitLines (by decide) _
  obtain rfl := hsplits.unique hthree
  obtain ⟨hfits, hjoined⟩ := hkept rfl
  obtain ⟨h, w', nodes, hrun, hw', hnone, hout⟩ := hlaid (hfits (by decide))
  exact ⟨reachable_blankPage, hopened, plain_blankPage, .kept, h, w', nodes, hrun, hw', hnone, hout,
    hjoined⟩

/-- A tab cannot stand for more spaces than a text can hold, and the text need not even have a
tab. -/
theorem overlong_tab : blankPage.Reachable ∧ blankPage.Opened ⟨0⟩ ∧
    (blankPage.arena ⟨0⟩).options.Plain ∧
    Build.Tab.Means (.spaces (.ofNat 1000000000)) (some 1000000000) ∧
    perform (Build.lines ⟨0⟩ ⟨[], []⟩ "a" (.spaces (.ofNat 1000000000)) "\n") blankPage =
      (.error .textTooLong, blankPage) := by
  have hmeans : Build.Tab.Means (.spaces (.ofNat 1000000000)) (some 1000000000) :=
    .spaces (by decide)
  refine ⟨reachable_blankPage, Nat.zero_lt_one, plain_blankPage, hmeans, ?_⟩
  rw [Build.lines_eq, perform_bind, perform_observe, hmeans.count?_eq, if_pos (by decide)]

end MarkupArena
