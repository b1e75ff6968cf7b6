import MarkupArena.Proofs.Splitting
import MarkupArena.Proofs.Transparency

/-! Text laid out in lines: when that fails, and what is stored if it does not. -/
namespace MarkupArena

theorem Number.floor?_of_nat? {x : Number} {n : Nat} (hx : x.nat? = some n) :
    x.floor? = some (n : Int) := by
  cases x with
  | infinite => cases hx
  | nan => cases hx
  | finite negative mantissa exponent =>
    unfold Number.nat? at hx
    unfold Number.floor?
    dsimp only at hx ⊢
    split at hx
    next hzero =>
      obtain rfl := Option.some.inj hx
      simp [hzero]
    next =>
    split at hx
    next => cases hx
    next hpositive =>
      rw [if_neg hpositive]
      split at hx
      next hwhole =>
        obtain rfl := Option.some.inj hx
        rw [if_neg (Int.not_lt.mpr hwhole), Int.natCast_mul]
      next hfraction =>
        split at hx
        next hdivides =>
          obtain rfl := Option.some.inj hx
          rw [if_pos (Int.not_le.mp hfraction), Int.fdiv_eq_ediv_of_nonneg _ (Int.natCast_nonneg _),
            Int.natCast_ediv]
        next => cases hx

namespace Build

/-- How many spaces a tab stands for, or none if tabs stay, where the width is a natural number. -/
inductive Tab.Means : Tab → Option Nat → Prop where
  | kept : Means .kept none
  | spaces {width : Number} {count : Nat} : width.nat? = some count →
      Means (.spaces width) (some count)

theorem Tab.Means.count?_eq {tab : Tab} {count : Option Nat} (h : tab.Means count) :
    tab.count? = if Text.maxUnits < count.getD 0 then .error .textTooLong else .ok count := by
  cases h with
  | kept => rfl
  | @spaces width count hwidth =>
    have hfloor := Number.floor?_of_nat? hwidth
    cases width with
    | infinite => cases hwidth
    | nan => cases hwidth
    | finite negative mantissa exponent =>
      simp only [Tab.count?, hfloor, Option.getD_some, Int.toNat_natCast]

/-- A line with its tabs replaced. -/
def written (count : Option Nat) (line : List Char) : String :=
  String.ofList (expandTabs count line)

theorem expandTabs_none (line : List Char) : expandTabs none line = line := by
  induction line with
  | nil => rfl
  | cons c rest ih =>
    have hcons : expandTabs none (c :: rest) =
        (if c = '\t' then tabText none else [c]) ++ expandTabs none rest := List.flatMap_cons
    rw [hcons, ih]
    split
    next htab => rw [htab]; rfl
    next => rfl

theorem length_units_tabText (count : Option Nat) :
    ((tabText count).flatMap Text.unitsOf).length = count.getD 1 := by
  cases count with
  | none => rfl
  | some count => simp [tabText, List.length_flatMap, Text.unitsOf]

/-- The size that is counted is that of the text. -/
theorem expandedSize_eq (count : Option Nat) (line : List Char) :
    expandedSize count line = (Text.units (written count line)).length := by
  have hfold : ∀ n, line.foldl (fun n c => n + if c = '\t' then count.getD 1
      else (Text.unitsOf c).length) n =
        n + ((expandTabs count line).flatMap Text.unitsOf).length := by
    induction line with
    | nil => exact fun n => rfl
    | cons c rest ih =>
      intro n
      have hcons : expandTabs count (c :: rest) =
          (if c = '\t' then tabText count else [c]) ++ expandTabs count rest := List.flatMap_cons
      have hfirst : ((if c = '\t' then tabText count else [c]).flatMap Text.unitsOf).length =
          if c = '\t' then count.getD 1 else (Text.unitsOf c).length := by
        split
        · exact length_units_tabText count
        · simp
      rw [List.foldl_cons, ih, hcons, List.flatMap_append, List.length_append, hfirst]
      omega
  rw [expandedSize, hfold, Nat.zero_add, written, Text.units, String.toList_ofList]

/-- Neither what a tab stands for nor any line with its tabs replaced is longer than a text can
be. -/
def Fits (count : Option Nat) (lines : List (List Char)) : Prop :=
  count.getD 0 ≤ Text.maxUnits ∧
    ∀ line ∈ lines, (Text.units (written count line)).length ≤ Text.maxUnits

theorem expand?_eq (count : Option Nat) (line : List Char) :
    expand? count line = if (Text.units (written count line)).length ≤ Text.maxUnits then
      .ok (expandTabs count line) else .error .textTooLong := by
  rw [expand?, expandedSize_eq]
  split
  next h => rw [if_neg (Nat.not_le.mpr h)]
  next h => rw [if_pos (Nat.not_lt.mp h)]

end Build

/-- The bundled schema, and neither call sites nor a budget. -/
structure ArenaOptions.Plain (options : ArenaOptions) : Prop where
  schema : options.schema = .html
  traceConstruction : options.traceConstruction = false
  maxNodes : options.maxNodes = none

namespace World

/-- An arena with plain options, in a world where children are stored before their parents. -/
structure Plain (w : World) (a : ArenaId) : Prop where
  ordered : w.Ordered
  opened : w.Opened a
  options : (w.arena a).options.Plain

variable {w : World} {a : ArenaId}

theorem Plain.store (hw : w.Plain a) {node : Node}
    (hall : ∀ child ∈ node.children, ∃ n, w.resolve a child = .ok n) :
    (w.store a node).Plain a where
  ordered := hw.ordered.step (.growth (.store hw.opened hall))
  opened := opened_store.mpr hw.opened
  options := (w.grows_store a node).options hw.opened ▸ hw.options

theorem Plain.allocate (hw : w.Plain a) {node : Node}
    (hall : ∀ child ∈ node.children, ∃ n, w.resolve a child = .ok n) :
    perform (allocate a node) w = (.ok ((w.store a node).lastHandle a), w.store a node) := by
  apply allocate_of_resolves _ hall
  rw [Arena.exceededLimit?, hw.options.maxNodes]
  rfl

/-- An element is stored at once above what it may be made from, and as it was given. -/
theorem Plain.element (hw : w.Plain a) {handles : List Handle} {contents : List Content}
    (hchildren : List.Forall₂ (w.Denotes a) handles contents) (site : CallSite) {tag : String}
    {input : AttributeInput} {info : TagInfo}
    (hmakeable : Makeable (w.arena a).options tag input
      (Content.Reader.summary.readAll contents) info) {children : List Child}
    (hparts : Child.listParts children = handles.map Part.node) {made : Element}
    (hmade : made = ⟨info, AttributeInput.kept input.pairs, handles⟩) :
    perform (Build.element a site tag input children) w =
      (.ok ((w.store a (.element made)).lastHandle a), w.store a (.element made)) := by
  subst hmade
  have haccept := (hw.ordered.accept_of_denotes hchildren).mpr ⟨rfl, hmakeable⟩
  rw [Build.perform_element, Build.perform_elementAt, hparts, haccept, hw.options.traceConstruction]
  exact Build.perform_storeAbove hw.options.maxNodes hchildren rfl

end World

namespace Html

theorem exists_of_any {α : Type} {p : α → Bool} {x : Option α} (h : x.any p = true) :
    ∃ y, x = some y ∧ p y = true := by
  cases x with
  | none => cases h
  | some y => exact ⟨y, rfl, h⟩

/-- The entries of a division and of a line break, and what lines need of them: the division may
hold text, breaks and the attribute that names its class. -/
structure LineTags (div br : TagInfo) : Prop where
  division : Schema.html.find? "div" = some div
  lineBreak : Schema.html.find? "br" = some br
  closes : div.hasClosingTag = true
  void : br.hasClosingTag = false
  text : div.allowsText = true
  child : Schema.html.checkChild "div" "br" = .ok ()
  named : Schema.html.checkAttribute "div" "class" = .ok ()

theorem exists_lineTags : ∃ div br, LineTags div br := by
  have hdiv : ((Schema.html.find? "div").any fun info => info.hasClosingTag && info.allowsText) =
      true := by decide +kernel
  have hbr : ((Schema.html.find? "br").any fun info => !info.hasClosingTag) = true := by
    decide +kernel
  obtain ⟨div, hdiv, hboth⟩ := exists_of_any hdiv
  obtain ⟨br, hbr, hvoid⟩ := exists_of_any hbr
  obtain ⟨hcloses, htext⟩ := Bool.and_eq_true_iff.mp hboth
  have hchild : Schema.html.checkChild "div" "br" = .ok () := by decide +kernel
  have hattribute : Schema.html.checkAttribute "div" "class" = .ok () := by decide +kernel
  exact ⟨div, br, hdiv, hbr, hcloses, by simpa using hvoid, htext, hchild, hattribute⟩

end Html

namespace Build

/-- What is stored for a line: its text, unless it is empty, and a line break. -/
def lineNodes (br : TagInfo) (line : List Char) : List Node :=
  (if line.isEmpty then [] else [.text (String.ofList line)]) ++ [.element ⟨br, [], []⟩]

variable {w : World} {a : ArenaId} {br : TagInfo}

theorem perform_break (hw : w.Plain a) (hbr : Schema.html.find? "br" = some br)
    (site : CallSite) : perform (element a site "br" .empty []) w =
      (.ok ((w.store a (.element ⟨br, [], []⟩)).lastHandle a),
        w.store a (.element ⟨br, [], []⟩)) := by
  have hmakeable : World.Makeable (w.arena a).options "br" .empty
      (Content.Reader.summary.readAll []) br := by
    refine ⟨hw.options.schema ▸ hbr, AttributeInput.fresh_nil [], fun _ => ⟨?_, ?_, nofun⟩⟩
    · exact fun _ h => absurd h List.not_mem_nil
    · exact fun _ h => absurd h List.not_mem_nil
  exact hw.element .nil site hmakeable rfl rfl

/-- A line is stored in a plain arena as it is. -/
theorem perform_storeLine (hw : w.Plain a) (hbr : Schema.html.find? "br" = some br)
    (site : CallSite) (line : List Char) :
    (w.append a (lineNodes br line)).Plain a ∧ ∃ handles,
      perform (storeLine a site line) w = (.ok handles, w.append a (lineNodes br line)) ∧
      List.Forall₂ (fun h n => (w.append a (lineNodes br line)).resolve a h = .ok n) handles
        (lineNodes br line) := by
  let brNode : Node := .element ⟨br, [], []⟩
  have hbreak : ∀ {v : World}, v.Plain a → (v.store a brNode).Plain a := fun hv =>
    hv.store fun _ h => absurd h List.not_mem_nil
  have hend : ∀ {v : World} (before : List Handle), v.Plain a → perform (do
        let lineBreak ← element a site "br" .empty []
        return before ++ [lineBreak]) v =
      (.ok (before ++ [(v.store a brNode).lastHandle a]), v.store a brNode) := by
    intro v before hv
    rw [perform_bind, perform_break hv hbr]
    rfl
  cases line with
  | nil =>
    have hnodes : lineNodes br [] = [brNode] := rfl
    rw [hnodes, ← World.store_eq_append]
    exact ⟨hbreak hw, _, hend [] hw, .cons (World.holds_lastHandle hw.opened _).resolve .nil⟩
  | cons c rest =>
    let textNode : Node := .text (String.ofList (c :: rest))
    have hnodes : lineNodes br (c :: rest) = [textNode, brNode] := rfl
    have hleaf : ∀ child ∈ textNode.children, ∃ n, w.resolve a child = .ok n := fun _ h =>
      absurd h List.not_mem_nil
    have htext : (w.store a textNode).Plain a := hw.store hleaf
    have hstored : w.append a [textNode, brNode] = (w.store a textNode).store a brNode := by
      rw [World.append_cons, ← World.store_eq_append]
    have hgrows := (w.store a textNode).grows_store a brNode
    have hheld := (World.holds_lastHandle hw.opened textNode).resolve
    rw [hnodes, hstored]
    refine ⟨hbreak htext, _, ?_, .cons (World.resolve_grow hgrows hheld)
      (.cons (World.holds_lastHandle htext.opened _).resolve .nil)⟩
    have hrun : storeLine a site (c :: rest) = (do
        let handle ← allocate a textNode
        let lineBreak ← element a site "br" .empty []
        return [handle] ++ [lineBreak]) := rfl
    rw [hrun, perform_bind, hw.allocate hleaf]
    exact hend [_] htext

/-- Expands and stores one line. -/
def layLine (a : ArenaId) (site : CallSite) (count : Option Nat) (line : List Char) :
    Action (List Handle) := do
  let expanded ← observe fun _ => expand? count line
  storeLine a site expanded

def rowNodes (br : TagInfo) (count : Option Nat) (lines : List (List Char)) : List Node :=
  lines.flatMap fun line => lineNodes br (expandTabs count line)

theorem rowNodes_cons (br : TagInfo) (count : Option Nat) (line : List Char)
    (rest : List (List Char)) : rowNodes br count (line :: rest) =
      lineNodes br (expandTabs count line) ++ rowNodes br count rest := List.flatMap_cons

theorem perform_layLine (count : Option Nat) (site : CallSite) (line : List Char) :
    perform (layLine a site count line) w =
      if (Text.units (written count line)).length ≤ Text.maxUnits then
        perform (storeLine a site (expandTabs count line)) w
      else (.error .textTooLong, w) := by
  unfold layLine
  rw [perform_bind, perform_observe, expand?_eq]
  by_cases h : (Text.units (written count line)).length ≤ Text.maxUnits
  · rw [if_pos h, if_pos h]
  · rw [if_neg h, if_neg h]

theorem perform_layLines (hw : w.Plain a) (hbr : Schema.html.find? "br" = some br)
    (site : CallSite) {count : Option Nat} {lines : List (List Char)}
    (hfits : ∀ line ∈ lines, (Text.units (written count line)).length ≤ Text.maxUnits) :
    (w.append a (rowNodes br count lines)).Plain a ∧ ∃ rows,
      perform (lines.mapM (layLine a site count)) w =
        (.ok rows, w.append a (rowNodes br count lines)) ∧
      List.Forall₂ (fun h n => (w.append a (rowNodes br count lines)).resolve a h = .ok n)
        rows.flatten (rowNodes br count lines) := by
  induction lines generalizing w with
  | nil =>
    have hsame : w.append a (rowNodes br count []) = w := w.append_nil a
    rw [hsame]
    exact ⟨hw, [], rfl, .nil⟩
  | cons line rest ih =>
    obtain ⟨hline, hrest⟩ := List.forall_mem_cons.mp hfits
    obtain ⟨hw', handles, hrun, hheld⟩ := perform_storeLine hw hbr site (expandTabs count line)
    obtain ⟨hw'', rows, hruns, hrows⟩ := ih hw' hrest
    have hgrows := World.grows_append (w.append a (lineNodes br (expandTabs count line))) a
      (rowNodes br count rest)
    rw [World.append_append] at hw'' hruns hrows hgrows
    rw [rowNodes_cons]
    refine ⟨hw'', handles :: rows, ?_, ?_⟩
    · rw [List.mapM_cons, perform_bind, perform_layLine, if_pos hline, hrun]
      simp only [perform_bind, hruns, perform_pure]
    · rw [List.flatten_cons]
      exact List.rel_append (hheld.imp fun _ _ => World.resolve_grow hgrows) hrows

/-- A line that is too long ends the work. -/
theorem perform_layLines_of_overlong (hw : w.Plain a) (hbr : Schema.html.find? "br" = some br)
    (site : CallSite) {count : Option Nat} {lines : List (List Char)}
    (hlong : ∃ line ∈ lines, Text.maxUnits < (Text.units (written count line)).length) :
    ∃ w', perform (lines.mapM (layLine a site count)) w = (.error .textTooLong, w') := by
  induction lines generalizing w with
  | nil =>
    obtain ⟨line, hmem, -⟩ := hlong
    cases hmem
  | cons line rest ih =>
    simp only [List.mapM_cons, perform_bind_eq_error_iff]
    by_cases hline : (Text.units (written count line)).length ≤ Text.maxUnits
    · obtain ⟨hw', handles, hrun, -⟩ := perform_storeLine hw hbr site (expandTabs count line)
      have hrest : ∃ line ∈ rest, Text.maxUnits < (Text.units (written count line)).length := by
        obtain ⟨other, hmem, hother⟩ := hlong
        rcases List.mem_cons.mp hmem with rfl | hmem
        · exact absurd hline (Nat.not_le.mpr hother)
        · exact ⟨other, hmem, hother⟩
      obtain ⟨w', hfails⟩ := ih hw' hrest
      exact ⟨w', .inr ⟨_, _, by rw [perform_layLine, if_pos hline, hrun], .inl hfails⟩⟩
    · exact ⟨w, .inl (by rw [perform_layLine, if_neg hline])⟩

/-- The division around the lines. -/
def divNode (div : TagInfo) (handles : List Handle) : Node :=
  .element ⟨div, [⟨"class", "soft_pre"⟩], handles⟩

theorem contents_of_resolves {handles : List Handle} {nodes : List Node}
    (h : List.Forall₂ (fun h n => w.resolve a h = .ok n) handles nodes)
    (hleaves : ∀ n ∈ nodes, n.children = []) :
    List.Forall₂ (w.Denotes a) handles (nodes.map (·.contentWith [])) := by
  induction h with
  | nil => exact .nil
  | cons hfirst _ ih =>
    obtain ⟨hleaf, hrest⟩ := List.forall_mem_cons.mp hleaves
    exact .cons (World.denotes_of_resolve hfirst (hleaf ▸ .nil)) (ih hrest)

theorem mem_rowNodes {count : Option Nat} {lines : List (List Char)} {n : Node}
    (h : n ∈ rowNodes br count lines) :
    n = .element ⟨br, [], []⟩ ∨ ∃ value, value ≠ "" ∧ n = .text value := by
  obtain ⟨line, -, h⟩ := List.mem_flatMap.mp h
  rcases List.mem_append.mp h with h | h
  · right
    split at h
    next => cases h
    next hne =>
      refine ⟨_, fun hempty => hne ?_, List.mem_singleton.mp h⟩
      rw [← String.toList_inj, String.toList_ofList] at hempty
      rw [hempty]
      rfl
  · exact .inl (List.mem_singleton.mp h)

theorem children_of_mem_rowNodes {count : Option Nat} {lines : List (List Char)} {n : Node}
    (h : n ∈ rowNodes br count lines) : n.children = [] := by
  rcases mem_rowNodes h with rfl | ⟨value, -, rfl⟩ <;> rfl

/-- A division may be made around lines. -/
theorem makeable_div {options : ArenaOptions} (hoptions : options.Plain) {div : TagInfo}
    (htags : Html.LineTags div br) (count : Option Nat) (lines : List (List Char)) :
    World.Makeable options "div" (.record [("class", .text "soft_pre")])
      (Content.Reader.summary.readAll ((rowNodes br count lines).map (·.contentWith []))) div := by
  have hkept : AttributeInput.kept (AttributeInput.record [("class", .text "soft_pre")]).pairs =
      [⟨"class", "soft_pre"⟩] := by decide
  refine ⟨hoptions.schema ▸ htags.division, ?_, fun _ => ⟨?_, ?_, fun _ => htags.text⟩⟩
  · rw [hkept]
    exact ⟨by decide, by decide, by decide⟩
  · rw [hkept, hoptions.schema]
    exact List.forall_mem_singleton.mpr htags.named
  · intro name hname
    rw [hoptions.schema, Schema.tagName_of_find? htags.division]
    obtain ⟨summary, hsummary, hname⟩ := List.mem_flatMap.mp hname
    rw [List.map_map] at hsummary
    obtain ⟨n, hn, rfl⟩ := List.mem_map.mp hsummary
    rcases mem_rowNodes hn with rfl | ⟨value, -, rfl⟩
    · have hname : name = br.tagName := List.mem_singleton.mp hname
      rw [hname, Schema.tagName_of_find? htags.lineBreak]
      exact htags.child
    · cases hname

theorem lines_eq (a : ArenaId) (site : CallSite) (value : String) (tab : Tab)
    (separator : String) : lines a site value tab separator = (do
      let count ← observe fun _ => tab.count?
      let stored ← (linesOf separator.toList value.toList).mapM (layLine a site count)
      element a site "div" (.record [("class", .text "soft_pre")])
        [.many (stored.flatten.map Child.node)]) := rfl

/-- Lines that fit are stored one by one, and a division around them last. -/
theorem perform_lines (hw : w.Plain a) {div : TagInfo} (htags : Html.LineTags div br) {tab : Tab}
    {count : Option Nat} (htab : tab.Means count) (site : CallSite) {value separator : String}
    (hfits : Fits count (linesOf separator.toList value.toList)) :
    ∃ handles w', perform (lines a site value tab separator) w = (.ok (w'.lastHandle a), w') ∧
      w' = w.append a (rowNodes br count (linesOf separator.toList value.toList) ++
        [divNode div handles]) ∧ w'.Ordered ∧
      w'.resolve a (w'.lastHandle a) = .ok (divNode div handles) ∧
      List.Forall₂ (fun h n => w'.resolve a h = .ok n) handles
        (rowNodes br count (linesOf separator.toList value.toList)) := by
  obtain ⟨hv, rows, hrun, hrows⟩ := perform_layLines hw htags.lineBreak site hfits.2
  rw [lines_eq, perform_bind, perform_observe, htab.count?_eq, if_neg (Nat.not_lt.mpr hfits.1)]
  simp only [perform_bind, hrun]
  generalize hnodes : rowNodes br count (linesOf separator.toList value.toList) = nodes at *
  have hdenotes : List.Forall₂ ((w.append a nodes).Denotes a) rows.flatten
      (nodes.map (·.contentWith [])) :=
    contents_of_resolves hrows fun n hn => children_of_mem_rowNodes (hnodes ▸ hn)
  have hmakeable := makeable_div hv.options htags count (linesOf separator.toList value.toList)
  rw [hnodes] at hmakeable
  have hparts : Child.listParts [.many (rows.flatten.map Child.node)] =
      rows.flatten.map Part.node := by
    rw [Child.listParts_singleton, Child.parts, Child.listParts_map_node]
  have hresolves := World.resolves_of_denotes hdenotes
  have hstored : (w.append a nodes).store a (divNode div rows.flatten) =
      w.append a (nodes ++ [divNode div rows.flatten]) := World.store_append ..
  have hdone : ((w.append a nodes).store a (divNode div rows.flatten)).Plain a := hv.store hresolves
  refine ⟨rows.flatten, _, hv.element hdenotes site hmakeable hparts rfl, hstored, ?_, ?_, ?_⟩
  · exact hdone.ordered
  · exact (World.holds_lastHandle hv.opened _).resolve
  · exact hrows.imp fun _ _ => World.resolve_grow (World.grows_store _ a _)

/-- Lines that do not fit are refused. -/
theorem perform_lines_of_not_fits (hw : w.Plain a) {tab : Tab} {count : Option Nat}
    (htab : tab.Means count) (site : CallSite) {value separator : String}
    (hnot : ¬ Fits count (linesOf separator.toList value.toList)) :
    (perform (lines a site value tab separator) w).1 = .error .textTooLong := by
  obtain ⟨div, br, htags⟩ := Html.exists_lineTags
  rw [lines_eq, perform_bind, perform_observe, htab.count?_eq]
  by_cases hcount : Text.maxUnits < count.getD 0
  · rw [if_pos hcount]
  · have hlong : ∃ line ∈ linesOf separator.toList value.toList,
        Text.maxUnits < (Text.units (written count line)).length := by
      by_contra hall
      push Not at hall
      exact hnot ⟨Nat.not_lt.mp hcount, hall⟩
    obtain ⟨w', hfails⟩ := perform_layLines_of_overlong hw htags.lineBreak site hlong
    rw [if_neg hcount]
    exact congrArg Prod.fst (perform_bind_eq_error_iff.mpr (.inl hfails))

end Build

end MarkupArena
