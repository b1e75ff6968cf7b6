import MarkupArena.Proofs.Unescaping
import MarkupArena.Reading.Summary

/-! Markup that was written in tags and characters is split into the same tags and characters. What
is lost is the case of attribute names, all but the first attribute of a name, and characters of
values that markup does not keep. -/
namespace MarkupArena.Reading

/-- A name of lower-case letters and digits that begins with a letter. -/
def IsPlainName (name : String) : Prop :=
  ∃ first more, name.toList = first :: more ∧ first.isLower ∧ ∀ c ∈ more, c.isLower || c.isDigit

theorem toLower_of_plain {c : Char} (hc : c.isLower || c.isDigit) : c.toLower = c := by
  have hlower : c.isLower = (c.val ≥ 'a'.val && c.val ≤ 'z'.val) := rfl
  have hnot : ¬ (c.val ≥ 'A'.val ∧ c.val ≤ 'Z'.val) := by
    simp [hlower, Char.isDigit, UInt32.le_iff_toNat_le] at hc ⊢
    omega
  exact dif_neg hnot

theorem ne_of_plain {c d : Char} (hc : c.isLower || c.isDigit)
    (hd : (d.isLower || d.isDigit) = false) : c ≠ d := by
  rintro rfl
  rw [hc] at hd
  cases hd

theorem isNameChar_of_isMarkupSpace {c : Char} (hc : Text.isMarkupSpace c) :
    Text.isNameChar c = false := by
  simp only [Text.isMarkupSpace, Bool.or_eq_true, beq_iff_eq] at hc
  rcases hc with (((rfl | rfl) | rfl) | rfl) | rfl <;> decide

/-- An attribute name holds nothing that would end it where it is read. -/
theorem not_ends_of_isNameChar {c : Char} (hc : Text.isNameChar c) :
    Text.isMarkupSpace c = false ∧ c ≠ '/' ∧ c ≠ '>' ∧ c ≠ '=' := by
  have hne : ∀ d, Text.isNameChar d = false → c ≠ d := by
    rintro d hd rfl
    rw [hc] at hd
    cases hd
  refine ⟨?_, hne _ (by decide), hne _ (by decide), hne _ (by decide)⟩
  cases hspace : Text.isMarkupSpace c with
  | false => rfl
  | true => exact absurd rfl (hne c (isNameChar_of_isMarkupSpace hspace))

namespace OpenTag

theorem foldCase_of_plain {c : Char} (hc : c.isLower || c.isDigit) : foldCase c = c := by
  unfold foldCase withoutNul
  rw [toLower_of_plain hc, if_neg (ne_of_plain hc (by decide))]

theorem read_cons {t : OpenTag} {c : Char} (h : (t.feed c).place ≠ .closed) (rest : List Char) :
    t.read (c :: rest) = (t.feed c).read rest := by
  rw [read]
  exact if_neg h

theorem read_last {t : OpenTag} {c : Char} (h : (t.feed c).place = .closed) (rest : List Char) :
    t.read (c :: rest) = ((t.feed c).commit, rest) := by
  rw [read]
  exact if_pos h

/-- Characters that all add to what is being read are read as a run. -/
theorem read_run (part : List Char → OpenTag) (fold : Char → Char) {run : List Char}
    (hopen : ∀ done, (part done).place ≠ .closed)
    (hfeed : ∀ done, ∀ c ∈ run, (part done).feed c = part (fold c :: done))
    (done rest : List Char) :
    (part done).read (run ++ rest) = (part ((run.map fold).reverse ++ done)).read rest := by
  induction run generalizing done with
  | nil => rfl
  | cons c run ih =>
    have hfirst := hfeed done c List.mem_cons_self
    have hnext : ((part done).feed c).place ≠ .closed := hfirst ▸ hopen _
    rw [List.cons_append, read_cons hnext, hfirst,
      ih fun done d hd => hfeed done d (List.mem_cons_of_mem _ hd), List.map_cons,
      List.reverse_cons, List.append_assoc, List.singleton_append]

/-- A tag of which nothing but its name was read. -/
def named (name : List Char) : OpenTag := ⟨.tagName, name, none, [], false, false⟩

theorem read_name {run : List Char} (hrun : ∀ c ∈ run, c.isLower || c.isDigit)
    (name rest : List Char) :
    (named name).read (run ++ rest) = (named (run.reverse ++ name)).read rest := by
  have hfeed : ∀ name, ∀ c ∈ run, (named name).feed c = named (c :: name) := by
    intro name c hc
    have hplain := hrun c hc
    have hspace : Text.isMarkupSpace c = false := by
      simp [Text.isMarkupSpace, ne_of_plain hplain]
    simp [named, feed, hspace, ne_of_plain hplain, foldCase_of_plain hplain]
  have hread := read_run named id nofun hfeed name rest
  rwa [List.map_id] at hread

/-- The tag with an attribute begun after those it had. -/
def begun (t : OpenTag) (name value : List Char) (place : Place) : OpenTag :=
  { t.commit with current := some (name, value), place }

theorem read_attributeName {run : List Char} (hrun : ∀ c ∈ run, Text.isNameChar c) (t : OpenTag)
    (name rest : List Char) : (t.begun name [] .attributeName).read (run ++ rest) =
      (t.begun ((run.map foldCase).reverse ++ name) [] .attributeName).read rest := by
  refine read_run (fun name => t.begun name [] .attributeName) foldCase nofun ?_ name rest
  intro name c hc
  obtain ⟨hspace, hslash, hbracket, hequals⟩ := not_ends_of_isNameChar (hrun c hc)
  simp [begun, feed, hspace, hslash, hbracket, hequals, pushName]

theorem read_quoted {run : List Char} (hrun : '"' ∉ run) (t : OpenTag)
    (name value rest : List Char) : (t.begun name value .doubleQuoted).read (run ++ rest) =
      (t.begun name ((run.map withoutNul).reverse ++ value) .doubleQuoted).read rest := by
  refine read_run (fun value => t.begun name value .doubleQuoted) withoutNul nofun ?_ value rest
  intro value c hc
  have hquote : c ≠ '"' := fun he => hrun (he ▸ hc)
  simp [begun, feed, hquote, pushValue]

theorem quote_not_mem_flatMap (value : List Char) :
    '"' ∉ value.flatMap Text.writeValueChar := by
  intro hmem
  obtain ⟨c, -, hc⟩ := List.mem_flatMap.mp hmem
  exact (Text.mem_writeValueChar hc).1 rfl

theorem commit_moveTo (t : OpenTag) (place : Place) :
    (t.moveTo place).commit = { t.commit with place } := by
  obtain ⟨_, _, current, _, _, _⟩ := t
  cases current <;> rfl

theorem startAttribute_moveTo (t : OpenTag) (place : Place) (c : Char) :
    (t.moveTo place).startAttribute c = t.begun [foldCase c] [] .attributeName := by
  unfold startAttribute begun
  rw [commit_moveTo]

/-- The tag with a whole attribute after those it had. -/
def withAttribute (t : OpenTag) (given : Attribute) : OpenTag :=
  t.begun (given.name.toList.map foldCase).reverse
    ((given.value.toList.flatMap Text.writeValueChar).map withoutNul).reverse .afterValue

/-- An attribute is read up to the quote that ends its value. -/
theorem read_attribute {t : OpenTag} (ht : t.place = .tagName ∨ t.place = .afterValue)
    {given : Attribute} (hname : Text.isAttributeName given.name) (rest : List Char) :
    t.read (writeAttribute given ++ rest) = (t.withAttribute given).read rest := by
  simp only [Text.isAttributeName, Bool.and_eq_true, List.all_eq_true] at hname
  obtain ⟨hne, hall⟩ := hname
  cases hchars : given.name.toList with
  | nil => simp [hchars] at hne
  | cons first more =>
    rw [hchars, List.forall_mem_cons] at hall
    obtain ⟨hspace, hslash, hbracket, -⟩ := not_ends_of_isNameChar hall.1
    have hblank : t.feed ' ' = t.moveTo .beforeName := by
      rcases ht with ht | ht <;> simp [feed, ht, beforeName, Text.isMarkupSpace]
    have hfirst : (t.moveTo .beforeName).feed first =
        t.begun [foldCase first] [] .attributeName := by
      rw [← startAttribute_moveTo t .beforeName]
      simp [feed, moveTo, beforeName, hspace, hslash, hbracket]
    have hequals : ∀ name, (t.begun name [] .attributeName).feed '=' =
        t.begun name [] .beforeValue := fun name => rfl
    have hopening : ∀ name, (t.begun name [] .beforeValue).feed '"' =
        t.begun name [] .doubleQuoted := fun name => rfl
    have hclosing : ∀ name value, (t.begun name value .doubleQuoted).feed '"' =
        t.begun name value .afterValue := fun name value => rfl
    simp only [writeAttribute, hchars, List.cons_append, List.append_assoc, List.nil_append]
    rw [read_cons (by rw [hblank]; simp [moveTo]), hblank,
      read_cons (by rw [hfirst]; simp [begun]), hfirst, read_attributeName hall.2,
      read_cons (by rw [hequals]; simp [begun]), hequals,
      read_cons (by rw [hopening]; simp [begun]), hopening, read_quoted (quote_not_mem_flatMap _),
      read_cons (by rw [hclosing]; simp [begun]), hclosing]
    simp [withAttribute, hchars]

/-- An attribute as it is read: its name in lower case, and what cannot be read replaced. -/
def attributeRead (given : Attribute) : Attribute :=
  ⟨String.ofList (given.name.toList.map foldCase),
    String.ofList (given.value.toList.map withoutNul)⟩

/-- Of attributes with one name only the first is kept. -/
def keepFirst (kept : List Attribute) (given : Attribute) : List Attribute :=
  if kept.any fun other => other.name == given.name then kept else kept ++ [given]

theorem map_withoutNul_flatMap (value : List Char) :
    (value.flatMap Text.writeValueChar).map withoutNul =
      (value.map withoutNul).flatMap Text.writeValueChar := by
  rw [List.map_flatMap, List.flatMap_map]
  refine congrArg (List.flatMap · value) (funext fun c => ?_)
  by_cases hamp : c = '&'
  · rw [hamp]
    decide
  by_cases hquote : c = '"'
  · rw [hquote]
    decide
  by_cases hnul : c = '\x00'
  · rw [hnul]
    decide
  · simp [Text.writeValueChar, withoutNul, hamp, hquote, hnul]

theorem current_commit (t : OpenTag) : t.commit.current = none := by
  cases h : t.current <;> simp [commit, h]

theorem commit_withAttribute (t : OpenTag) (given : Attribute) :
    (t.withAttribute given).commit = { t.commit with
      attributes := keepFirst t.commit.attributes (attributeRead given)
      place := .afterValue } := by
  have hvalue : decode? true ((given.value.toList.flatMap Text.writeValueChar).map withoutNul) =
      some (given.value.toList.map withoutNul) := by
    rw [map_withoutNul_flatMap, decode?_flatMap standsFor_writeValueChar]
  have hnone := t.current_commit
  unfold withAttribute begun
  generalize t.commit = before at hnone ⊢
  simp [commit, hvalue, hnone, keepFirst, attributeRead]

/-- The attributes of a tag as they are read. -/
def attributesRead (given : List Attribute) : List Attribute :=
  (given.map attributeRead).foldl keepFirst []

theorem read_attributes {given : List Attribute}
    (hnames : ∀ g ∈ given, Text.isAttributeName g.name) {t : OpenTag}
    (ht : t.place = .tagName ∨ t.place = .afterValue) (rest : List Char) :
    t.read (given.flatMap writeAttribute ++ '>' :: rest) = ({ t.commit with
      attributes := (given.map attributeRead).foldl keepFirst t.commit.attributes
      place := .closed }, rest) := by
  induction given generalizing t with
  | nil =>
    have hclose : t.feed '>' = t.moveTo .closed := by
      rcases ht with ht | ht <;> simp [feed, ht, beforeName, afterName, Text.isMarkupSpace]
    rw [List.flatMap_nil, List.nil_append, read_last (by rw [hclose]; rfl), hclose, commit_moveTo]
    rfl
  | cons g given ih =>
    rw [List.forall_mem_cons] at hnames
    rw [List.flatMap_cons, List.append_assoc, read_attribute ht hnames.1,
      ih hnames.2 (.inr rfl), commit_withAttribute]
    rfl

theorem read_tag {first : Char} (hfirst : first.isLower) {more : List Char}
    (hmore : ∀ c ∈ more, c.isLower || c.isDigit) {given : List Attribute}
    (hnames : ∀ g ∈ given, Text.isAttributeName g.name) (rest : List Char) :
    (start first).read (more ++ (given.flatMap writeAttribute ++ '>' :: rest)) =
      ({ named (more.reverse ++ [first]) with
        attributes := attributesRead given, place := .closed }, rest) := by
  have hstart : start first = named [first] := by
    unfold start named
    rw [foldCase_of_plain (by rw [hfirst]; rfl)]
  rw [hstart, read_name hmore, read_attributes hnames (.inl rfl)]
  rfl

end OpenTag

section
variable {name : String} (foreign : Bool) (rest : List Char)

theorem isLetter_of_isLower {c : Char} (hc : c.isLower) : isLetter c := by
  unfold isLetter Char.isAlpha
  rw [hc, Bool.or_true]

theorem ofList_name {first : Char} {more : List Char} (hchars : name.toList = first :: more) :
    String.ofList (more.reverse ++ [first]).reverse = name := by
  rw [List.reverse_append, List.reverse_reverse]
  exact String.toList_injective (by rw [String.toList_ofList, hchars]; rfl)

theorem readMarkup_start (hname : IsPlainName name) {given : List Attribute}
    (hnames : ∀ g ∈ given, Text.isAttributeName g.name) :
    readMarkup foreign (name.toList ++ (given.flatMap writeAttribute ++ '>' :: rest)) =
      ([.start ⟨name, OpenTag.attributesRead given, false⟩], rest) := by
  obtain ⟨first, more, hchars, hfirst, hmore⟩ := hname
  rw [hchars, List.cons_append, readMarkup, if_pos (isLetter_of_isLower hfirst),
    OpenTag.read_tag hfirst hmore hnames]
  show ([Token.start ⟨String.ofList (more.reverse ++ [first]).reverse, _, false⟩], rest) = _
  rw [ofList_name hchars]

theorem readEndTag_finish (hname : IsPlainName name) :
    readEndTag (name.toList ++ '>' :: rest) = ([.finish name], rest) := by
  obtain ⟨first, more, hchars, hfirst, hmore⟩ := hname
  have hread := OpenTag.read_tag hfirst hmore (List.forall_mem_nil _) rest
  rw [List.flatMap_nil, List.nil_append] at hread
  rw [hchars, List.cons_append, readEndTag, if_pos (isLetter_of_isLower hfirst), hread]
  show ([Token.finish (String.ofList (more.reverse ++ [first]).reverse)], rest) = _
  rw [ofList_name hchars]

theorem readMarkup_finish (hname : IsPlainName name) :
    readMarkup foreign ('/' :: (name.toList ++ '>' :: rest)) = ([.finish name], rest) := by
  rw [readMarkup, if_neg (by decide), if_pos rfl, readEndTag_finish rest hname]

end

namespace Builder

variable {b : Builder} {fuel : Nat}

theorem readAll_nil (b : Builder) (fuel : Nat) : b.readAll fuel [] = b := by
  cases fuel with
  | zero => rfl
  | succ fuel =>
    rw [readAll]
    split
    next => rfl
    next => rfl

theorem readAll_markup (hfault : b.fault = none) (hmodel : b.model = .markup)
    {text rest : List Char} {tokens : List Token}
    (hread : readMarkup b.elements.context.foreign text = (tokens, rest)) :
    b.readAll (fuel + 1) ('<' :: text) = (b.takeAll tokens).readAll fuel rest := by
  simp [readAll, hfault, hmodel, hread]

theorem readAll_of_ne (hfault : b.fault = none) (hmodel : b.model = .markup) {c : Char}
    (hc : c ≠ '<') (text : List Char) :
    b.readAll (fuel + 1) (c :: text) =
      (b.takeDecoded ((c :: text).takeWhile (· ≠ '<'))).readAll fuel
        ((c :: text).drop ((c :: text).takeWhile (· ≠ '<')).length) := by
  simp [readAll, hfault, hmodel, hc]

/-- Text is taken as a whole up to the next angle bracket. -/
theorem readAll_text (hfault : b.fault = none) (hmodel : b.model = .markup)
    {run rest : List Char} (hne : run ≠ []) (hrun : '<' ∉ run)
    (hrest : ∀ c, rest.head? = some c → c = '<') :
    b.readAll (fuel + 1) (run ++ rest) = (b.takeDecoded run).readAll fuel rest := by
  have hsplit : (run ++ rest).takeWhile (· ≠ '<') = run := by
    have hall : ∀ c ∈ run, decide (c ≠ '<') := fun c hc =>
      decide_eq_true fun he => hrun (he ▸ hc)
    have hstop : rest.takeWhile (· ≠ '<') = [] := by
      cases rest with
      | nil => rfl
      | cons c rest =>
        obtain rfl := hrest c rfl
        rfl
    rw [List.takeWhile_append_of_pos hall, hstop, List.append_nil]
  cases run with
  | nil => exact absurd rfl hne
  | cons c run =>
    have hc : c ≠ '<' := fun he => hrun (he ▸ List.mem_cons_self)
    rw [List.cons_append] at hsplit ⊢
    rw [readAll_of_ne hfault hmodel hc, hsplit, ← List.cons_append, List.drop_left]

theorem takeDecoded_written (b : Builder) (text : List Char) :
    b.takeDecoded (text.flatMap Text.writeTextChar) = b.takeAll (text.map .character) := by
  unfold takeDecoded takeText takeAll
  rw [decode?_flatMap standsFor_writeTextChar, List.foldl_map]
  rfl

end Builder

/-- A piece of markup as it is read. -/
def tokenRead : MarkupArena.Token → Token
  | .doctype => .doctype
  | .start tag given => .start ⟨tag, OpenTag.attributesRead given, false⟩
  | .finish tag => .finish tag
  | .char c => .character c

/-- A tag with plain names, or a character of text. -/
def Readable : MarkupArena.Token → Prop
  | .doctype => False
  | .start tag given => IsPlainName tag ∧ ∀ g ∈ given, Text.isAttributeName g.name
  | .finish tag => IsPlainName tag
  | .char _ => True

theorem exists_run (tokens : List MarkupArena.Token) : ∃ (text : List Char) (rest : _),
    tokens = text.map .char ++ rest ∧ ∀ c more, rest ≠ .char c :: more := by
  induction tokens with
  | nil => exact ⟨[], [], rfl, nofun⟩
  | cons token tokens ih =>
    cases token with
    | char c =>
      obtain ⟨text, rest, rfl, hrest⟩ := ih
      exact ⟨c :: text, rest, rfl, hrest⟩
    | doctype => exact ⟨[], _, rfl, fun _ _ h => by cases h⟩
    | start => exact ⟨[], _, rfl, fun _ _ h => by cases h⟩
    | finish => exact ⟨[], _, rfl, fun _ _ h => by cases h⟩

theorem bracket_not_mem_flatMap (text : List Char) : '<' ∉ text.flatMap Text.writeTextChar := by
  intro hmem
  obtain ⟨c, -, hc⟩ := List.mem_flatMap.mp hmem
  exact (Text.mem_writeTextChar hc).1 rfl

theorem readMarkup_write {token : MarkupArena.Token} (htoken : Readable token)
    (htag : ∀ c, token ≠ .char c) : ∃ written, token.write = '<' :: written ∧
      ∀ foreign rest, readMarkup foreign (written ++ rest) = ([tokenRead token], rest) := by
  cases token with
  | doctype => exact htoken.elim
  | start tag given =>
    refine ⟨_, rfl, fun foreign rest => ?_⟩
    rw [List.append_assoc, List.append_assoc]
    exact readMarkup_start foreign rest htoken.1 htoken.2
  | finish tag =>
    refine ⟨_, rfl, fun foreign rest => ?_⟩
    rw [List.cons_append, List.append_assoc]
    exact readMarkup_finish foreign rest htoken
  | char c => exact absurd rfl (htag c)

theorem flatMap_write_char (text : List Char) :
    (text.map MarkupArena.Token.char).flatMap MarkupArena.Token.write =
      text.flatMap Text.writeTextChar := by
  rw [List.flatMap_map]
  rfl

/-- What is written after a run of text begins with a tag. -/
theorem head?_flatMap_write {rest : List MarkupArena.Token}
    (hreadable : ∀ token ∈ rest, Readable token) (hrest : ∀ c more, rest ≠ .char c :: more)
    {c : Char} (hc : (rest.flatMap MarkupArena.Token.write).head? = some c) : c = '<' := by
  cases rest with
  | nil => cases hc
  | cons token more =>
    cases token with
    | doctype => exact (hreadable _ List.mem_cons_self).elim
    | start => exact (Option.some.inj hc).symm
    | finish => exact (Option.some.inj hc).symm
    | char d => exact absurd rfl (hrest d more)

section
variable {P : Builder → Prop} {b : Builder}

theorem Builder.takeAll_keeps {tokens : List Token} (hb : P b)
    (htake : ∀ b, P b → ∀ token ∈ tokens, P (b.take token)) : P (b.takeAll tokens) := by
  induction tokens generalizing b with
  | nil => exact hb
  | cons token tokens ih =>
    exact ih (htake b hb token List.mem_cons_self) fun b hb token htoken =>
      htake b hb token (List.mem_cons_of_mem _ htoken)

theorem Builder.takeAll_append (b : Builder) (tokens others : List Token) :
    b.takeAll (tokens ++ others) = (b.takeAll tokens).takeAll others :=
  List.foldl_append

/-- Markup that is written in tags and characters is read as these, one after the other, as long as
nothing that is read keeps the reader from going on. -/
theorem readAll_write (hgoes : ∀ b, P b → b.fault = none ∧ b.model = .markup)
    {tokens : List MarkupArena.Token} (hreadable : ∀ token ∈ tokens, Readable token)
    (htake : ∀ b, P b → ∀ token ∈ tokens, P (b.take (tokenRead token))) (hb : P b)
    {fuel : Nat} (hfuel : (tokens.flatMap MarkupArena.Token.write).length ≤ fuel) :
    b.readAll fuel (tokens.flatMap MarkupArena.Token.write) =
      b.takeAll (tokens.map tokenRead) := by
  -- Each round takes one tag or a whole run of text, so it uses up at least one character.
  induction fuel generalizing tokens b with
  | zero =>
    cases tokens with
    | nil => exact b.readAll_nil 0
    | cons token tokens =>
      have hempty := List.eq_nil_of_length_eq_zero (Nat.le_zero.mp hfuel)
      exact absurd (List.append_eq_nil_iff.mp hempty).1 token.write_ne_nil
  | succ fuel ih =>
    obtain ⟨hfault, hmodel⟩ := hgoes b hb
    obtain ⟨text, rest, rfl, hrest⟩ := exists_run tokens
    have hothers : ∀ token ∈ rest, Readable token := fun token htoken =>
      hreadable token (List.mem_append_right _ htoken)
    have hafter : ∀ b, P b → ∀ token ∈ rest, P (b.take (tokenRead token)) :=
      fun b hb token htoken => htake b hb token (List.mem_append_right _ htoken)
    cases text with
    | cons c text =>
      have hrun : (c :: text).flatMap Text.writeTextChar ≠ [] := fun he =>
        (MarkupArena.Token.char c).write_ne_nil (List.append_eq_nil_iff.mp he).1
      have htaken : P (b.takeAll ((c :: text).map .character)) := by
        refine Builder.takeAll_keeps hb fun b hb token htoken => ?_
        obtain ⟨d, hd, rfl⟩ := List.mem_map.mp htoken
        exact htake b hb _ (List.mem_append_left _ (List.mem_map_of_mem hd))
      have hshorter : (rest.flatMap MarkupArena.Token.write).length ≤ fuel := by
        have hpos := List.length_pos_iff.mpr hrun
        rw [List.flatMap_append, flatMap_write_char, List.length_append] at hfuel
        omega
      rw [List.flatMap_append, flatMap_write_char,
        Builder.readAll_text hfault hmodel hrun (bracket_not_mem_flatMap _)
          fun _ => head?_flatMap_write hothers hrest,
        Builder.takeDecoded_written, ih hothers hafter htaken hshorter, List.map_append,
        Builder.takeAll_append, List.map_map]
      rfl
    | nil =>
      rw [List.map_nil, List.nil_append] at hfuel ⊢
      cases rest with
      | nil => exact b.readAll_nil _
      | cons token rest =>
        rw [List.forall_mem_cons] at hothers
        obtain ⟨written, hwritten, hread⟩ :=
          readMarkup_write hothers.1 fun c he => hrest c rest (he ▸ rfl)
        have hshorter : (rest.flatMap MarkupArena.Token.write).length ≤ fuel := by
          rw [List.flatMap_cons, hwritten, List.length_append, List.length_cons] at hfuel
          omega
        rw [List.flatMap_cons, hwritten, List.cons_append,
          Builder.readAll_markup hfault hmodel (hread _ _)]
        exact ih hothers.2 (fun b hb t ht => hafter b hb t (List.mem_cons_of_mem _ ht))
          (hafter b hb token List.mem_cons_self) hshorter

end

/-- The attribute with the line ends in its value made alike. -/
def attributeUnified (given : Attribute) : Attribute :=
  { given with value := String.ofList (normalizeNewlines given.value.toList) }

def tokenUnified : MarkupArena.Token → MarkupArena.Token
  | .start tag given => .start tag (given.map attributeUnified)
  | token => token

theorem normalizeNewlines_attribute {given : Attribute}
    (hname : Text.isAttributeName given.name) (rest : List Char) :
    normalizeNewlines (writeAttribute given ++ rest) =
      writeAttribute (attributeUnified given) ++ normalizeNewlines rest := by
  simp only [Text.isAttributeName, Bool.and_eq_true, List.all_eq_true] at hname
  have hplain : '\r' ∉ ' ' :: (given.name.toList ++ ['=', '"']) := by
    have hnot : '\r' ∉ given.name.toList := fun hmem => absurd (hname.2 _ hmem) (by decide)
    simpa using hnot
  have hvalue := normalizeNewlines_writeValue given.value.toList rest
  have hwhole := normalizeNewlines_append hplain
    (given.value.toList.flatMap Text.writeValueChar ++ '"' :: rest)
  rw [hvalue] at hwhole
  simpa [writeAttribute, attributeUnified] using hwhole

theorem normalizeNewlines_attributes {given : List Attribute}
    (hnames : ∀ g ∈ given, Text.isAttributeName g.name) (rest : List Char) :
    normalizeNewlines (given.flatMap writeAttribute ++ rest) =
      (given.map attributeUnified).flatMap writeAttribute ++ normalizeNewlines rest := by
  induction given with
  | nil => rfl
  | cons g given ih =>
    rw [List.forall_mem_cons] at hnames
    rw [List.flatMap_cons, List.append_assoc, normalizeNewlines_attribute hnames.1, ih hnames.2,
      List.map_cons, List.flatMap_cons, List.append_assoc]

theorem IsPlainName.not_mem {name : String} (hname : IsPlainName name) : '\r' ∉ name.toList := by
  obtain ⟨first, more, hchars, hfirst, hmore⟩ := hname
  rw [hchars]
  intro hmem
  rcases List.mem_cons.mp hmem with rfl | hmem
  · exact absurd hfirst (by decide)
  · exact absurd (hmore _ hmem) (by decide)

theorem normalizeNewlines_token {token : MarkupArena.Token} (htoken : Readable token)
    (hplain : token ≠ .char '\r') (rest : List Char) :
    normalizeNewlines (token.write ++ rest) =
      (tokenUnified token).write ++ normalizeNewlines rest := by
  cases token with
  | doctype => exact htoken.elim
  | start tag given =>
    have hname : '\r' ∉ '<' :: tag.toList := by simpa using htoken.1.not_mem
    have hclose : normalizeNewlines ('>' :: rest) = '>' :: normalizeNewlines rest :=
      normalizeNewlines_cons (by simp)
    have hwhole := normalizeNewlines_append hname (given.flatMap writeAttribute ++ '>' :: rest)
    rw [normalizeNewlines_attributes htoken.2, hclose] at hwhole
    simpa [MarkupArena.Token.write, tokenUnified] using hwhole
  | finish tag =>
    refine normalizeNewlines_append ?_ rest
    simpa [MarkupArena.Token.write] using IsPlainName.not_mem htoken
  | char c =>
    have hc : '\r' ∉ Text.writeTextChar c := fun hmem =>
      (Text.mem_writeTextChar hmem).2.elim (fun he => hplain (he ▸ rfl)) (by decide)
    exact normalizeNewlines_append hc rest

theorem normalizeNewlines_write {tokens : List MarkupArena.Token}
    (hreadable : ∀ token ∈ tokens, Readable token) (hplain : .char '\r' ∉ tokens) :
    normalizeNewlines (tokens.flatMap MarkupArena.Token.write) =
      (tokens.map tokenUnified).flatMap MarkupArena.Token.write := by
  induction tokens with
  | nil => rfl
  | cons token tokens ih =>
    rw [List.forall_mem_cons] at hreadable
    obtain ⟨htoken, htokens⟩ := not_or.mp (mt List.mem_cons.mpr hplain)
    rw [List.flatMap_cons, normalizeNewlines_token hreadable.1 (Ne.symm htoken),
      ih hreadable.2 htokens, List.map_cons, List.flatMap_cons]

end MarkupArena.Reading
