import MarkupArena.Proofs.Escaping
import MarkupArena.Render.Markup
import MarkupArena.Text.AttributeName

/-! The pieces that markup is written in: tags and single characters of text. Each is told from the
others by how it begins and ends, whatever values and texts hold, so markup can be taken apart in
one way only. -/
namespace MarkupArena

section
variable {α β : Type} {P : α → Prop} {write : α → List β}

/-- Things that are written so that each can be told from whatever follows it. -/
def Separable (P : α → Prop) (write : α → List β) : Prop :=
  ∀ x y, P x → P y → ∀ rest rest', write x ++ rest = write y ++ rest' → x = y ∧ rest = rest'

/-- A run of things ends where what follows does not begin like any of them. -/
theorem Separable.run (hsep : Separable P write) {xs ys : List α} (hxs : ∀ x ∈ xs, P x)
    (hys : ∀ y ∈ ys, P y) {rest rest' : List β} (hrest : ∀ x t, P x → write x ++ t ≠ rest)
    (hrest' : ∀ x t, P x → write x ++ t ≠ rest')
    (h : xs.flatMap write ++ rest = ys.flatMap write ++ rest') : xs = ys ∧ rest = rest' := by
  induction xs generalizing ys with
  | nil =>
    cases ys with
    | nil => exact ⟨rfl, h⟩
    | cons y ys =>
      rw [List.flatMap_cons, List.append_assoc] at h
      exact absurd h.symm (hrest y _ (hys y List.mem_cons_self))
  | cons x xs ih =>
    rw [List.forall_mem_cons] at hxs
    rw [List.flatMap_cons, List.append_assoc] at h
    cases ys with
    | nil => exact absurd h (hrest' x _ hxs.1)
    | cons y ys =>
      rw [List.forall_mem_cons] at hys
      rw [List.flatMap_cons, List.append_assoc] at h
      obtain ⟨rfl, htail⟩ := hsep x y hxs.1 hys.1 _ _ h
      obtain ⟨rfl, hend⟩ := ih hxs.2 hys.2 htail
      exact ⟨rfl, hend⟩

/-- What can be read back is separable. -/
theorem Separable.of_read {read : List β → Option (α × List β)}
    (h : ∀ x rest, read (write x ++ rest) = some (x, rest)) : Separable P write := by
  intro x y _ _ rest rest' hsame
  have hread := (h x rest).symm.trans ((congrArg read hsame).trans (h y rest'))
  exact Prod.mk.inj (Option.some.inj hread)

/-- A run of characters of some kind ends at the first of another kind. -/
theorem run_of_kind {kind : α → Bool} {xs ys : List α} (hxs : ∀ x ∈ xs, kind x)
    (hys : ∀ y ∈ ys, kind y) {x y : α} (hx : kind x = false) (hy : kind y = false)
    {rest rest' : List α} (h : xs ++ x :: rest = ys ++ y :: rest') :
    xs = ys ∧ x = y ∧ rest = rest' := by
  have hsep : Separable (fun z => kind z) fun z => [z] := fun x y _ _ rest rest' h => by
    simpa using h
  have hend : ∀ z rest, kind z = false → ∀ x t, kind x → [x] ++ t ≠ z :: rest := by
    rintro z rest hz x t hx he
    obtain rfl : x = z := (List.cons.inj he).1
    rw [hx] at hz
    cases hz
  obtain ⟨hsame, hrest⟩ := hsep.run hxs hys (hend x rest hx) (hend y rest' hy)
    (by simpa using h)
  exact ⟨hsame, List.cons.inj hrest⟩

end

namespace Text

/-- How one character of text is written. -/
def writeTextChar (c : Char) : List Char :=
  if c = '&' then ampersand
  else if c = '<' then lessThan
  else if c = '>' then greaterThan
  else [c]

/-- How one character of an attribute value is written. -/
def writeValueChar (c : Char) : List Char :=
  if c = '&' then ampersand else if c = '"' then doubleQuote else [c]

theorem escapeTextChars_eq_flatMap (s : List Char) :
    escapeTextChars s = s.flatMap writeTextChar := by
  have hwrite : writeTextChar = writeChar textSubstitutions := by
    funext c
    simp [writeTextChar, textSubstitutions, writeChar_cons, writeChar_nil, eq_comm]
  rw [hwrite, ← substitute_eq_flatMap reversible_textSubstitutions.settled]
  rfl

theorem escapeAttributeChars_eq_flatMap (s : List Char) :
    escapeAttributeChars s = s.flatMap writeValueChar := by
  have hwrite : writeValueChar = writeChar valueSubstitutions := by
    funext c
    simp [writeValueChar, valueSubstitutions, writeChar_cons, writeChar_nil, eq_comm]
  rw [hwrite, ← substitute_eq_flatMap reversible_valueSubstitutions.settled]
  rfl

/-- Reads one character of text, undoing how it was written. -/
def readTextChar : List Char → Option (Char × List Char)
  | '&' :: 'a' :: 'm' :: 'p' :: ';' :: rest => some ('&', rest)
  | '&' :: 'l' :: 't' :: ';' :: rest => some ('<', rest)
  | '&' :: 'g' :: 't' :: ';' :: rest => some ('>', rest)
  | c :: rest => some (c, rest)
  | [] => none

def readValueChar : List Char → Option (Char × List Char)
  | '&' :: 'a' :: 'm' :: 'p' :: ';' :: rest => some ('&', rest)
  | '&' :: 'q' :: 'u' :: 'o' :: 't' :: ';' :: rest => some ('"', rest)
  | c :: rest => some (c, rest)
  | [] => none

theorem readTextChar_write (c : Char) (rest : List Char) :
    readTextChar (writeTextChar c ++ rest) = some (c, rest) := by
  unfold writeTextChar
  split
  next hc => rw [hc]; rfl
  next hamp =>
    split
    next hc => rw [hc]; rfl
    next =>
      split
      next hc => rw [hc]; rfl
      next => simp [readTextChar, hamp]

theorem readValueChar_write (c : Char) (rest : List Char) :
    readValueChar (writeValueChar c ++ rest) = some (c, rest) := by
  unfold writeValueChar
  split
  next hc => rw [hc]; rfl
  next hamp =>
    split
    next hc => rw [hc]; rfl
    next => simp [readValueChar, hamp]

theorem writeTextChar_append_ne (c : Char) (t rest : List Char) :
    writeTextChar c ++ t ≠ '<' :: rest := by
  unfold writeTextChar
  grind [ampersand, lessThan, greaterThan]

theorem writeValueChar_append_ne (c : Char) (t rest : List Char) :
    writeValueChar c ++ t ≠ '"' :: rest := by
  unfold writeValueChar
  grind [ampersand, doubleQuote]

/-- A name of ASCII letters and digits, at least one. -/
def IsTagName (name : String) : Prop := name ≠ "" ∧ ∀ c ∈ name.toList, c.isAlphanum

end Text

def writeAttribute (given : Attribute) : List Char :=
  ' ' :: (given.name.toList ++
    '=' :: '"' :: (given.value.toList.flatMap Text.writeValueChar ++ ['"']))

theorem toList_attributeText (given : Attribute) :
    (World.attributeText given).toList = writeAttribute given := by
  simp [World.attributeText, writeAttribute, Text.escapeAttribute,
    Text.escapeAttributeChars_eq_flatMap]

/-- The name of an attribute ends at the first equals sign, and its value at the next quote. -/
theorem separable_attribute :
    Separable (fun given : Attribute => Text.isAttributeName given.name) writeAttribute := by
  rintro ⟨name, value⟩ ⟨name', value'⟩ hname hname' rest rest' h
  simp only [Text.isAttributeName, Bool.and_eq_true, List.all_eq_true] at hname hname'
  simp only [writeAttribute, List.cons_append, List.append_assoc, List.nil_append] at h
  obtain ⟨hsame, -, hafter⟩ :=
    run_of_kind hname.2 hname'.2 (by decide) (by decide) (List.cons.inj h).2
  have hsep : Separable (fun _ => True) Text.writeValueChar := .of_read Text.readValueChar_write
  obtain ⟨hvalue, hrest⟩ := hsep.run (fun _ _ => True.intro) (fun _ _ => True.intro)
    (fun c t _ => Text.writeValueChar_append_ne c t rest)
    (fun c t _ => Text.writeValueChar_append_ne c t rest') (List.cons.inj hafter).2
  obtain rfl := String.toList_injective hsame
  obtain rfl := String.toList_injective hvalue
  exact ⟨rfl, (List.cons.inj hrest).2⟩

inductive Token where
  | doctype
  | start (tag : String) (attributes : List Attribute)
  | finish (tag : String)
  | char (c : Char)

namespace Token

def write : Token → List Char
  | doctype => World.doctype.toList
  | start tag attributes => '<' :: (tag.toList ++ (attributes.flatMap writeAttribute ++ ['>']))
  | finish tag => '<' :: '/' :: (tag.toList ++ ['>'])
  | char c => Text.writeTextChar c

/-- The names in a tag cannot be taken for other parts of it. -/
def Legible : Token → Prop
  | start tag attributes => Text.IsTagName tag ∧ ∀ g ∈ attributes, Text.isAttributeName g.name
  | finish tag => Text.IsTagName tag
  | _ => True

theorem write_ne_nil (token : Token) : token.write ≠ [] := by
  cases token with
  | doctype => exact List.ne_nil_of_length_pos (by decide)
  | start => exact List.cons_ne_nil _ _
  | finish => exact List.cons_ne_nil _ _
  | char c =>
    intro he
    have hread := Text.readTextChar_write c []
    rw [show Text.writeTextChar c = [] from he] at hread
    cases hread

/-- A tag begins with its name, so neither a slash nor anything else that is no letter or digit
follows its bracket. -/
theorem start_append_ne {tag : String} {attributes : List Attribute} (htag : Text.IsTagName tag)
    {c : Char} (hc : c.isAlphanum = false) (rest rest' : List Char) :
    (start tag attributes).write ++ rest ≠ '<' :: c :: rest' := by
  intro h
  have hname := (List.cons.inj h).2
  cases htag' : tag.toList with
  | nil => exact htag.1 (String.toList_injective htag')
  | cons first others =>
    rw [htag'] at hname
    obtain rfl : first = c := (List.cons.inj hname).1
    have hfirst := htag.2 first (htag' ▸ List.mem_cons_self)
    rw [hc] at hfirst
    cases hfirst

theorem start_inj {tag tag' : String} {attributes attributes' : List Attribute}
    (h : (start tag attributes).Legible) (h' : (start tag' attributes').Legible)
    {rest rest' : List Char}
    (hsame : (start tag attributes).write ++ rest = (start tag' attributes').write ++ rest') :
    tag = tag' ∧ attributes = attributes' ∧ rest = rest' := by
  -- After the name comes a blank, if there is an attribute, or else the closing bracket.
  have hafter : ∀ (given : List Attribute) (rest : List Char), ∃ c t, c.isAlphanum = false ∧
      given.flatMap writeAttribute ++ '>' :: rest = c :: t := by
    intro given rest
    cases given with
    | nil => exact ⟨'>', rest, by decide, rfl⟩
    | cons first others => exact ⟨' ', _, by decide, rfl⟩
  have hends : ∀ (given : Attribute) t (rest : List Char),
      writeAttribute given ++ t ≠ '>' :: rest :=
    fun given t rest he => absurd (List.cons.inj he).1 (by decide)
  simp only [write, List.cons_append, List.append_assoc, List.nil_append, List.cons.injEq,
    true_and] at hsame
  obtain ⟨c, t, hc, ht⟩ := hafter attributes rest
  obtain ⟨c', t', hc', ht'⟩ := hafter attributes' rest'
  rw [ht, ht'] at hsame
  obtain ⟨htag, rfl, rfl⟩ := run_of_kind h.1.2 h'.1.2 hc hc' hsame
  obtain ⟨rfl, hrest⟩ := separable_attribute.run h.2 h'.2 (fun g t _ => hends g t rest)
    (fun g t _ => hends g t rest') (ht.trans ht'.symm)
  exact ⟨String.toList_injective htag, rfl, (List.cons.inj hrest).2⟩

theorem finish_inj {tag tag' : String} (h : (finish tag).Legible) (h' : (finish tag').Legible)
    {rest rest' : List Char} (hsame : (finish tag).write ++ rest = (finish tag').write ++ rest') :
    tag = tag' ∧ rest = rest' := by
  simp only [write, List.cons_append, List.append_assoc, List.nil_append, List.cons.injEq,
    true_and] at hsame
  obtain ⟨htag, -, hrest⟩ := run_of_kind h.2 h'.2 (by decide) (by decide) hsame
  exact ⟨String.toList_injective htag, hrest⟩

theorem char_append_ne (c : Char) (t rest : List Char) : (char c).write ++ t ≠ '<' :: rest :=
  Text.writeTextChar_append_ne c t rest

/-- Legible pieces of markup can be told from each other, and from what follows them. -/
theorem separable_write : Separable Legible write := by
  intro t t' h h' rest rest' hsame
  cases t with
  | doctype =>
    cases t' with
    | doctype => exact ⟨rfl, List.append_cancel_left hsame⟩
    | start => exact absurd hsame.symm (start_append_ne h'.1 (by decide) _ _)
    | finish => exact absurd (List.cons.inj (List.cons.inj hsame).2).1 (by decide)
    | char => exact absurd hsame.symm (char_append_ne _ _ _)
  | start tag attributes =>
    cases t' with
    | doctype => exact absurd hsame (start_append_ne h.1 (by decide) _ _)
    | start =>
      obtain ⟨rfl, rfl, hrest⟩ := start_inj h h' hsame
      exact ⟨rfl, hrest⟩
    | finish => exact absurd hsame (start_append_ne h.1 (by decide) _ _)
    | char => exact absurd hsame.symm (char_append_ne _ _ _)
  | finish tag =>
    cases t' with
    | doctype => exact absurd (List.cons.inj (List.cons.inj hsame).2).1 (by decide)
    | start => exact absurd hsame.symm (start_append_ne h'.1 (by decide) _ _)
    | finish =>
      obtain ⟨rfl, hrest⟩ := finish_inj h h' hsame
      exact ⟨rfl, hrest⟩
    | char => exact absurd hsame.symm (char_append_ne _ _ _)
  | char c =>
    cases t' with
    | char d =>
      have hsep : Separable (fun _ => True) Text.writeTextChar := .of_read Text.readTextChar_write
      obtain ⟨rfl, hrest⟩ := hsep c d True.intro True.intro rest rest' hsame
      exact ⟨rfl, hrest⟩
    | doctype => exact absurd hsame (char_append_ne _ _ _)
    | start => exact absurd hsame (char_append_ne _ _ _)
    | finish => exact absurd hsame (char_append_ne _ _ _)

end Token

end MarkupArena
