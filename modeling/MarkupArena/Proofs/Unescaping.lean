import MarkupArena.Proofs.Tokens
import MarkupArena.Reading.Reference

/-! What was escaped is read as it was. References stand for the characters they were written for,
and line ends are made alike within values only. -/
namespace MarkupArena

namespace Text

/-- Of the characters that are written for one, none opens a tag, and those that are not the
character itself make up a reference. -/
theorem mem_writeTextChar {c d : Char} (h : d ∈ writeTextChar c) :
    d ≠ '<' ∧ (d = c ∨ d ∈ ampersand ++ lessThan ++ greaterThan) := by
  unfold writeTextChar at h
  split at h
  next => exact ⟨fun he => absurd (he ▸ h) (by decide), .inr (by simp [h])⟩
  next =>
    split at h
    next => exact ⟨fun he => absurd (he ▸ h) (by decide), .inr (by simp [h])⟩
    next hbracket =>
      split at h
      next => exact ⟨fun he => absurd (he ▸ h) (by decide), .inr (by simp [h])⟩
      next =>
        obtain rfl := List.mem_singleton.mp h
        exact ⟨hbracket, .inl rfl⟩

/-- Of the characters that are written for one, none ends a value, and those that are not the
character itself make up a reference. -/
theorem mem_writeValueChar {c d : Char} (h : d ∈ writeValueChar c) :
    d ≠ '"' ∧ (d = c ∨ d ∈ ampersand ++ doubleQuote) := by
  unfold writeValueChar at h
  split at h
  next => exact ⟨fun he => absurd (he ▸ h) (by decide), .inr (by simp [h])⟩
  next =>
    split at h
    next => exact ⟨fun he => absurd (he ▸ h) (by decide), .inr (by simp [h])⟩
    next hquote =>
      obtain rfl := List.mem_singleton.mp h
      exact ⟨hquote, .inl rfl⟩

end Text

namespace Reading

/-- What is written for a character is read as that character, whatever follows. -/
def StandsFor (inAttribute : Bool) (written : List Char) (c : Char) : Prop :=
  ∀ done rest, decodeAfter? inAttribute done (written ++ rest) =
    decodeAfter? inAttribute (c :: done) rest

section
variable {inAttribute : Bool} {c : Char}

theorem standsFor_self (hc : c ≠ '&') : StandsFor inAttribute [c] c := by
  intro done rest
  rw [List.singleton_append, decodeAfter?]
  simp [hc]

theorem closed?_append {name : List Char} (hname : name.all Char.isAlphanum) {text : List Char}
    (htext : textOfReference? name = some text) (rest : List Char) :
    closed? (name ++ ';' :: rest) = some ⟨some text, name.length + 1⟩ := by
  have hrun : (name ++ ';' :: rest).takeWhile Char.isAlphanum = name := by
    rw [List.takeWhile_append_of_pos (List.all_eq_true.mp hname),
      List.takeWhile_cons_of_neg (by decide), List.append_nil]
  simp [closed?, hrun, htext]

/-- A reference by name is read as what the name stands for. -/
theorem standsFor_named {name : List Char} (hname : name.all Char.isAlphanum)
    (htext : textOfReference? name = some [c]) :
    StandsFor inAttribute ('&' :: (name ++ [';'])) c := by
  intro done rest
  have hclosed := closed?_append hname htext rest
  have hreference : reference? inAttribute (name ++ ';' :: rest) =
      some ⟨some [c], name.length + 1⟩ := by
    cases name with
    | nil => cases htext
    | cons first more =>
      have hfirst : first ≠ '#' := by
        rintro rfl
        exact absurd (List.all_eq_true.mp hname '#' List.mem_cons_self) (by decide)
      unfold reference?
      split
      next heq => exact absurd (List.cons.inj heq).1 hfirst
      next heq => exact absurd (List.cons.inj heq).1 hfirst
      next heq => exact absurd (List.cons.inj heq).1 hfirst
      next => rw [hclosed, Option.some_or]
  rw [List.cons_append, List.append_assoc, List.singleton_append, decodeAfter?, if_pos rfl,
    hreference]
  show decodeAfter? inAttribute (c :: done) ((name ++ ';' :: rest).drop (name.length + 1)) = _
  rw [List.drop_length_add_append]
  rfl

theorem decode?_flatMap {write : Char → List Char}
    (hwrite : ∀ c, StandsFor inAttribute (write c) c) (text : List Char) :
    decode? inAttribute (text.flatMap write) = some text := by
  have hafter : ∀ done, decodeAfter? inAttribute done (text.flatMap write) =
      some (done.reverse ++ text) := by
    induction text with
    | nil =>
      intro done
      rw [List.flatMap_nil, decodeAfter?, List.append_nil]
    | cons c rest ih =>
      intro done
      rw [List.flatMap_cons, hwrite, ih, List.reverse_cons, List.append_assoc]
      rfl
  exact hafter []

end

theorem textOfReference?_amp : textOfReference? ['a', 'm', 'p'] = some ['&'] := by
  decide +kernel

theorem textOfReference?_lt : textOfReference? ['l', 't'] = some ['<'] := by decide +kernel

theorem textOfReference?_gt : textOfReference? ['g', 't'] = some ['>'] := by decide +kernel

theorem textOfReference?_quot : textOfReference? ['q', 'u', 'o', 't'] = some ['"'] := by
  decide +kernel

theorem standsFor_writeTextChar (c : Char) : StandsFor false (Text.writeTextChar c) c := by
  unfold Text.writeTextChar
  split
  next hc => exact hc ▸ standsFor_named (by decide) textOfReference?_amp
  next hamp =>
    split
    next hc => exact hc ▸ standsFor_named (by decide) textOfReference?_lt
    next =>
      split
      next hc => exact hc ▸ standsFor_named (by decide) textOfReference?_gt
      next => exact standsFor_self hamp

theorem standsFor_writeValueChar (c : Char) : StandsFor true (Text.writeValueChar c) c := by
  unfold Text.writeValueChar
  split
  next hc => exact hc ▸ standsFor_named (by decide) textOfReference?_amp
  next hamp =>
    split
    next hc => exact hc ▸ standsFor_named (by decide) textOfReference?_quot
    next => exact standsFor_self hamp

/-- Line ends in a text whose next character is no line feed are made alike one by one. -/
theorem normalizeNewlines_cons {c : Char} {rest : List Char}
    (h : c = '\r' → rest.head? ≠ some '\n') :
    normalizeNewlines (c :: rest) = (if c = '\r' then '\n' else c) :: normalizeNewlines rest := by
  rw [normalizeNewlines.eq_def]
  split
  next heq => cases heq
  next heq =>
    obtain ⟨rfl, rfl⟩ := List.cons.inj heq
    exact absurd rfl (h rfl)
  next heq =>
    obtain ⟨rfl, rfl⟩ := List.cons.inj heq
    rfl

theorem normalizeNewlines_append {plain : List Char} (h : '\r' ∉ plain) (rest : List Char) :
    normalizeNewlines (plain ++ rest) = plain ++ normalizeNewlines rest := by
  induction plain with
  | nil => rfl
  | cons c plain ih =>
    obtain ⟨hc, hplain⟩ := not_or.mp (mt List.mem_cons.mpr h)
    rw [List.cons_append, normalizeNewlines_cons fun he => absurd he.symm hc, ih hplain,
      if_neg (Ne.symm hc), List.cons_append]

theorem head?_flatMap_writeValueChar {value : List Char} (h : value.head? ≠ some '\n')
    (rest : List Char) :
    (value.flatMap Text.writeValueChar ++ '"' :: rest).head? ≠ some '\n' := by
  cases value with
  | nil => simp
  | cons c more =>
    unfold Text.writeValueChar
    grind [Text.ampersand, Text.doubleQuote]

/-- Line ends within a written value are those of the value. -/
theorem normalizeNewlines_writeValue (value rest : List Char) :
    normalizeNewlines (value.flatMap Text.writeValueChar ++ '"' :: rest) =
      (normalizeNewlines value).flatMap Text.writeValueChar ++ '"' :: normalizeNewlines rest := by
  induction value using normalizeNewlines.induct with
  | case1 => exact normalizeNewlines_cons (by simp)
  | case2 more ih =>
    exact congrArg (List.cons '\n') ih
  | case3 c more hnot ih =>
    by_cases hc : c = '\r'
    · subst hc
      -- A return alone stays alone, since no character is written with a line feed in front.
      have hmore : more.head? ≠ some '\n' := fun he => by
        obtain ⟨others, rfl⟩ := List.head?_eq_some_iff.mp he
        exact hnot others rfl rfl
      rw [normalizeNewlines_cons fun _ => hmore, List.flatMap_cons, List.append_assoc]
      exact (normalizeNewlines_cons fun _ => head?_flatMap_writeValueChar hmore rest).trans
        (congrArg _ ih)
    · have hwritten : '\r' ∉ Text.writeValueChar c := fun hmem =>
        (Text.mem_writeValueChar hmem).2.elim (fun he => hc he.symm) (by decide)
      rw [normalizeNewlines_cons fun he => absurd he hc, if_neg hc, List.flatMap_cons,
        List.append_assoc, normalizeNewlines_append hwritten, ih, List.flatMap_cons,
        List.append_assoc]

/-- A reference may have too many digits for a value. -/
theorem reference?_overlong {text : List Char}
    (h : Radix.hexadecimal.most < (text.takeWhile isHexDigit).length) (inAttribute : Bool) :
    ∃ length, reference? inAttribute ('#' :: 'x' :: text) = some ⟨none, length⟩ := by
  show ∃ length, numeric? 2 .hexadecimal text = some ⟨none, length⟩
  unfold numeric?
  split
  next hnone =>
    rw [show text.takeWhile isHexDigit = [] from hnone] at h
    cases h
  next =>
    exact ⟨_, if_neg (Nat.not_le.mpr h)⟩

theorem decode?_overlong {digits : List Char} (hdigits : ∀ c ∈ digits, isHexDigit c)
    (hlong : Radix.hexadecimal.most < digits.length) (inAttribute : Bool) (rest : List Char) :
    decode? inAttribute ('&' :: '#' :: 'x' :: digits ++ rest) = none := by
  have hmore : Radix.hexadecimal.most < ((digits ++ rest).takeWhile isHexDigit).length := by
    rw [List.takeWhile_append_of_pos hdigits, List.length_append]
    omega
  obtain ⟨length, href⟩ := reference?_overlong hmore inAttribute
  show decodeAfter? inAttribute [] ('&' :: '#' :: 'x' :: (digits ++ rest)) = none
  rw [decodeAfter?, if_pos rfl, href]

end Reading

end MarkupArena
