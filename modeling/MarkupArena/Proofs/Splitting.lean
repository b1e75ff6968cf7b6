import MarkupArena.Build.Lines
import Mathlib.Data.List.Infix

/-! Splitting a text at a separator. A separator may be longer than a character and overlap with
itself; it is found from left to right, and what was found is not looked at again. -/
namespace MarkupArena.Build

/-- How often a separator is found in a text, from left to right and without overlap. -/
def separatorCount (separator : List Char) : List Char → Nat
  | [] => 0
  | c :: rest =>
    if separator.isPrefixOf (c :: rest) then
      separatorCount separator (rest.drop (separator.length - 1)) + 1
    else separatorCount separator rest
termination_by text => text.length
decreasing_by all_goals simp only [List.length_drop, List.length_cons]; omega

/-- The lines of a text: each ends where the separator occurs first in what is left of the text, and
in the last one it does not occur. -/
inductive Splits (separator : List Char) : List Char → List (List Char) → Prop where
  | last {line : List Char} : ¬ separator <:+: line → Splits separator line [line]
  | next {line rest : List Char} {lines : List (List Char)} :
      (∀ before after, line ++ separator ++ rest = before ++ separator ++ after →
        line.length ≤ before.length) →
      Splits separator rest lines → Splits separator (line ++ separator ++ rest) (line :: lines)

variable {separator text : List Char} {lines : List (List Char)}

theorem Splits.ne_nil (h : Splits separator text lines) : lines ≠ [] := by
  cases h <;> exact List.cons_ne_nil _ _

/-- A character before which no separator begins is one more of the first line. -/
theorem Splits.cons {c : Char} (h : Splits separator text lines)
    (hnot : ¬ separator <+: c :: text) : Splits separator (c :: text) (onFirst c lines) := by
  cases h with
  | last hnone =>
    refine .last fun hinfix => ?_
    rcases List.infix_cons_iff.mp hinfix with hprefix | hrest
    · exact hnot hprefix
    · exact hnone hrest
  | @next line rest lines hfirst hrest =>
    have hstep : ∀ before after,
        (c :: line) ++ separator ++ rest = before ++ separator ++ after →
          (c :: line).length ≤ before.length := by
      intro before after heq
      cases before with
      | nil => exact absurd ⟨after, heq.symm⟩ hnot
      | cons d before =>
        exact Nat.succ_le_succ (hfirst before after (List.cons.inj heq).2)
    exact .next hstep hrest

theorem Splits.unique {others : List (List Char)} (h : Splits separator text lines)
    (h' : Splits separator text others) : lines = others := by
  induction h generalizing others with
  | @last line hnone =>
    generalize htext : line = text at *
    cases h' with
    | last => rfl
    | @next first rest => exact absurd ⟨first, rest, rfl⟩ hnone
  | @next line rest lines hfirst _ ih =>
    generalize htext : line ++ separator ++ rest = text at *
    cases h' with
    | last hnone => exact absurd ⟨line, rest, htext⟩ hnone
    | @next line' rest' others hfirst' hrest' =>
      -- Each of the two first lines is no longer than the other.
      have hlength : line.length = line'.length :=
        Nat.le_antisymm (hfirst _ _ rfl) (hfirst' _ _ htext.symm)
      rw [List.append_assoc, List.append_assoc] at htext
      obtain ⟨rfl, hafter⟩ := List.append_inj htext hlength
      have hrest : rest = rest' := List.append_cancel_left hafter
      rw [ih (hrest ▸ hrest')]

/-- The lines joined by the separator are the text. -/
theorem Splits.intercalate_eq (h : Splits separator text lines) :
    separator.intercalate lines = text := by
  induction h with
  | last => simp
  | @next line rest lines _ hrest ih =>
    obtain ⟨first, others, rfl⟩ := List.exists_cons_of_ne_nil hrest.ne_nil
    rw [List.intercalate_cons_cons, ih]

/-- Every line is a part of the text. -/
theorem Splits.infix_of_mem (h : Splits separator text lines) {line : List Char}
    (hline : line ∈ lines) : line <:+: text := by
  induction h with
  | last => exact List.mem_singleton.mp hline ▸ List.infix_rfl
  | @next first rest lines _ _ ih =>
    rcases List.mem_cons.mp hline with rfl | hline
    · rw [List.append_assoc]
      exact (List.prefix_append line _).isInfix
    · exact (ih hline).trans (List.suffix_append _ rest).isInfix

/-- What is skipped is not looked at. -/
theorem splitLines_skip (separator : List Char) (skip : Nat) (text : List Char) :
    splitLines separator skip text = splitLines separator 0 (text.drop skip) := by
  induction text generalizing skip with
  | nil => simp [splitLines]
  | cons c rest ih =>
    cases skip with
    | zero => rfl
    | succ skip => rw [splitLines, ih skip, List.drop_succ_cons]

theorem splitLines_separator_append (hne : separator ≠ []) (rest : List Char) :
    splitLines separator 0 (separator ++ rest) = [] :: splitLines separator 0 rest := by
  obtain ⟨c, others, rfl⟩ := List.exists_cons_of_ne_nil hne
  have hprefix : (c :: others).isPrefixOf (c :: (others ++ rest)) = true :=
    List.isPrefixOf_iff_prefix.mpr (List.prefix_append (c :: others) rest)
  rw [List.cons_append, splitLines, if_pos hprefix, splitLines_skip]
  simp

theorem splitLines_of_unmatched {c : Char} (hnot : ¬ separator <+: c :: text) :
    splitLines separator 0 (c :: text) = onFirst c (splitLines separator 0 text) := by
  rw [splitLines, if_neg (List.isPrefixOf_iff_prefix.not.mpr hnot)]

theorem splits_splitLines (hne : separator ≠ []) (text : List Char) :
    Splits separator text (splitLines separator 0 text) := by
  induction hlength : text.length using Nat.strong_induction_on generalizing text with
  | _ length ih =>
    subst hlength
    by_cases hprefix : separator <+: text
    · obtain ⟨rest, rfl⟩ := hprefix
      rw [splitLines_separator_append hne]
      have hshorter : rest.length < (separator ++ rest).length := by
        have := List.length_pos_of_ne_nil hne
        rw [List.length_append]
        omega
      have hfirst : ∀ before after, [] ++ separator ++ rest = before ++ separator ++ after →
          ([] : List Char).length ≤ before.length := fun _ _ _ => Nat.zero_le _
      exact .next hfirst (ih _ hshorter rest rfl)
    · cases text with
      | nil => exact .last fun h => hne (List.infix_nil.mp h)
      | cons c rest =>
        rw [splitLines_of_unmatched hprefix]
        exact (ih _ (Nat.lt_succ_self _) rest rfl).cons hprefix

theorem length_onFirst {c : Char} (h : lines ≠ []) : (onFirst c lines).length = lines.length := by
  cases lines with
  | nil => exact absurd rfl h
  | cons => rfl

/-- There is one line more than there are separators. -/
theorem length_splitLines (hne : separator ≠ []) (text : List Char) :
    (splitLines separator 0 text).length = separatorCount separator text + 1 := by
  fun_induction separatorCount separator text with
  | case1 => rfl
  | case2 c rest hprefix ih =>
    rw [splitLines, if_pos hprefix, splitLines_skip, List.length_cons, ih]
  | case3 c rest hnot ih =>
    rw [splitLines, if_neg hnot, length_onFirst (splits_splitLines hne rest).ne_nil, ih]

end MarkupArena.Build
