import MarkupArena.Text.Escape
import Mathlib.Data.List.Basic

/-! Escaping as a list of substitutions that are made one after the other over the whole text. Where
no substitution touches what an earlier one wrote, each character is written by itself; where
every written form begins with an ampersand of its own, one pass from left to right undoes it. -/
namespace MarkupArena.Text

/-- A special character and what is written for it. -/
structure Substitution where
  special : Char
  written : List Char
  deriving DecidableEq, Repr

def textSubstitutions : List Substitution :=
  [⟨'&', ampersand⟩, ⟨'<', lessThan⟩, ⟨'>', greaterThan⟩]

def valueSubstitutions : List Substitution := [⟨'&', ampersand⟩, ⟨'"', doubleQuote⟩]

section
variable {subs : List Substitution}

/-- Makes every substitution in turn, each over the whole text. -/
def substitute (subs : List Substitution) (s : List Char) : List Char :=
  subs.foldl (fun s sub => replaceEach sub.special sub.written s) s

/-- What is written for one character. -/
def writeChar (subs : List Substitution) (c : Char) : List Char :=
  match subs.find? fun sub => sub.special = c with
  | some sub => sub.written
  | none => [c]

theorem writeChar_nil (c : Char) : writeChar [] c = [c] := rfl

theorem writeChar_cons (sub : Substitution) (rest : List Substitution) (c : Char) :
    writeChar (sub :: rest) c = if sub.special = c then sub.written else writeChar rest c := by
  by_cases h : sub.special = c <;> simp [writeChar, h]

theorem writeChar_of_not_special {c : Char} (h : ∀ sub ∈ subs, sub.special ≠ c) :
    writeChar subs c = [c] := by
  have hnone : subs.find? (fun sub => sub.special = c) = none := by simpa using h
  simp [writeChar, hnone]

/-- A character is written by one of its substitutions, or as it is if it has none. -/
theorem writeChar_cases (subs : List Substitution) (c : Char) :
    (∃ sub ∈ subs, sub.special = c ∧ writeChar subs c = sub.written) ∨
      (∀ sub ∈ subs, sub.special ≠ c) ∧ writeChar subs c = [c] := by
  cases hfind : subs.find? fun sub => sub.special = c with
  | some sub =>
    have hspecial : sub.special = c := by simpa using List.find?_some hfind
    exact .inl ⟨sub, List.mem_of_find?_eq_some hfind, hspecial, by simp [writeChar, hfind]⟩
  | none =>
    have hplain : ∀ sub ∈ subs, sub.special ≠ c := by simpa using hfind
    exact .inr ⟨hplain, writeChar_of_not_special hplain⟩

/-- Substitutions none of which would touch what those before it write. -/
def Settled (subs : List Substitution) : Prop :=
  subs.Pairwise fun earlier later => later.special ∉ earlier.written

instance (subs : List Substitution) : Decidable (Settled subs) :=
  inferInstanceAs (Decidable (subs.Pairwise _))

theorem flatMap_writeChar_of_plain {s : List Char} (h : ∀ sub ∈ subs, sub.special ∉ s) :
    s.flatMap (writeChar subs) = s := by
  induction s with
  | nil => rfl
  | cons c s ih =>
    have hc : writeChar subs c = [c] := by
      apply writeChar_of_not_special
      intro sub hsub he
      apply h sub hsub
      simp [he]
    have hs : s.flatMap (writeChar subs) = s := by
      apply ih
      intro sub hsub hmem
      exact h sub hsub (List.mem_cons_of_mem c hmem)
    simp [hc, hs]

/-- Passes over the whole text come to the same as writing each of its characters. -/
theorem substitute_eq_flatMap (h : Settled subs) (s : List Char) :
    substitute subs s = s.flatMap (writeChar subs) := by
  induction subs generalizing s with
  | nil => simp [substitute, flatMap_writeChar_of_plain]
  | cons sub rest ih =>
    obtain ⟨huntouched, hrest⟩ := List.pairwise_cons.mp h
    have hstep : substitute (sub :: rest) s =
        substitute rest (replaceEach sub.special sub.written s) := rfl
    rw [hstep, ih hrest, replaceEach, List.flatMap_assoc]
    congr 1
    funext c
    rw [writeChar_cons]
    by_cases hc : c = sub.special
    · -- What this pass wrote is left alone by those after it.
      simp [hc, flatMap_writeChar_of_plain huntouched]
    · simp [hc, Ne.symm hc]

/-- Replaces each written form by what it was written for, in one pass from left to right. -/
def unescape (subs : List Substitution) (s : List Char) : List Char :=
  match s with
  | [] => []
  | c :: rest =>
    match subs.find? fun sub => sub.written.isPrefixOf (c :: rest) with
    | some sub => sub.special :: unescape subs (rest.drop (sub.written.length - 1))
    | none => c :: unescape subs rest
termination_by s.length
decreasing_by
  · simp only [List.length_drop, List.length_cons]
    omega
  · simp

/-- Substitutions that can be undone in one pass: an ampersand is itself special and begins every
written form without occurring in it again, and none of these forms begins another. -/
structure Reversible (subs : List Substitution) : Prop where
  settled : Settled subs
  escaped : '&' ∈ subs.map Substitution.special
  begins : ∀ sub ∈ subs, sub.written.head? = some '&'
  once : ∀ sub ∈ subs, '&' ∉ sub.written.tail
  apart : ∀ sub ∈ subs, ∀ other ∈ subs, sub.written <+: other.written → sub = other
  hidden : ∀ sub ∈ subs, sub.special ≠ '&' → ∀ other ∈ subs, sub.special ∉ other.written

namespace Reversible

variable (hsubs : Reversible subs) {sub : Substitution}
include hsubs

theorem written_eq (hsub : sub ∈ subs) : ∃ name, sub.written = '&' :: name ∧ '&' ∉ name := by
  have hbegins := hsubs.begins sub hsub
  have honce := hsubs.once sub hsub
  cases hw : sub.written with
  | nil => simp [hw] at hbegins
  | cons c name =>
    obtain rfl : c = '&' := by simpa [hw] using hbegins
    exact ⟨name, rfl, by simpa [hw] using honce⟩

theorem exists_ampersand : ∃ sub ∈ subs, sub.special = '&' :=
  List.mem_map.mp hsubs.escaped

/-- What was written for a character is taken for nothing else, since no written form begins
another. -/
theorem find?_written (hsub : sub ∈ subs) (rest : List Char) :
    subs.find? (fun other => other.written.isPrefixOf (sub.written ++ rest)) = some sub := by
  cases hfind : subs.find? fun other => other.written.isPrefixOf (sub.written ++ rest) with
  | none =>
    have hnot := List.find?_eq_none.mp hfind sub hsub
    simp at hnot
  | some other =>
    have hmem := List.mem_of_find?_eq_some hfind
    have hbegin : other.written <+: sub.written ++ rest := by
      simpa using List.find?_some hfind
    rcases List.prefix_or_prefix_of_prefix hbegin (List.prefix_append ..) with h | h
    · rw [hsubs.apart other hmem sub hsub h]
    · rw [hsubs.apart sub hsub other hmem h]

theorem unescape_written (hsub : sub ∈ subs) (rest : List Char) :
    unescape subs (sub.written ++ rest) = sub.special :: unescape subs rest := by
  have hfind := hsubs.find?_written hsub rest
  obtain ⟨name, hw, -⟩ := hsubs.written_eq hsub
  rw [hw, List.cons_append] at hfind ⊢
  rw [unescape, hfind]
  simp [hw]

theorem unescape_plain {c : Char} (hc : c ≠ '&') (rest : List Char) :
    unescape subs (c :: rest) = c :: unescape subs rest := by
  have hfind : subs.find? (fun sub => sub.written.isPrefixOf (c :: rest)) = none := by
    apply List.find?_eq_none.mpr
    intro sub hsub
    obtain ⟨name, hw, -⟩ := hsubs.written_eq hsub
    simp [hw, Ne.symm hc]
  rw [unescape, hfind]

/-- Only an ampersand that was escaped is written with one. -/
theorem ne_ampersand {c : Char} (h : ∀ sub ∈ subs, sub.special ≠ c) : c ≠ '&' := by
  obtain ⟨sub, hsub, hspecial⟩ := hsubs.exists_ampersand
  intro hc
  exact h sub hsub (hspecial.trans hc.symm)

theorem unescape_writeChar (c : Char) (rest : List Char) :
    unescape subs (writeChar subs c ++ rest) = c :: unescape subs rest := by
  rcases writeChar_cases subs c with ⟨sub, hsub, rfl, hw⟩ | ⟨hplain, hw⟩
  · rw [hw, hsubs.unescape_written hsub]
  · rw [hw, List.singleton_append, hsubs.unescape_plain (hsubs.ne_ampersand hplain)]

theorem unescape_flatMap (s : List Char) : unescape subs (s.flatMap (writeChar subs)) = s := by
  induction s with
  | nil => simp [unescape]
  | cons c s ih => rw [List.flatMap_cons, hsubs.unescape_writeChar, ih]

/-- No special character is left, except for the ampersands of what was written. -/
theorem special_not_mem (hsub : sub ∈ subs) (hamp : sub.special ≠ '&') (s : List Char) :
    sub.special ∉ s.flatMap (writeChar subs) := by
  intro hmem
  obtain ⟨c, -, hc⟩ := List.mem_flatMap.mp hmem
  rcases writeChar_cases subs c with ⟨other, hother, -, hw⟩ | ⟨hplain, hw⟩
  · rw [hw] at hc
    exact hsubs.hidden sub hsub hamp other hother hc
  · rw [hw, List.mem_singleton] at hc
    exact hplain sub hsub hc

/-- Every ampersand begins what was written for some special character. -/
theorem begins_of_eq_append {s before after : List Char}
    (h : s.flatMap (writeChar subs) = before ++ '&' :: after) :
    ∃ sub ∈ subs, sub.written <+: '&' :: after := by
  induction s generalizing before with
  | nil => simp at h
  | cons c s ih =>
    rw [List.flatMap_cons] at h
    rcases List.append_eq_append_iff.mp h with ⟨more, -, hrest⟩ | ⟨more, hw, hafter⟩
    · exact ih hrest
    · cases more with
      | nil =>
        have hrest : s.flatMap (writeChar subs) = [] ++ '&' :: after := by simpa using hafter.symm
        exact ih hrest
      | cons d more =>
        obtain ⟨rfl, rfl⟩ : '&' = d ∧ after = more ++ s.flatMap (writeChar subs) := by
          simpa using hafter
        -- The ampersand lies in what was written for `c`, so it is where that begins.
        rcases writeChar_cases subs c with ⟨sub, hsub, -, hc⟩ | ⟨hplain, hc⟩
        · obtain ⟨name, hname, honce⟩ := hsubs.written_eq hsub
          rw [hc, hname] at hw
          cases before with
          | nil => exact ⟨sub, hsub, by simp [hname, (List.cons.inj hw).2]⟩
          | cons e before =>
            obtain ⟨-, rfl⟩ := List.cons.inj hw
            simp at honce
        · have hmem : '&' ∈ writeChar subs c := by simp [hw]
          rw [hc, List.mem_singleton] at hmem
          exact absurd hmem.symm (hsubs.ne_ampersand hplain)

end Reversible

end

/-- What a text is escaped to: its characters one by one, with no special character left but the
ampersands of what was written, and such that one pass gives the text back. -/
structure EscapesBy (subs : List Substitution) (escape : String → String) : Prop where
  passes : ∀ s, (escape s).toList = substitute subs s.toList
  eachChar : ∀ s, (escape s).toList = s.toList.flatMap (writeChar subs)
  absent : ∀ s, ∀ sub ∈ subs, sub.special ≠ '&' → sub.special ∉ (escape s).toList
  begins : ∀ s before after, (escape s).toList = before ++ '&' :: after →
    ∃ sub ∈ subs, sub.written <+: '&' :: after
  undone : ∀ s, unescape subs (escape s).toList = s.toList
  injective : Function.Injective escape
  append : ∀ s t, escape (s ++ t) = escape s ++ escape t

/-- Escaping by passes that can be undone has all these properties. -/
theorem Reversible.escapesBy {subs : List Substitution} (hsubs : Reversible subs)
    {escape : String → String} (hpasses : ∀ s, (escape s).toList = substitute subs s.toList) :
    EscapesBy subs escape := by
  have heach : ∀ s, (escape s).toList = s.toList.flatMap (writeChar subs) := fun s =>
    (hpasses s).trans (substitute_eq_flatMap hsubs.settled s.toList)
  have hundone : ∀ s, unescape subs (escape s).toList = s.toList := fun s => by
    rw [heach, hsubs.unescape_flatMap]
  constructor
  case passes => exact hpasses
  case eachChar => exact heach
  case absent =>
    intro s sub hsub hamp
    rw [heach]
    exact hsubs.special_not_mem hsub hamp s.toList
  case begins =>
    intro s before after h
    rw [heach] at h
    exact hsubs.begins_of_eq_append h
  case undone => exact hundone
  case injective =>
    intro s t h
    apply String.toList_injective
    rw [← hundone s, h, hundone t]
  case append =>
    intro s t
    apply String.toList_injective
    simp [heach]

theorem reversible_textSubstitutions : Reversible textSubstitutions := by
  constructor <;> decide

theorem reversible_valueSubstitutions : Reversible valueSubstitutions := by
  constructor <;> decide

/-- Text and attribute values are escaped character by character, so that neither the end of a text
nor that of a value can be found in what is written, and each is read back in one pass. -/
theorem escaping_reversible :
    EscapesBy textSubstitutions escapeText ∧ EscapesBy valueSubstitutions escapeAttribute := by
  constructor
  · apply reversible_textSubstitutions.escapesBy
    intro s
    simp [escapeText, escapeTextChars, substitute, textSubstitutions]
  · apply reversible_valueSubstitutions.escapesBy
    intro s
    simp [escapeAttribute, escapeAttributeChars, substitute, valueSubstitutions]

/-- Text that looks like a reference is escaped like any other. -/
example : escapeText "&lt;" = "&amp;lt;" := by
  decide

end MarkupArena.Text
