/-!
Order and length of text. Text is compared by its UTF-16 units, so a character beyond the basic
plane sorts among the surrogates and before U+E000. Length is counted in units as well.
-/
namespace MarkupArena.Text

/-- The UTF-16 units of one character: its code, or a pair of surrogates. -/
def unitsOf (c : Char) : List Nat :=
  if c.toNat < 0x10000 then [c.toNat]
  else [0xD800 + (c.toNat - 0x10000) / 0x400, 0xDC00 + (c.toNat - 0x10000) % 0x400]

def units (s : String) : List Nat := s.toList.flatMap unitsOf

/-- The most units that a text can have when it is handed out, or laid out in lines. -/
def maxUnits : Nat := 536870888

/-- Lexicographic order on unit sequences. -/
def unitsLe : List Nat → List Nat → Bool
  | [], _ => true
  | _ :: _, [] => false
  | a :: as, b :: bs => a < b || (a == b && unitsLe as bs)

def le (s t : String) : Bool := unitsLe (units s) (units t)

/-- Puts a name before the first one that is not smaller. -/
def insertSorted (name : String) : List String → List String
  | [] => [name]
  | other :: rest =>
    if le name other then name :: other :: rest else other :: insertSorted name rest

def sorted (names : List String) : List String := names.foldr insertSorted []

/-- Adds a name at the end unless it is there already. -/
def addNew (names : List String) (name : String) : List String :=
  if names.contains name then names else names ++ [name]

/-- The names in order of first occurrence, each once. -/
def distinct (names : List String) : List String := names.foldl addNew []

theorem mem_insertSorted {name other : String} {names : List String} :
    other ∈ insertSorted name names ↔ other = name ∨ other ∈ names := by
  induction names with
  | nil => simp [insertSorted]
  | cons first rest ih =>
    by_cases h : le name first
    · simp [insertSorted, h]
    · simp only [insertSorted, h, Bool.false_eq_true, if_false, List.mem_cons, ih]
      grind

/-- Sorting neither loses nor invents a name. -/
theorem mem_sorted {name : String} {names : List String} : name ∈ sorted names ↔ name ∈ names := by
  induction names with
  | nil => simp [sorted]
  | cons first rest ih =>
    have step : sorted (first :: rest) = insertSorted first (sorted rest) := rfl
    rw [step, mem_insertSorted, ih, List.mem_cons]

theorem unitsLe_iff {s t : List Nat} : unitsLe s t = true ↔ s = t ∨ List.Lex (· < ·) s t := by
  induction s generalizing t with
  | nil => cases t <;> simp [unitsLe]
  | cons a as ih =>
    cases t with
    | nil => simp [unitsLe]
    | cons b bs =>
      simp only [unitsLe, Bool.or_eq_true, Bool.and_eq_true, decide_eq_true_eq, beq_iff_eq, ih,
        List.cons_lex_cons_iff, List.cons.injEq]
      grind

theorem unitsLe_total (s t : List Nat) : unitsLe s t = true ∨ unitsLe t s = true := by
  induction s generalizing t with
  | nil => exact .inl (by simp [unitsLe])
  | cons a as ih =>
    cases t with
    | nil => exact .inr (by simp [unitsLe])
    | cons b bs =>
      simp only [unitsLe, Bool.or_eq_true, Bool.and_eq_true, decide_eq_true_eq, beq_iff_eq]
      rcases Nat.lt_trichotomy a b with h | rfl | h
      · exact .inl (.inl h)
      · exact (ih bs).imp (fun h => .inr ⟨rfl, h⟩) fun h => .inr ⟨rfl, h⟩
      · exact .inr (.inl h)

theorem unitsLe_trans {s t u : List Nat} (hst : unitsLe s t = true) (htu : unitsLe t u = true) :
    unitsLe s u = true := by
  rw [unitsLe_iff] at hst htu ⊢
  rcases hst with rfl | hst
  · exact htu
  · rcases htu with rfl | htu
    · exact .inr hst
    · exact .inr (List.lex_trans Nat.lt_trans hst htu)

/-- No name comes before one with smaller units. -/
def InOrder (names : List String) : Prop :=
  names.Pairwise fun s t => units s = units t ∨ List.Lex (· < ·) (units s) (units t)

theorem inOrder_iff {names : List String} :
    InOrder names ↔ names.Pairwise fun s t => le s t = true := by
  simp only [InOrder, le, unitsLe_iff]

theorem inOrder_insertSorted {name : String} {names : List String} (h : InOrder names) :
    InOrder (insertSorted name names) := by
  rw [inOrder_iff] at h ⊢
  induction names with
  | nil => simp [insertSorted]
  | cons first rest ih =>
    obtain ⟨hfirst, hrest⟩ := List.pairwise_cons.mp h
    by_cases hle : le name first
    · simp only [insertSorted, hle, if_true]
      refine List.pairwise_cons.mpr ⟨fun other hother => ?_, h⟩
      rcases List.mem_cons.mp hother with rfl | hother
      · exact hle
      · exact unitsLe_trans hle (hfirst other hother)
    · simp only [insertSorted, hle, Bool.false_eq_true, if_false]
      refine List.pairwise_cons.mpr ⟨fun other hother => ?_, ih hrest⟩
      rcases mem_insertSorted.mp hother with rfl | hother
      · exact (unitsLe_total _ _).resolve_left hle
      · exact hfirst other hother

theorem inOrder_sorted (names : List String) : InOrder (sorted names) := by
  induction names with
  | nil => exact .nil
  | cons first rest ih => exact inOrder_insertSorted ih

theorem perm_insertSorted (name : String) (names : List String) :
    (insertSorted name names).Perm (name :: names) := by
  induction names with
  | nil => exact .refl _
  | cons first rest ih =>
    by_cases h : le name first
    · simp [insertSorted, h]
    · simp only [insertSorted, h, Bool.false_eq_true, if_false]
      exact (ih.cons first).trans (.swap name first rest)

theorem perm_sorted (names : List String) : (sorted names).Perm names := by
  induction names with
  | nil => exact .refl _
  | cons first rest ih => exact (perm_insertSorted first (sorted rest)).trans (ih.cons first)

theorem mem_addNew {name other : String} {names : List String} :
    other ∈ addNew names name ↔ other ∈ names ∨ other = name := by
  by_cases h : name ∈ names
  · simp only [addNew, List.contains_iff_mem, h, if_true]
    grind
  · simp [addNew, h]

theorem nodup_addNew {name : String} {names : List String} (h : names.Nodup) :
    (addNew names name).Nodup := by
  by_cases hn : name ∈ names
  · simpa [addNew, hn] using h
  · have apart : ∀ x ∈ names, ∀ y ∈ [name], x ≠ y := by
      intro x hx y hy
      rw [List.mem_singleton.mp hy]
      intro he
      exact hn (he ▸ hx)
    simp only [addNew, List.contains_iff_mem, hn, if_false]
    exact List.nodup_append.mpr ⟨h, by simp, apart⟩

theorem mem_foldl_addNew {name : String} (names seen : List String) :
    name ∈ names.foldl addNew seen ↔ name ∈ seen ∨ name ∈ names := by
  induction names generalizing seen with
  | nil => simp
  | cons first rest ih =>
    rw [List.foldl_cons, ih, mem_addNew]
    grind

theorem mem_distinct {name : String} {names : List String} :
    name ∈ distinct names ↔ name ∈ names := by
  simp [distinct, mem_foldl_addNew]

theorem nodup_foldl_addNew (names seen : List String) (h : seen.Nodup) :
    (names.foldl addNew seen).Nodup := by
  induction names generalizing seen with
  | nil => exact h
  | cons first rest ih => exact ih _ (nodup_addNew h)

theorem nodup_distinct (names : List String) : (distinct names).Nodup :=
  nodup_foldl_addNew names [] List.nodup_nil

end MarkupArena.Text
