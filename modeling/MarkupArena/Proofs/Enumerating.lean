import MarkupArena.Record
import MarkupArena.Text.Units
import Mathlib.Data.List.Induction
import Mathlib.Data.List.Sort

/-! The order in which a record is enumerated, said by its assignments: each name once with the
value it was given last, names that are array indices first and by their size, the others as they
were first assigned. -/
namespace MarkupArena.Record

/-- A name is the decimal numeral of an array index. -/
def Spells (name : String) (n : Nat) : Prop := name = toString n ∧ n ≤ greatestIndex

theorem Spells.unique {s t : String} {n : Nat} (hs : Spells s n) (ht : Spells t n) : s = t :=
  hs.1.trans ht.1.symm

theorem decimalValue_eq (digits : List Char) : decimalValue digits = Nat.ofDigitChars 10 digits 0 :=
  Nat.ofDigitChars_eq_foldl.symm

theorem toDigits_of_isDigit {c : Char} (hc : c.isDigit) :
    '0'.toNat ≤ c.toNat ∧ c.toNat - '0'.toNat < 10 ∧
      Nat.toDigits 10 (c.toNat - '0'.toNat) = [c] := by
  simp only [Char.isDigit, Bool.and_eq_true, decide_eq_true_eq, UInt32.le_iff_toNat_le] at hc
  have hlow : 48 ≤ c.toNat := hc.1
  have hhigh : c.toNat ≤ 57 := hc.2
  have hzero : '0'.toNat = 48 := rfl
  have hdigit : Nat.digitChar (c.toNat - 48) = c := by
    apply Char.toNat_inj.mp
    rw [Nat.toNat_digitChar_of_lt_ten (by omega)]
    omega
  rw [hzero, Nat.toDigits_of_lt_base (by omega), hdigit]
  exact ⟨hlow, by omega, rfl⟩

/-- Digits that follow the numeral of a positive number are the rest of a numeral. -/
theorem toDigits_ofDigitChars {digits : List Char} (hdigits : ∀ c ∈ digits, c.isDigit) {n : Nat}
    (hn : 0 < n) :
    Nat.toDigits 10 (Nat.ofDigitChars 10 digits n) = Nat.toDigits 10 n ++ digits := by
  induction digits generalizing n with
  | nil => simp
  | cons c digits ih =>
    obtain ⟨hc, hdigits⟩ := List.forall_mem_cons.mp hdigits
    obtain ⟨-, hlt, hdigit⟩ := toDigits_of_isDigit hc
    calc Nat.toDigits 10 (Nat.ofDigitChars 10 (c :: digits) n)
        = Nat.toDigits 10 (Nat.ofDigitChars 10 digits (10 * n + (c.toNat - '0'.toNat))) := by
          rw [Nat.ofDigitChars_cons]
      _ = Nat.toDigits 10 (10 * n + (c.toNat - '0'.toNat)) ++ digits := ih hdigits (by omega)
      _ = (Nat.toDigits 10 n ++ [c]) ++ digits := by
          rw [← Nat.toDigits_append_toDigits (by decide) hn hlt, hdigit]
      _ = Nat.toDigits 10 n ++ c :: digits := by simp

/-- Digits without a leading zero are the numeral of their value. -/
theorem toDigits_decimalValue {first : Char} {rest : List Char} (hfirst : first ≠ '0')
    (hdigits : ∀ c ∈ first :: rest, c.isDigit) :
    Nat.toDigits 10 (decimalValue (first :: rest)) = first :: rest := by
  obtain ⟨hdigit, hrest⟩ := List.forall_mem_cons.mp hdigits
  obtain ⟨hlow, -, hone⟩ := toDigits_of_isDigit hdigit
  have hpos : 0 < first.toNat - '0'.toNat := by
    have hne : first.toNat ≠ '0'.toNat := fun he => hfirst (Char.toNat_inj.mp he)
    omega
  rw [decimalValue_eq, Nat.ofDigitChars_cons, Nat.mul_zero, Nat.zero_add,
    toDigits_ofDigitChars hrest hpos, hone]
  simp

theorem decimalValue_toDigits (n : Nat) : decimalValue (Nat.toDigits 10 n) = n := by
  rw [decimalValue_eq, Nat.ofDigitChars_ten_toDigits]

/-- The numeral of a positive number has no leading zero. -/
theorem head?_toDigits {n : Nat} (hn : 0 < n) : (Nat.toDigits 10 n).head? ≠ some '0' := by
  induction n using Nat.strong_induction_on with
  | _ n ih =>
    rw [Nat.toDigits_eq_if (by decide)]
    split
    · intro h
      have hzero : (Nat.digitChar n).toNat = 48 := congrArg Char.toNat (Option.some.inj h)
      rw [Nat.toNat_digitChar_of_lt_ten (by omega)] at hzero
      omega
    · have hfirst := ih (n / 10) (by omega) (by omega)
      rwa [List.head?_append_of_ne_nil _ Nat.toDigits_ne_nil]

theorem length_toDigits_le {n : Nat} (hn : n ≤ greatestIndex) :
    (Nat.toDigits 10 n).length ≤ 10 := by
  rw [Nat.length_toDigits_le_iff (by decide) (by decide)]
  unfold greatestIndex at hn
  omega

theorem spells_iff {name : String} {n : Nat} :
    Spells name n ↔ name.toList = Nat.toDigits 10 n ∧ n ≤ greatestIndex := by
  rw [Spells, Nat.toString_eq_ofList_toDigits, ← String.toList_inj, String.toList_ofList]

theorem spells_of_index? {name : String} {n : Nat} (h : index? name = some n) : Spells name n := by
  rw [spells_iff]
  unfold index? at h
  by_cases hzero : name.toList = ['0']
  · obtain rfl : 0 = n := by simpa [hzero] using h
    exact ⟨hzero, Nat.zero_le _⟩
  simp only [hzero, if_false] at h
  split at h
  next => cases h
  next first rest hdigits =>
    split at h
    next => cases h
    next hplain =>
      simp only [not_or, not_not] at hplain
      obtain ⟨hfirst, hall, -⟩ := hplain
      rw [hdigits, List.all_eq_true] at hall
      have hnumeral := toDigits_decimalValue hfirst hall
      rw [hdigits] at h ⊢
      split at h
      next hle =>
        obtain rfl := Option.some.inj h
        exact ⟨hnumeral.symm, hle⟩
      next => cases h

/-- A numeral consists of digits, and only that of zero begins with a zero. -/
theorem Spells.index?_eq {name : String} {n : Nat} (h : Spells name n) : index? name = some n := by
  obtain ⟨hdigits, hn⟩ := spells_iff.mp h
  rcases Nat.eq_zero_or_pos n with rfl | hpos
  · simp [index?, hdigits]
  have hvalue := decimalValue_toDigits n
  have hhead := head?_toDigits hpos
  have hlength := length_toDigits_le hn
  have hall : (Nat.toDigits 10 n).all Char.isDigit := by
    rw [List.all_eq_true]
    exact fun c hc => Nat.isDigit_of_mem_toDigits (by decide) (by decide) hc
  rw [← hdigits] at hvalue hhead hlength hall
  unfold index?
  cases hname : name.toList with
  | nil => exact absurd (hdigits.symm.trans hname) Nat.toDigits_ne_nil
  | cons first rest =>
    rw [hname] at hvalue hhead hlength hall
    have hfirst : first ≠ '0' := by simpa using hhead
    have hplain : ¬ (first = '0' ∨ ¬ (first :: rest).all Char.isDigit ∨
        10 < (first :: rest).length) := by
      simp only [not_or, not_not, not_lt]
      exact ⟨hfirst, hall, hlength⟩
    have hzero : first :: rest ≠ ['0'] := by simp [hfirst]
    simp only [hzero, hplain, hvalue, hn, if_false, if_true]

theorem index?_eq_some_iff {name : String} {n : Nat} : index? name = some n ↔ Spells name n :=
  ⟨spells_of_index?, Spells.index?_eq⟩

theorem index?_eq_none_iff {name : String} : index? name = none ↔ ∀ n, ¬ Spells name n := by
  simp [Option.eq_none_iff_forall_ne_some, index?_eq_some_iff]

variable {α : Type}

/-- The last value that a name is assigned. -/
def LastOf (assignments : List (String × α)) (name : String) (value : α) : Prop :=
  ∃ before after, assignments = before ++ (name, value) :: after ∧ name ∉ after.map Prod.fst

theorem lastOf_append_singleton {assignments : List (String × α)} {name other : String}
    {value new : α} : LastOf (assignments ++ [(other, new)]) name value ↔
      (other = name ∧ new = value) ∨ other ≠ name ∧ LastOf assignments name value := by
  constructor
  · rintro ⟨before, after, h, hafter⟩
    induction after using List.reverseRecOn with
    | nil =>
      obtain ⟨-, hlast⟩ := List.append_inj' h (by simp)
      exact .inl (by simpa using hlast)
    | append_singleton after last _ =>
      rw [← List.cons_append, ← List.append_assoc] at h
      obtain ⟨hbefore, hlast⟩ := List.append_inj' h (by simp)
      obtain rfl : (other, new) = last := by simpa using hlast
      simp only [List.map_append, List.mem_append, not_or] at hafter
      have hne : other ≠ name := by simpa [eq_comm] using hafter.2
      exact .inr ⟨hne, before, after, hbefore, hafter.1⟩
  · rintro (⟨rfl, rfl⟩ | ⟨hne, before, after, rfl, hafter⟩)
    · exact ⟨assignments, [], rfl, by simp⟩
    · refine ⟨before, after ++ [(other, new)], by simp, ?_⟩
      simpa [hafter] using Ne.symm hne

theorem ofAssignments_append_singleton (assignments : List (String × α)) (name : String)
    (value : α) : ofAssignments (assignments ++ [(name, value)]) =
      assign (ofAssignments assignments) name value := by
  simp [ofAssignments]

theorem get?_ofAssignments {assignments : List (String × α)} {name : String} {value : α} :
    get? (ofAssignments assignments) name = some value ↔ LastOf assignments name value := by
  induction assignments using List.reverseRecOn with
  | nil => simp [ofAssignments, get?, LastOf]
  | append_singleton assignments given ih =>
    obtain ⟨other, new⟩ := given
    rw [ofAssignments_append_singleton, lastOf_append_singleton]
    by_cases h : other = name
    · subst h
      simp [get?_assign_self]
    · simp [get?_assign_of_ne _ _ (Ne.symm h), ih, h]

theorem distinct_append_singleton (names : List String) (name : String) :
    Text.distinct (names ++ [name]) = Text.addNew (Text.distinct names) name := by
  simp [Text.distinct]

/-- The names of a record are those assigned, in order of first assignment. -/
theorem names_ofAssignments (assignments : List (String × α)) :
    (ofAssignments assignments).map Prod.fst = Text.distinct (assignments.map Prod.fst) := by
  induction assignments using List.reverseRecOn with
  | nil => simp [ofAssignments, Text.distinct]
  | append_singleton assignments given ih =>
    rw [ofAssignments_append_singleton, names_assign, ih, List.map_append, List.map_singleton,
      distinct_append_singleton]
    by_cases h : given.1 ∈ Text.distinct (assignments.map Prod.fst) <;> simp [Text.addNew, h]

theorem pairwise_distinct (names : List String) :
    (Text.distinct names).Pairwise fun s t => names.idxOf s < names.idxOf t := by
  induction names using List.reverseRecOn with
  | nil => simp [Text.distinct]
  | append_singleton names name ih =>
    have hold : (Text.distinct names).Pairwise fun s t =>
        (names ++ [name]).idxOf s < (names ++ [name]).idxOf t := by
      apply ih.imp_of_mem
      intro s t hs ht h
      rwa [List.idxOf_append_of_mem (Text.mem_distinct.mp hs),
        List.idxOf_append_of_mem (Text.mem_distinct.mp ht)]
    rw [distinct_append_singleton, Text.addNew]
    split
    · exact hold
    next hnew =>
      have hname : name ∉ names := by simpa [Text.mem_distinct] using hnew
      apply List.pairwise_append.mpr
      refine ⟨hold, by simp, ?_⟩
      intro s hs t ht
      obtain rfl := List.mem_singleton.mp ht
      have hs := Text.mem_distinct.mp hs
      have hlt := List.idxOf_lt_length_iff.mpr hs
      rw [List.idxOf_append_of_mem hs, List.idxOf_append_of_notMem hname]
      omega

theorem mem_iff_get? {record : List (String × α)} (hnames : (record.map Prod.fst).Nodup)
    {name : String} {value : α} : (name, value) ∈ record ↔ get? record name = some value := by
  induction record with
  | nil => simp [get?]
  | cons entry rest ih =>
    rw [List.map_cons, List.nodup_cons] at hnames
    obtain ⟨hfresh, hrest⟩ := hnames
    obtain ⟨other, old⟩ := entry
    by_cases h : other = name
    · subst h
      have hnot : (other, value) ∉ rest := fun hmem =>
        hfresh (List.mem_map.mpr ⟨_, hmem, rfl⟩)
      simp [get?, hnot, eq_comm]
    · simp [get?, h, Ne.symm h, ih hrest]

/-- Which of two names is enumerated first, if both were assigned. -/
inductive Precedes (assigned : List String) (s t : String) : Prop where
  | bySize {m n : Nat} : Spells s m → Spells t n → m < n → Precedes assigned s t
  | indexFirst {m : Nat} : Spells s m → (∀ n, ¬ Spells t n) → Precedes assigned s t
  | byAssignment : (∀ n, ¬ Spells s n) → (∀ n, ¬ Spells t n) →
      assigned.idxOf s < assigned.idxOf t → Precedes assigned s t

/-- What enumeration lists after some assignments: every name once, with its last value, in
order. -/
structure Enumerates (assignments entries : List (String × α)) : Prop where
  names : (entries.map Prod.fst).Nodup
  values : ∀ name value, (name, value) ∈ entries ↔ LastOf assignments name value
  order : entries.Pairwise fun s t => Precedes (assignments.map Prod.fst) s.1 t.1

/-- The entries whose names are array indices, each with its index. -/
def indexed (record : List (String × α)) : List (Nat × (String × α)) :=
  record.filterMap fun entry => (index? entry.1).map fun n => (n, entry)

/-- The entries whose names are no array indices. -/
def named (record : List (String × α)) : List (String × α) :=
  record.filter fun entry => (index? entry.1).isNone

theorem mem_indexed {record : List (String × α)} {n : Nat} {entry : String × α} :
    (n, entry) ∈ indexed record ↔ entry ∈ record ∧ Spells entry.1 n := by
  simp only [indexed, List.mem_filterMap, Option.map_eq_some_iff, index?_eq_some_iff]
  constructor
  · rintro ⟨other, hmem, m, hspells, h⟩
    obtain ⟨rfl, rfl⟩ := Prod.mk.inj h
    exact ⟨hmem, hspells⟩
  · rintro ⟨hmem, hspells⟩
    exact ⟨entry, hmem, n, hspells, rfl⟩

theorem mem_named {record : List (String × α)} {entry : String × α} :
    entry ∈ named record ↔ entry ∈ record ∧ ∀ n, ¬ Spells entry.1 n := by
  simp [named, index?_eq_none_iff]

theorem map_snd_indexed (record : List (String × α)) :
    (indexed record).map Prod.snd = record.filter fun entry => !(index? entry.1).isNone := by
  induction record with
  | nil => rfl
  | cons entry rest ih => cases h : index? entry.1 <;> simp_all [indexed]

/-- Smaller indices first. -/
abbrev ByIndex (x y : Nat × (String × α)) : Prop := x.1 ≤ y.1

instance : Std.Total (ByIndex (α := α)) := ⟨fun x y => Nat.le_total x.1 y.1⟩

instance : IsTrans (Nat × (String × α)) ByIndex := ⟨fun _ _ _ => Nat.le_trans⟩

theorem insertByIndex_eq (entry : Nat × (String × α)) (entries : List (Nat × (String × α))) :
    insertByIndex entry entries = entries.orderedInsert ByIndex entry := by
  induction entries with
  | nil => rfl
  | cons other rest ih => simp [insertByIndex, List.orderedInsert_cons, ih]

theorem enumerate_eq (record : List (String × α)) :
    enumerate record = ((indexed record).insertionSort ByIndex).map Prod.snd ++ named record := by
  have hinsert : insertByIndex (α := α) = List.orderedInsert ByIndex := by
    funext entry entries
    exact insertByIndex_eq entry entries
  unfold enumerate
  rw [hinsert]
  rfl

theorem perm_enumerate (record : List (String × α)) : (enumerate record).Perm record := by
  rw [enumerate_eq]
  have hsorted := (List.perm_insertionSort ByIndex (indexed record)).map Prod.snd
  rw [map_snd_indexed] at hsorted
  have hparts := List.filter_append_perm (fun entry => (index? entry.1).isNone) record
  exact (hsorted.append_right _).trans (List.perm_append_comm.trans hparts)

/-- No name comes twice, so indices that are in order increase. -/
theorem pairwise_indices {record : List (String × α)} (hnames : (record.map Prod.fst).Nodup)
    (assigned : List String) : (((indexed record).insertionSort ByIndex).map Prod.snd).Pairwise
      fun s t => Precedes assigned s.1 t.1 := by
  have hsorted := List.perm_insertionSort ByIndex (indexed record)
  have hdistinct : (((indexed record).insertionSort ByIndex).map fun x => x.2.1).Nodup := by
    have hfiltered : ((record.filter fun entry => !(index? entry.1).isNone).map Prod.fst).Nodup :=
      hnames.sublist (List.filter_sublist.map _)
    rw [← map_snd_indexed, List.map_map] at hfiltered
    exact (hsorted.map _).nodup_iff.mpr hfiltered
  have hboth := (List.pairwise_insertionSort ByIndex (indexed record)).and
    (List.pairwise_map.mp hdistinct)
  apply List.pairwise_map.mpr
  apply hboth.imp_of_mem
  intro x y hx hy hxy
  obtain ⟨hle, hne⟩ := hxy
  have hspellsX := (mem_indexed.mp (hsorted.mem_iff.mp hx)).2
  have hspellsY := (mem_indexed.mp (hsorted.mem_iff.mp hy)).2
  have hindex : x.1 ≠ y.1 := by
    intro he
    rw [he] at hspellsX
    exact hne (hspellsX.unique hspellsY)
  exact .bySize hspellsX hspellsY (Nat.lt_of_le_of_ne hle hindex)

/-- A record is enumerated in the order that its assignments give it. -/
theorem enumerates_ofAssignments (assignments : List (String × α)) :
    Enumerates assignments (enumerate (ofAssignments assignments)) := by
  have hperm := perm_enumerate (ofAssignments assignments)
  have hnames : ((ofAssignments assignments).map Prod.fst).Nodup := by
    rw [names_ofAssignments]
    exact Text.nodup_distinct _
  constructor
  case names => exact (hperm.map Prod.fst).nodup_iff.mpr hnames
  case values =>
    intro name value
    rw [hperm.mem_iff, mem_iff_get? hnames, get?_ofAssignments]
  case order =>
    rw [enumerate_eq]
    apply List.pairwise_append.mpr
    refine ⟨pairwise_indices hnames _, ?_, ?_⟩
    · have hassigned := pairwise_distinct (assignments.map Prod.fst)
      rw [← names_ofAssignments] at hassigned
      apply ((List.pairwise_map.mp hassigned).filter _).imp_of_mem
      intro s t hs ht hlt
      exact .byAssignment (mem_named.mp hs).2 (mem_named.mp ht).2 hlt
    · intro s hs t ht
      obtain ⟨x, hx, rfl⟩ := List.mem_map.mp hs
      have hx := (List.perm_insertionSort ByIndex _).mem_iff.mp hx
      exact .indexFirst (mem_indexed.mp hx).2 (mem_named.mp ht).2

/-- Indices come by their size wherever they were assigned; a leading zero makes a name of one. -/
example : enumerate (ofAssignments [("b", 1), ("10", 2), ("02", 3), ("2", 4), ("b", 5)]) =
    [("2", 4), ("10", 2), ("b", 5), ("02", 3)] := by
  decide

end MarkupArena.Record
