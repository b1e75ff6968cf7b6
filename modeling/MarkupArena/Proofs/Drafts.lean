import MarkupArena.Reading.Draft

/-! Drafts in which elements are only begun and filled at their ends. An element made later is
further in, so what is filled leaves everything else as it was, and the depth to which content is
looked up never cuts any off. -/
namespace MarkupArena.Reading

namespace Content

/-- Adds text to contents, the last of which come first; it joins text before it. -/
def addText (value : String) : List Content → List Content
  | .text before :: rest => .text (before ++ value) :: rest
  | contents => .text value :: contents

end Content

namespace Draft

variable {d d' : Draft} {number : Nat}

def pieces (d : Draft) (number : Nat) : List Piece :=
  (d.branches[number]?.map Branch.pieces).getD []

def name (d : Draft) (number : Nat) : String := (d.branches[number]?.map Branch.name).getD ""

/-- Elements hold only elements that were made after them, and all that they hold is content. -/
structure Growing (d : Draft) : Prop where
  later : ∀ number child, .element child ∈ d.pieces number → number < child ∧ child < d.size
  bare : ∀ (number : Nat) branch, d.branches[number]? = some branch → branch.sealed = false

/-- The content of an element, however deep it is. -/
def held (d : Draft) (number : Nat) : List Content := d.contentOf d.size number

/-- What a piece stands for. -/
def told (d : Draft) : Piece → Content
  | .text value => .text value
  | .element child => .element (d.name child) (d.held child)

theorem pieces_of_size_le (h : d.size ≤ number) : d.pieces number = [] := by
  have hnone : d.branches[number]? = none := Array.getElem?_eq_none h
  rw [pieces, hnone]
  rfl

theorem Growing.contentOf_succ (hd : d.Growing) (depth number : Nat) :
    d.contentOf (depth + 1) number = (d.pieces number).reverse.map fun
      | .text value => .text value
      | .element child => .element (d.name child) (d.contentOf depth child) := by
  rw [contentOf, pieces]
  cases hbranch : d.branches[number]? with
  | none => rfl
  | some branch =>
    dsimp only
    rw [if_neg (by simp [hd.bare number branch hbranch])]
    rfl

/-- A depth of more than the number of elements made after an element adds nothing. -/
theorem Growing.contentOf_deeper (hd : d.Growing) {depth : Nat} (h : d.size ≤ number + depth) :
    d.contentOf (depth + 1) number = d.contentOf depth number := by
  induction depth generalizing number with
  | zero =>
    have hnone : d.pieces number = [] := pieces_of_size_le h
    rw [hd.contentOf_succ, hnone]
    rfl
  | succ depth ih =>
    rw [hd.contentOf_succ, hd.contentOf_succ depth]
    refine List.map_congr_left fun piece hpiece => ?_
    cases piece with
    | text value => rfl
    | element child =>
      have hlater := (hd.later number child (List.mem_reverse.mp hpiece)).1
      dsimp only
      rw [ih (by omega)]

theorem Growing.contentOf_add (hd : d.Growing) {depth : Nat} (h : d.size ≤ number + depth)
    (extra : Nat) : d.contentOf (depth + extra) number = d.contentOf depth number := by
  induction extra with
  | zero => rfl
  | succ extra ih => rw [← Nat.add_assoc, hd.contentOf_deeper (by omega), ih]

theorem Growing.contentOf_eq_held (hd : d.Growing) {depth : Nat} (h : d.size ≤ number + depth) :
    d.contentOf depth number = d.held number := by
  have hsize : d.contentOf (d.size + depth) number = d.contentOf d.size number :=
    hd.contentOf_add (Nat.le_add_left d.size number) depth
  have hdepth := hd.contentOf_add h d.size
  rw [held, ← hsize, Nat.add_comm, hdepth]

/-- What an element holds is what its pieces stand for. -/
theorem Growing.held_eq (hd : d.Growing) (number : Nat) :
    d.held number = ((d.pieces number).map d.told).reverse := by
  have hdeep : d.held number = d.contentOf (d.size + 1) number :=
    (hd.contentOf_eq_held (by omega)).symm
  rw [hdeep, hd.contentOf_succ, List.map_reverse]
  refine congrArg List.reverse (List.map_congr_left fun piece _ => ?_)
  cases piece <;> rfl

/-- A draft in which nothing was changed but what is in one element and in those made since. -/
structure Fills (number : Nat) (d d' : Draft) : Prop where
  size_le : d.size ≤ d'.size
  name_eq : d'.name number = d.name number
  same : ∀ other, other < d.size → other ≠ number → d'.branches[other]? = d.branches[other]?

theorem Fills.refl (number : Nat) (d : Draft) : Fills number d d :=
  ⟨Nat.le_refl _, rfl, fun _ _ _ => rfl⟩

theorem Fills.trans {d'' : Draft} (h : Fills number d d') (h' : Fills number d' d'') :
    Fills number d d'' where
  size_le := Nat.le_trans h.size_le h'.size_le
  name_eq := h'.name_eq.trans h.name_eq
  same other hother hne :=
    (h'.same other (Nat.lt_of_lt_of_le hother h.size_le) hne).trans (h.same other hother hne)

/-- What was made after an element is still there, if only the element was filled. -/
theorem Fills.contentOf_eq (h : Fills number d d') (hd : d.Growing) (hd' : d'.Growing)
    {child : Nat} (hchild : number < child) (hsize : child < d.size) (depth : Nat) :
    d'.contentOf depth child = d.contentOf depth child := by
  induction depth generalizing child with
  | zero => rfl
  | succ depth ih =>
    have hsame : ∀ m, number < m → m < d.size → d'.branches[m]? = d.branches[m]? :=
      fun m hm hlt => h.same m hlt (Nat.ne_of_gt hm)
    have hpieces : d'.pieces child = d.pieces child := by
      unfold pieces
      rw [hsame child hchild hsize]
    rw [hd.contentOf_succ, hd'.contentOf_succ, hpieces]
    refine List.map_congr_left fun piece hpiece => ?_
    cases piece with
    | text value => rfl
    | element grandchild =>
      obtain ⟨hlater, hlt⟩ := hd.later child grandchild (List.mem_reverse.mp hpiece)
      have hname : d'.name grandchild = d.name grandchild := by
        unfold name
        rw [hsame grandchild (Nat.lt_trans hchild hlater) hlt]
      dsimp only
      rw [ih (Nat.lt_trans hchild hlater) hlt, hname]

theorem Fills.told_eq (h : Fills number d d') (hd : d.Growing) (hd' : d'.Growing) {piece : Piece}
    (hpiece : piece ∈ d.pieces number) : d'.told piece = d.told piece := by
  cases piece with
  | text value => rfl
  | element child =>
    obtain ⟨hlater, hlt⟩ := hd.later number child hpiece
    have hname : d'.name child = d.name child := by
      unfold name
      rw [h.same child hlt (Nat.ne_of_gt hlater)]
    have hheld : d'.held child = d.held child := by
      have hdeep : d.size ≤ child + d'.size := by
        have := h.size_le
        omega
      rw [held, h.contentOf_eq hd hd' hlater hlt, hd.contentOf_eq_held hdeep]
    rw [told, told, hname, hheld]

/-- What an element holds, the last first. -/
def back (d : Draft) (number : Nat) : List Content := (d.pieces number).map d.told

theorem Growing.held_eq_reverse (hd : d.Growing) (number : Nat) :
    d.held number = (d.back number).reverse := hd.held_eq number

/-- What an element held is still told the same after it was filled. -/
theorem Fills.map_told (h : Fills number d d') (hd : d.Growing) (hd' : d'.Growing) :
    (d.pieces number).map d'.told = d.back number :=
  List.map_congr_left fun _ hpiece => h.told_eq hd hd' hpiece

section
variable (d : Draft) (number : Nat) (value elementName : String)

theorem branches_append_text (other : Nat) : (d.append number (.text value)).branches[other]? =
    if number = other then d.branches[other]?.map fun branch =>
      { branch with pieces := Piece.push (.text value) branch.pieces }
    else d.branches[other]? := by
  unfold append insert setParent modify
  rw [Array.getElem?_modify]

/-- A draft with a new element at the end of another. -/
def begin (d : Draft) (number : Nat) (elementName : String) : Draft :=
  (d.create elementName false).append number (.element d.size)

theorem size_append_text : (d.append number (.text value)).size = d.size := by
  unfold append insert setParent modify size
  rw [Array.size_modify]

theorem size_begin : (d.begin number elementName).size = d.size + 1 := by
  unfold begin append insert setParent modify create size
  rw [Array.size_modify, Array.size_modify, Array.size_push]

theorem branches_begin (hnumber : number < d.size) (other : Nat) :
    (d.begin number elementName).branches[other]? =
      if other = d.size then some ⟨elementName, false, some number, []⟩
      else if number = other then d.branches[other]?.map fun branch =>
        { branch with pieces := .element d.size :: branch.pieces }
      else d.branches[other]? := by
  unfold begin append insert setParent modify create size
  rw [Array.getElem?_modify, Array.getElem?_modify, Array.getElem?_push]
  by_cases hnew : other = d.branches.size
  · subst hnew
    have hne : number ≠ d.branches.size := Nat.ne_of_lt hnumber
    simp [hne]
  · simp [hnew, Ne.symm hnew, Piece.push]

end

section
variable {value elementName : String}

theorem pieces_append_text (hnumber : number < d.size) (other : Nat) :
    (d.append number (.text value)).pieces other =
      if number = other then Piece.push (.text value) (d.pieces other) else d.pieces other := by
  unfold pieces
  rw [branches_append_text]
  split
  next heq =>
    subst heq
    have hsome : d.branches[number]? = some d.branches[number] :=
      Array.getElem?_eq_getElem hnumber
    simp [hsome]
  next => rfl

theorem pieces_begin (hnumber : number < d.size) (other : Nat) :
    (d.begin number elementName).pieces other =
      if number = other then .element d.size :: d.pieces other else d.pieces other := by
  unfold pieces
  rw [branches_begin _ _ _ hnumber]
  by_cases hnew : other = d.size
  · have hnone : d.branches[other]? = none := Array.getElem?_eq_none (Nat.le_of_eq hnew.symm)
    have hne : number ≠ other := by omega
    rw [if_pos hnew, if_neg hne, hnone]
    rfl
  · rw [if_neg hnew]
    split
    next heq =>
      subst heq
      have hsome : d.branches[number]? = some d.branches[number] :=
        Array.getElem?_eq_getElem hnumber
      simp [hsome]
    next => rfl

theorem mem_push_text {child : Nat} {pieces : List Piece}
    (h : .element child ∈ Piece.push (.text value) pieces) : .element child ∈ pieces := by
  unfold Piece.push at h
  split at h
  next => simpa using h
  next => simpa using h

theorem Growing.append_text (hd : d.Growing) (hnumber : number < d.size) :
    (d.append number (.text value)).Growing where
  later other child hchild := by
    rw [size_append_text]
    rw [pieces_append_text hnumber] at hchild
    split at hchild
    next => exact hd.later other child (mem_push_text hchild)
    next => exact hd.later other child hchild
  bare other branch hbranch := by
    rw [branches_append_text] at hbranch
    split at hbranch
    next =>
      obtain ⟨before, hbefore, rfl⟩ := Option.map_eq_some_iff.mp hbranch
      exact hd.bare other before hbefore
    next => exact hd.bare other branch hbranch

theorem Growing.begin (hd : d.Growing) (hnumber : number < d.size) :
    (d.begin number elementName).Growing where
  later other child hchild := by
    rw [size_begin]
    rw [pieces_begin hnumber] at hchild
    have hold : ∀ {child}, .element child ∈ d.pieces other → other < child ∧ child < d.size + 1 :=
      fun hmem => ⟨(hd.later other _ hmem).1, Nat.lt_succ_of_lt (hd.later other _ hmem).2⟩
    split at hchild
    next heq =>
      rcases List.mem_cons.mp hchild with heq' | hmem
      · obtain rfl := Piece.element.inj heq'
        exact ⟨heq ▸ hnumber, Nat.lt_succ_self _⟩
      · exact hold hmem
    next => exact hold hchild
  bare other branch hbranch := by
    rw [branches_begin _ _ _ hnumber] at hbranch
    split at hbranch
    next => exact (Option.some.inj hbranch) ▸ rfl
    next =>
      split at hbranch
      next =>
        obtain ⟨before, hbefore, rfl⟩ := Option.map_eq_some_iff.mp hbranch
        exact hd.bare other before hbefore
      next => exact hd.bare other branch hbranch

theorem fills_append_text (d : Draft) (number : Nat) (value : String) :
    Fills number d (d.append number (.text value)) where
  size_le := Nat.le_of_eq (size_append_text ..).symm
  name_eq := by
    unfold name
    rw [branches_append_text, if_pos rfl, Option.map_map]
    rfl
  same other _ hne := by rw [branches_append_text, if_neg (Ne.symm hne)]

theorem name_begin_self (hnumber : number < d.size) :
    (d.begin number elementName).name d.size = elementName := by
  unfold name
  rw [branches_begin _ _ _ hnumber, if_pos rfl]
  rfl

theorem fills_begin (hnumber : number < d.size) :
    Fills number d (d.begin number elementName) where
  size_le := by
    rw [size_begin]
    exact Nat.le_succ _
  name_eq := by
    unfold name
    rw [branches_begin _ _ _ hnumber, if_neg (Nat.ne_of_lt hnumber), if_pos rfl, Option.map_map]
    rfl
  same other hother hne := by
    rw [branches_begin _ _ _ hnumber, if_neg (Nat.ne_of_lt hother), if_neg (Ne.symm hne)]

theorem map_push_text (d : Draft) (value : String) (pieces : List Piece) :
    (Piece.push (.text value) pieces).map d.told = Content.addText value (pieces.map d.told) := by
  match pieces with
  | [] => rfl
  | .text _ :: _ => rfl
  | .element _ :: _ => rfl

theorem back_append_text (hd : d.Growing) (hnumber : number < d.size) :
    (d.append number (.text value)).back number = Content.addText value (d.back number) := by
  have hfills := fills_append_text d number value
  rw [back, pieces_append_text hnumber, if_pos rfl, map_push_text,
    hfills.map_told hd (hd.append_text hnumber)]

theorem back_begin_new (hnumber : number < d.size) :
    (d.begin number elementName).back d.size = [] := by
  rw [back, pieces_begin hnumber, if_neg (Nat.ne_of_lt hnumber), pieces_of_size_le (Nat.le_refl _)]
  rfl

/-- An element that was begun and filled is one more piece of the element around it. -/
theorem Fills.of_begin (hfills : Fills d.size (d.begin number elementName) d') (hd : d.Growing)
    (hnumber : number < d.size) (hd' : d'.Growing) :
    Fills number d d' ∧
      d'.back number = .element elementName (d'.back d.size).reverse :: d.back number := by
  have hbegun : Fills number d (d.begin number elementName) := fills_begin hnumber
  have hlt : number < (d.begin number elementName).size := Nat.lt_of_lt_of_le hnumber hbegun.size_le
  have hsame := hfills.same number hlt (Nat.ne_of_lt hnumber)
  have hwhole : Fills number d d' :=
    { size_le := Nat.le_trans hbegun.size_le hfills.size_le
      name_eq := by
        rw [← hbegun.name_eq, name, name, hsame]
      same := fun other hother hne =>
        (hfills.same other (Nat.lt_of_lt_of_le hother hbegun.size_le) (Nat.ne_of_lt hother)).trans
          (hbegun.same other hother hne) }
  have hpieces : d'.pieces number = .element d.size :: d.pieces number := by
    rw [pieces, hsame, ← pieces, pieces_begin hnumber, if_pos rfl]
  refine ⟨hwhole, ?_⟩
  rw [back, hpieces, List.map_cons, hwhole.map_told hd hd', told, hfills.name_eq,
    name_begin_self hnumber, hd'.held_eq_reverse]

end

end Draft

end MarkupArena.Reading
