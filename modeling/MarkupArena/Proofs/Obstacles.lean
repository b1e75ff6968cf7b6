import MarkupArena.Proofs.Appending
import MarkupArena.Proofs.Caching
import MarkupArena.Proofs.Ending
import MarkupArena.Proofs.Rebuilding

/-! The first thing that stands in the way of an element, said without the checks that find it: an
element fails with just that, and is made if there is none. -/
namespace MarkupArena

namespace AttributeInput

/-- The attributes of the pairs that have a text, in order. -/
def kept (pairs : List (String × AttributeValue)) : List Attribute :=
  pairs.filterMap fun pair => pair.2.text?.map fun text => ⟨pair.1, text⟩

/-- Attributes with well-formed names, which differ from one another and from those seen before. -/
structure Fresh (seen : List String) (attributes : List Attribute) : Prop where
  names : ∀ given ∈ attributes, Text.isAttributeName given.name
  unseen : ∀ given ∈ attributes, given.name ∉ seen
  distinct : (attributes.map Attribute.name).Nodup

/-- Why an attribute cannot follow others: its name is malformed or, if not, one of theirs. -/
inductive Clashes (tag : String) (seen : List String) (given : Attribute) : Rejection → Prop where
  | malformed : ¬ Text.isAttributeName given.name →
      Clashes tag seen given (.invalidAttributeName tag given.name)
  | repeated : Text.isAttributeName given.name → given.name ∈ seen →
      Clashes tag seen given (.duplicateAttribute tag given.name)

theorem fresh_nil (seen : List String) : Fresh seen [] :=
  ⟨by simp, by simp, List.nodup_nil⟩

theorem fresh_cons_iff {seen : List String} {given : Attribute} {rest : List Attribute} :
    Fresh seen (given :: rest) ↔
      Text.isAttributeName given.name ∧ given.name ∉ seen ∧ Fresh (given.name :: seen) rest := by
  constructor
  · rintro ⟨hnames, hunseen, hdistinct⟩
    rw [List.forall_mem_cons] at hnames hunseen
    rw [List.map_cons, List.nodup_cons] at hdistinct
    refine ⟨hnames.1, hunseen.1, hnames.2, ?_, hdistinct.2⟩
    intro g hg hseen
    rcases List.mem_cons.mp hseen with hname | hseen
    · exact hdistinct.1 (hname ▸ List.mem_map_of_mem hg)
    · exact hunseen.2 g hg hseen
  · rintro ⟨hname, hseen, hrest⟩
    refine ⟨List.forall_mem_cons.mpr ⟨hname, hrest.names⟩, List.forall_mem_cons.mpr ⟨hseen, ?_⟩, ?_⟩
    · exact fun g hg hmem => hrest.unseen g hg (List.mem_cons_of_mem _ hmem)
    · rw [List.map_cons, List.nodup_cons]
      refine ⟨fun hmem => ?_, hrest.distinct⟩
      obtain ⟨g, hg, hgname⟩ := List.mem_map.mp hmem
      exact hrest.unseen g hg (hgname ▸ List.mem_cons_self)

/-- Only the names seen so far matter, and those of the attributes kept meanwhile join them. -/
theorem clashes_cons_iff {tag : String} {seen : List String} {first given : Attribute}
    {before : List Attribute} {why : Rejection} :
    Clashes tag ((before.map Attribute.name) ++ first.name :: seen) given why ↔
      Clashes tag (((first :: before).map Attribute.name) ++ seen) given why := by
  have hsame : ∀ name, name ∈ before.map Attribute.name ++ first.name :: seen ↔
      name ∈ (first :: before).map Attribute.name ++ seen := by
    intro name
    simp only [List.mem_append, List.mem_cons, List.map_cons]
    tauto
  constructor
  · rintro (h | ⟨hname, hmem⟩)
    · exact .malformed h
    · exact .repeated hname ((hsame _).mp hmem)
  · rintro (h | ⟨hname, hmem⟩)
    · exact .malformed h
    · exact .repeated hname ((hsame _).mpr hmem)

theorem kept_cons_of_omitted {name : String} {value : AttributeValue} (h : value.text? = none)
    (rest : List (String × AttributeValue)) : kept ((name, value) :: rest) = kept rest := by
  simp [kept, h]

theorem kept_cons_of_text {name text : String} {value : AttributeValue}
    (h : value.text? = some text) (rest : List (String × AttributeValue)) :
    kept ((name, value) :: rest) = ⟨name, text⟩ :: kept rest := by
  simp [kept, h]

theorem keep_cons_of_omitted {name : String} {value : AttributeValue} (h : value.text? = none)
    (tag : String) (seen : List String) (rest : List (String × AttributeValue)) :
    keep tag seen ((name, value) :: rest) = keep tag seen rest := by
  simp [keep, h]

/-- An attribute that clashes with none before it is kept, and its name is seen from then on. -/
theorem keep_cons_of_text {name text : String} {value : AttributeValue}
    (h : value.text? = some text) (hname : Text.isAttributeName name) {seen : List String}
    (hseen : name ∉ seen) (tag : String) (rest : List (String × AttributeValue)) :
    keep tag seen ((name, value) :: rest) =
      (⟨name, text⟩ :: ·) <$> keep tag (name :: seen) rest := by
  simp [keep, h, hname, hseen, Functor.map]

theorem keep_cons_of_clash {name text : String} {value : AttributeValue} {tag : String}
    {seen : List String} {why : Rejection} (h : value.text? = some text)
    (hclash : Clashes tag seen ⟨name, text⟩ why) (rest : List (String × AttributeValue)) :
    keep tag seen ((name, value) :: rest) = .error why := by
  cases hclash with
  | malformed hname => simp [keep, h, hname]
  | repeated hname hseen => simp [keep, h, hname, hseen]

/-- An attribute clashes with those before it, or its name is well formed and new. -/
theorem clashes_or_fresh (tag : String) (seen : List String) (given : Attribute) :
    (∃ why, Clashes tag seen given why) ∨
      (Text.isAttributeName given.name ∧ given.name ∉ seen) := by
  by_cases hname : Text.isAttributeName given.name
  · by_cases hseen : given.name ∈ seen
    · exact .inl ⟨_, .repeated hname hseen⟩
    · exact .inr ⟨hname, hseen⟩
  · exact .inl ⟨_, .malformed hname⟩

theorem Clashes.not_fresh {tag : String} {seen : List String} {given : Attribute} {why : Rejection}
    (hclash : Clashes tag seen given why) :
    ¬ (Text.isAttributeName given.name ∧ given.name ∉ seen) := by
  rintro ⟨hname, hseen⟩
  cases hclash with
  | malformed h => exact h hname
  | repeated _ h => exact hseen h

theorem Clashes.unique {tag : String} {seen : List String} {given : Attribute}
    {why other : Rejection} (h : Clashes tag seen given why) (ho : Clashes tag seen given other) :
    why = other := by
  cases h with
  | malformed hname =>
    cases ho with
    | malformed => rfl
    | repeated hname' => exact absurd hname' hname
  | repeated hname =>
    cases ho with
    | malformed hname' => exact absurd hname hname'
    | repeated => rfl

/-- Attributes are kept if none of them clashes with those before it. -/
theorem keep_eq_ok_iff {tag : String} {seen : List String}
    {pairs : List (String × AttributeValue)} {given : List Attribute} :
    keep tag seen pairs = .ok given ↔ given = kept pairs ∧ Fresh seen (kept pairs) := by
  induction pairs generalizing seen given with
  | nil =>
    constructor
    · intro h
      exact ⟨(Except.ok.inj h).symm, fresh_nil seen⟩
    · rintro ⟨rfl, -⟩
      rfl
  | cons pair rest ih =>
    obtain ⟨name, value⟩ := pair
    cases htext : value.text? with
    | none => rw [keep_cons_of_omitted htext, kept_cons_of_omitted htext, ih]
    | some text =>
      rw [kept_cons_of_text htext, fresh_cons_iff]
      rcases clashes_or_fresh tag seen ⟨name, text⟩ with ⟨why, hclash⟩ | ⟨hname, hseen⟩
      · rw [keep_cons_of_clash htext hclash]
        constructor
        · intro h
          cases h
        · rintro ⟨-, hname, hseen, -⟩
          exact absurd ⟨hname, hseen⟩ hclash.not_fresh
      · rw [keep_cons_of_text htext hname hseen, map_eq_pure_bind, bind_eq_ok_iff]
        constructor
        · rintro ⟨others, hothers, h⟩
          obtain ⟨rfl, hrest⟩ := ih.mp hothers
          exact ⟨(Except.ok.inj h).symm, hname, hseen, hrest⟩
        · rintro ⟨rfl, -, -, hrest⟩
          exact ⟨_, ih.mpr ⟨rfl, hrest⟩, rfl⟩

/-- The first attribute that clashes with those before it is what attributes are refused for. -/
theorem keep_eq_error_iff {tag : String} {seen : List String}
    {pairs : List (String × AttributeValue)} {why : Rejection} :
    keep tag seen pairs = .error why ↔ ∃ before given after,
      kept pairs = before ++ given :: after ∧ Fresh seen before ∧
        Clashes tag (before.map Attribute.name ++ seen) given why := by
  induction pairs generalizing seen with
  | nil =>
    constructor
    · intro h
      cases h
    · rintro ⟨before, given, after, h, -⟩
      simp [kept] at h
  | cons pair rest ih =>
    obtain ⟨name, value⟩ := pair
    cases htext : value.text? with
    | none => rw [keep_cons_of_omitted htext, kept_cons_of_omitted htext, ih]
    | some text =>
      rw [kept_cons_of_text htext]
      rcases clashes_or_fresh tag seen ⟨name, text⟩ with ⟨why', hclash⟩ | ⟨hname, hseen⟩
      · rw [keep_cons_of_clash htext hclash]
        constructor
        · rintro ⟨⟩
          exact ⟨[], _, _, rfl, fresh_nil seen, hclash⟩
        · rintro ⟨before, given, after, h, hfresh, hother⟩
          cases before with
          | nil =>
            obtain ⟨rfl, -⟩ := List.cons.inj h
            exact congrArg _ (hclash.unique hother)
          | cons first before =>
            obtain ⟨rfl, -⟩ := List.cons.inj h
            obtain ⟨hname, hseen, -⟩ := fresh_cons_iff.mp hfresh
            exact absurd ⟨hname, hseen⟩ hclash.not_fresh
      · rw [keep_cons_of_text htext hname hseen, map_eq_pure_bind, bind_eq_error_iff]
        constructor
        · rintro (h | ⟨_, -, h⟩)
          · obtain ⟨before, given, after, hkept, hfresh, hclash⟩ := ih.mp h
            exact ⟨⟨name, text⟩ :: before, given, after, congrArg _ hkept,
              fresh_cons_iff.mpr ⟨hname, hseen, hfresh⟩, clashes_cons_iff.mp hclash⟩
          · cases h
        · rintro ⟨before, given, after, hkept, hfresh, hclash⟩
          cases before with
          | nil =>
            obtain ⟨rfl, -⟩ := List.cons.inj hkept
            exact absurd ⟨hname, hseen⟩ hclash.not_fresh
          | cons first before =>
            obtain ⟨rfl, hrest⟩ := List.cons.inj hkept
            obtain ⟨-, -, hfresh⟩ := fresh_cons_iff.mp hfresh
            exact .inl (ih.mpr ⟨before, given, after, hrest, hfresh, clashes_cons_iff.mpr hclash⟩)

end AttributeInput

/-- Why a node that is no fragment may not stand directly in an element. What markup rendered before
has at its top level is looked at in order, its text last. -/
inductive Schema.Refuses (schema : Schema) (info : TagInfo) : Node → Rejection → Prop where
  | element {e : Element} {why : Rejection} :
      schema.checkChild info.tagName e.tag = .error why → Refuses schema info (.element e) why
  | text {value : String} {why : Rejection} :
      schema.checkText info.tagName value = .error why → Refuses schema info (.text value) why
  | name {markup : Rendered} {before after : List String} {name : String} {why : Rejection} :
      markup.tagNames = before ++ name :: after →
      (∀ other ∈ before, schema.checkChild info.tagName other = .ok ()) →
      schema.checkChild info.tagName name = .error why → Refuses schema info (.rendered markup) why
  | renderedText {markup : Rendered} :
      (∀ name ∈ markup.tagNames, schema.checkChild info.tagName name = .ok ()) →
      markup.hasText → ¬ info.allowsText →
      Refuses schema info (.rendered markup) (schema.refuseChild info.tagName textChild)

namespace World

theorem atChild_eq_error_iff {index : Nat} {outcome : Except Rejection Unit} {f : Failure} :
    atChild index outcome = .error f ↔
      ∃ why, outcome = .error why ∧ f = .rejected why (some index) :=
  mapError_eq_error_iff

theorem checkRendered_eq_error_iff {schema : Schema} {info : TagInfo} {markup : Rendered}
    {why : Rejection} :
    checkRendered schema info markup = .error why ↔ schema.Refuses info (.rendered markup) why := by
  unfold checkRendered
  rw [bind_eq_error_iff, forM_eq_error_iff]
  constructor
  · rintro (⟨before, name, after, hnames, hbefore, hname⟩ | ⟨_, hnames, htext⟩)
    · exact .name hnames hbefore hname
    · split at htext
      next h =>
        obtain rfl := Except.error.inj htext
        rw [Bool.and_eq_true, Bool.not_eq_true'] at h
        exact .renderedText (forM_eq_ok_iff.mp hnames) h.1 (by simp [h.2])
      next => cases htext
  · rintro (_ | _ | ⟨hnames, hbefore, hname⟩ | ⟨hnames, hhas, hallows⟩)
    · exact .inl ⟨_, _, _, hnames, hbefore, hname⟩
    · right
      refine ⟨(), forM_eq_ok_iff.mpr hnames, ?_⟩
      simp only [hhas, hallows]
      rfl

section
variable (w : World) (a : ArenaId) (info : TagInfo)

/-- A handle may stand in an element: it names something that the element's rules tolerate or a
fragment whose members may all stand there. -/
inductive Fits : Handle → Prop where
  | flat {h : Handle} {node : Node} : w.resolve a h = .ok node →
      (∀ children, node ≠ .fragment children) →
      (w.arena a).options.schema.Tolerates info node → Fits h
  | fragment {h : Handle} {children : List Handle} : w.resolve a h = .ok (.fragment children) →
      (∀ child ∈ children, Fits child) → Fits h

/-- What is in the way of a handle among the children of an element, at an index. In a fragment it
is what is in the way of the first member that does not fit, and the index is that of the
fragment. -/
inductive Hinders (index : Nat) : Handle → Failure → Prop where
  | unresolved {h : Handle} {f : Failure} : w.resolve a h = .error f → Hinders index h f
  | refused {h : Handle} {node : Node} {why : Rejection} : w.resolve a h = .ok node →
      (w.arena a).options.schema.Refuses info node why →
      Hinders index h (.rejected why (some index))
  | within {h child : Handle} {before after : List Handle} {f : Failure} :
      w.resolve a h = .ok (.fragment (before ++ child :: after)) →
      (∀ other ∈ before, Fits w a info other) → Hinders index child f → Hinders index h f

/-- The same for a part. -/
def FitsPart : Part → Prop
  | .text value => (w.arena a).options.schema.checkText info.tagName value = .ok ()
  | .node h => w.Fits a info h

inductive HindersPart (index : Nat) : Part → Failure → Prop where
  | text {value : String} {why : Rejection} :
      (w.arena a).options.schema.checkText info.tagName value = .error why →
      HindersPart index (.text value) (.rejected why (some index))
  | node {h : Handle} {f : Failure} : w.Hinders a info index h f → HindersPart index (.node h) f

end

section
variable {w : World} {a : ArenaId} {info : TagInfo} {index : Nat} {h : Handle}

theorem fits_flat_iff {node : Node} (hr : w.resolve a h = .ok node)
    (hflat : ∀ children, node ≠ .fragment children) :
    w.Fits a info h ↔ (w.arena a).options.schema.Tolerates info node := by
  constructor
  · intro hfits
    cases hfits with
    | flat hr' _ htolerates => exact resolve_unique hr hr' ▸ htolerates
    | fragment hr' _ => exact absurd (resolve_unique hr hr') (hflat _)
  · exact .flat hr hflat

theorem fits_fragment_iff {children : List Handle} (hr : w.resolve a h = .ok (.fragment children)) :
    w.Fits a info h ↔ ∀ child ∈ children, w.Fits a info child := by
  constructor
  · intro hfits
    cases hfits with
    | flat hr' hflat _ => exact absurd (resolve_unique hr' hr) (hflat children)
    | fragment hr' hall =>
      obtain rfl := Node.fragment.inj (resolve_unique hr hr')
      exact hall
  · exact .fragment hr

theorem hinders_flat_iff {node : Node} (hr : w.resolve a h = .ok node)
    (hflat : ∀ children, node ≠ .fragment children) {f : Failure} :
    w.Hinders a info index h f ↔
      ∃ why, (w.arena a).options.schema.Refuses info node why ∧ f = .rejected why (some index) := by
  constructor
  · intro hhinders
    cases hhinders with
    | unresolved hr' =>
      rw [hr] at hr'
      cases hr'
    | refused hr' hrefuses => exact ⟨_, resolve_unique hr' hr ▸ hrefuses, rfl⟩
    | within hr' _ _ => exact absurd (resolve_unique hr hr') (hflat _)
  · rintro ⟨why, hrefuses, rfl⟩
    exact .refused hr hrefuses

theorem hinders_fragment_iff {children : List Handle}
    (hr : w.resolve a h = .ok (.fragment children)) {f : Failure} :
    w.Hinders a info index h f ↔ ∃ before child after, children = before ++ child :: after ∧
      (∀ other ∈ before, w.Fits a info other) ∧ w.Hinders a info index child f := by
  constructor
  · intro hhinders
    cases hhinders with
    | unresolved hr' =>
      rw [hr] at hr'
      cases hr'
    | refused hr' hrefuses =>
      obtain rfl := resolve_unique hr hr'
      cases hrefuses
    | within hr' hbefore hchild =>
      exact ⟨_, _, _, Node.fragment.inj (resolve_unique hr hr'), hbefore, hchild⟩
  · rintro ⟨before, child, after, rfl, hbefore, hchild⟩
    exact .within hr hbefore hchild

/-- The check of a node that is no fragment. -/
theorem checkMember_flat {node : Node} (hflat : ∀ children, node ≠ .fragment children)
    (fuel : Nat) :
    (w.checkMember a info index (fuel + 1) node = .ok () ↔
      (w.arena a).options.schema.Tolerates info node) ∧
    ∀ f, w.checkMember a info index (fuel + 1) node = .error f ↔
      ∃ why, (w.arena a).options.schema.Refuses info node why ∧
        f = .rejected why (some index) := by
  cases node with
  | element e =>
    refine ⟨atChild_eq_ok_iff, fun f => atChild_eq_error_iff.trans ?_⟩
    exact exists_congr fun why => and_congr_left fun _ => ⟨.element, fun (.element h) => h⟩
  | text value =>
    refine ⟨atChild_eq_ok_iff, fun f => atChild_eq_error_iff.trans ?_⟩
    exact exists_congr fun why => and_congr_left fun _ => ⟨.text, fun (.text h) => h⟩
  | rendered markup =>
    refine ⟨atChild_eq_ok_iff.trans checkRendered_eq_ok_iff, fun f => atChild_eq_error_iff.trans ?_⟩
    exact exists_congr fun why => and_congr_left fun _ => checkRendered_eq_error_iff
  | fragment children => exact absurd rfl (hflat children)

/-- The check of what a handle names finds out whether it fits and, if not, what is in its way. -/
theorem checkMember_of_rank (info : TagInfo) (index : Nat) {rank : Handle → Nat}
    (hrank : ∀ child h, w.Under child h → rank child < rank h) {fuel : Nat}
    (hfuel : rank h < fuel) :
    ((w.resolve a h >>= w.checkMember a info index fuel) = .ok () ↔ w.Fits a info h) ∧
    ∀ f, (w.resolve a h >>= w.checkMember a info index fuel) = .error f ↔
      w.Hinders a info index h f := by
  induction fuel generalizing h with
  | zero => cases hfuel
  | succ fuel ih =>
    cases hr : w.resolve a h with
    | error f =>
      constructor
      · constructor
        · intro hok
          cases hok
        · rintro (⟨hr', _⟩ | ⟨hr', _⟩) <;> simp [hr] at hr'
      · intro f'
        constructor
        · intro hf
          obtain rfl := Except.error.inj hf
          exact .unresolved hr
        · rintro (hr' | ⟨hr', _⟩ | ⟨hr', _, _⟩) <;> rw [hr] at hr'
          · obtain rfl := Except.error.inj hr'
            rfl
          · cases hr'
          · cases hr'
    | ok node =>
      by_cases hflat : ∀ children, node ≠ .fragment children
      · rw [fits_flat_iff hr hflat]
        simp only [hinders_flat_iff hr hflat]
        exact checkMember_flat hflat fuel
      · push Not at hflat
        obtain ⟨children, rfl⟩ := hflat
        have hall : ∀ child ∈ children, _ := fun child hchild =>
          ih (rank_child_lt hrank hr hchild hfuel)
        constructor
        · rw [fits_fragment_iff hr]
          refine forM_eq_ok_iff.trans ?_
          exact forall₂_congr fun child hchild => (hall child hchild).1
        · intro f
          rw [hinders_fragment_iff hr]
          refine forM_eq_error_iff.trans ?_
          refine exists₃_congr fun before child after => and_congr_right fun hsplit => ?_
          subst hsplit
          refine and_congr (forall₂_congr fun other hother => (hall other ?_).1)
            ((hall child ?_).2 f)
          · exact List.mem_append_left _ hother
          · simp

end

section
variable {w : World} {a : ArenaId} (hw : w.Ordered)
include hw

theorem Ordered.checkPart_iff (info : TagInfo) (index : Nat) (part : Part) :
    (w.checkPart a info index part = .ok () ↔ w.FitsPart a info part) ∧
    ∀ f, w.checkPart a info index part = .error f ↔ w.HindersPart a info index part f := by
  cases part with
  | text value =>
    refine ⟨atChild_eq_ok_iff, fun f => atChild_eq_error_iff.trans ?_⟩
    constructor
    · rintro ⟨why, hwhy, rfl⟩
      exact .text hwhy
    · rintro (hwhy | _)
      exact ⟨_, hwhy, rfl⟩
  | node h =>
    obtain ⟨rank, hrank, hbound⟩ := hw.exists_rank_lt
    obtain ⟨hok, herror⟩ := checkMember_of_rank (a := a) info index hrank (hbound h)
    refine ⟨hok, fun f => (herror f).trans ?_⟩
    constructor
    · exact .node
    · rintro (_ | hhinders)
      exact hhinders

theorem Ordered.checkParts_eq_ok_iff {info : TagInfo} {index : Nat} {parts : List Part} :
    w.checkParts a info index parts = .ok () ↔ ∀ part ∈ parts, w.FitsPart a info part := by
  induction parts generalizing index with
  | nil => simp [checkParts]
  | cons part rest ih =>
    rw [checkParts, bind_eq_ok_iff, List.forall_mem_cons, ← (hw.checkPart_iff info index part).1]
    constructor
    · rintro ⟨_, hpart, hrest⟩
      exact ⟨hpart, ih.mp hrest⟩
    · rintro ⟨hpart, hrest⟩
      exact ⟨(), hpart, ih.mpr hrest⟩

/-- Parts are refused for the first of them that does not fit, and its position is what counts. -/
theorem Ordered.checkParts_eq_error_iff {info : TagInfo} {index : Nat} {parts : List Part}
    {f : Failure} :
    w.checkParts a info index parts = .error f ↔ ∃ before part after,
      parts = before ++ part :: after ∧ (∀ other ∈ before, w.FitsPart a info other) ∧
        w.HindersPart a info (index + before.length) part f := by
  induction parts generalizing index with
  | nil =>
    constructor
    · intro h
      cases h
    · rintro ⟨before, part, after, h, -⟩
      simp at h
  | cons first rest ih =>
    obtain ⟨hok, herror⟩ := hw.checkPart_iff (a := a) info index first
    rw [checkParts, bind_eq_error_iff, herror, ih]
    constructor
    · rintro (hfirst | ⟨_, hfirst, before, part, after, rfl, hbefore, hpart⟩)
      · exact ⟨[], first, rest, rfl, by simp, hfirst⟩
      · refine ⟨first :: before, part, after, rfl, ?_, ?_⟩
        · exact List.forall_mem_cons.mpr ⟨hok.mp hfirst, hbefore⟩
        · rwa [List.length_cons, Nat.add_comm before.length 1, ← Nat.add_assoc]
    · rintro ⟨before, part, after, hsplit, hbefore, hpart⟩
      cases before with
      | nil =>
        obtain ⟨rfl, rfl⟩ := List.cons.inj hsplit
        exact .inl hpart
      | cons other before =>
        obtain ⟨rfl, rfl⟩ := List.cons.inj hsplit
        obtain ⟨hfirst, hbefore⟩ := List.forall_mem_cons.mp hbefore
        rw [List.length_cons, Nat.add_comm before.length 1, ← Nat.add_assoc] at hpart
        exact .inr ⟨(), hok.mpr hfirst, before, part, after, rfl, hbefore, hpart⟩

end

/-- What stands in the way of an element, the first of all that does: its tag is not known, an
attribute clashes with those before it or, where there is validation, an attribute is not accepted
or a part may not stand in the element. -/
inductive Bars (w : World) (a : ArenaId) (tag : String) (input : AttributeInput)
    (parts : List Part) : Failure → Prop where
  | unknown : (w.arena a).options.schema.find? tag = none →
      Bars w a tag input parts (.rejected (.unknownTag tag) none)
  | clash {info : TagInfo} {before after : List Attribute} {given : Attribute} {why : Rejection} :
      (w.arena a).options.schema.find? tag = some info →
      AttributeInput.kept input.pairs = before ++ given :: after →
      AttributeInput.Fresh [] before →
      AttributeInput.Clashes tag (before.map Attribute.name) given why →
      Bars w a tag input parts (.rejected why none)
  | unaccepted {info : TagInfo} {before after : List Attribute} {given : Attribute}
      {why : Rejection} :
      (w.arena a).options.validate → (w.arena a).options.schema.find? tag = some info →
      AttributeInput.Fresh [] (AttributeInput.kept input.pairs) →
      AttributeInput.kept input.pairs = before ++ given :: after →
      (∀ other ∈ before, (w.arena a).options.schema.checkAttribute tag other.name = .ok ()) →
      (w.arena a).options.schema.checkAttribute tag given.name = .error why →
      Bars w a tag input parts (.rejected why none)
  | unfit {info : TagInfo} {before after : List Part} {part : Part} {f : Failure} :
      (w.arena a).options.validate → (w.arena a).options.schema.find? tag = some info →
      AttributeInput.Fresh [] (AttributeInput.kept input.pairs) →
      (∀ given ∈ AttributeInput.kept input.pairs,
        (w.arena a).options.schema.checkAttribute tag given.name = .ok ()) →
      parts = before ++ part :: after → (∀ other ∈ before, w.FitsPart a info other) →
      w.HindersPart a info before.length part f → Bars w a tag input parts f

theorem checkAttributes_eq_ok_iff {schema : Schema} {tag : String} {attributes : List Attribute} :
    checkAttributes schema tag attributes = .ok () ↔
      ∀ given ∈ attributes, schema.checkAttribute tag given.name = .ok () :=
  forM_eq_ok_iff.trans (forall₂_congr fun _ _ => mapError_eq_ok_iff)

theorem checkAttributes_eq_error_iff {schema : Schema} {tag : String}
    {attributes : List Attribute} {f : Failure} :
    checkAttributes schema tag attributes = .error f ↔ ∃ before given after,
      attributes = before ++ given :: after ∧
        (∀ other ∈ before, schema.checkAttribute tag other.name = .ok ()) ∧
        ∃ why, schema.checkAttribute tag given.name = .error why ∧ f = .rejected why none := by
  refine forM_eq_error_iff.trans ?_
  refine exists₃_congr fun before given after => and_congr_right fun _ => ?_
  exact and_congr (forall₂_congr fun _ _ => mapError_eq_ok_iff) mapError_eq_error_iff

theorem lookup_eq_error_iff {schema : Schema} {tag : String} {why : Rejection} :
    schema.lookup tag = .error why ↔ schema.find? tag = none ∧ why = .unknownTag tag := by
  unfold Schema.lookup
  cases schema.find? tag <;> simp [eq_comm]

theorem normalize_eq_ok_iff {tag : String} {input : AttributeInput} {given : List Attribute} :
    input.normalize tag = .ok given ↔ given = AttributeInput.kept input.pairs ∧
      AttributeInput.Fresh [] (AttributeInput.kept input.pairs) :=
  AttributeInput.keep_eq_ok_iff

theorem normalize_eq_error_iff {tag : String} {input : AttributeInput} {why : Rejection} :
    input.normalize tag = .error why ↔ ∃ before given after,
      AttributeInput.kept input.pairs = before ++ given :: after ∧
        AttributeInput.Fresh [] before ∧
        AttributeInput.Clashes tag (before.map Attribute.name) given why := by
  refine AttributeInput.keep_eq_error_iff.trans ?_
  simp only [List.append_nil]

section
variable {w : World} {a : ArenaId} {tag : String} {input : AttributeInput} {parts : List Part}

theorem accept_of_unknown (hnone : (w.arena a).options.schema.find? tag = none) :
    w.accept a tag input parts = .error (.rejected (.unknownTag tag) none) := by
  unfold accept
  dsimp only
  rw [lookup_eq_error_iff.mpr ⟨hnone, rfl⟩]
  rfl

theorem accept_of_clash {info : TagInfo} {why : Rejection}
    (hinfo : (w.arena a).options.schema.find? tag = some info)
    (hclash : input.normalize tag = .error why) :
    w.accept a tag input parts = .error (.rejected why none) := by
  unfold accept
  dsimp only
  rw [Schema.lookup_eq_ok_iff.mpr hinfo, hclash]
  rfl

/-- What is left to check when the tag is known and the attributes are kept. -/
theorem accept_of_kept {info : TagInfo} {given : List Attribute}
    (hinfo : (w.arena a).options.schema.find? tag = some info)
    (hgiven : input.normalize tag = .ok given) :
    w.accept a tag input parts =
      if (w.arena a).options.validate then do
        checkAttributes (w.arena a).options.schema tag given
        w.checkParts a info 0 parts
        return (info, given)
      else .ok (info, given) := by
  unfold accept
  dsimp only
  rw [Schema.lookup_eq_ok_iff.mpr hinfo, hgiven]
  rfl

theorem accept_eq_ok_iff {info : TagInfo} {given : List Attribute} :
    w.accept a tag input parts = .ok (info, given) ↔
      (w.arena a).options.schema.find? tag = some info ∧ input.normalize tag = .ok given ∧
        ((w.arena a).options.validate →
          checkAttributes (w.arena a).options.schema tag given = .ok () ∧
          w.checkParts a info 0 parts = .ok ()) := by
  constructor
  · exact accept_ok
  · rintro ⟨hinfo, hgiven, hchecks⟩
    rw [accept_of_kept hinfo hgiven]
    split
    next hvalidate =>
      obtain ⟨hattributes, hparts⟩ := hchecks hvalidate
      rw [hattributes, hparts]
      rfl
    next => rfl

/-- An element is refused for what bars it. -/
theorem Ordered.accept_eq_error_iff (hw : w.Ordered) {f : Failure} :
    w.accept a tag input parts = .error f ↔ w.Bars a tag input parts f := by
  constructor
  · intro h
    cases hfind : (w.arena a).options.schema.find? tag with
    | none =>
      rw [accept_of_unknown hfind] at h
      obtain rfl := Except.error.inj h
      exact .unknown hfind
    | some info =>
    cases hnormalize : input.normalize tag with
    | error why =>
      rw [accept_of_clash hfind hnormalize] at h
      obtain rfl := Except.error.inj h
      obtain ⟨before, given, after, hkept, hfresh, hclash⟩ := normalize_eq_error_iff.mp hnormalize
      exact .clash hfind hkept hfresh hclash
    | ok given =>
      rw [accept_of_kept hfind hnormalize] at h
      obtain ⟨rfl, hfresh⟩ := normalize_eq_ok_iff.mp hnormalize
      split at h
      next hvalidate =>
        rcases bind_eq_error_iff.mp h with hattributes | ⟨_, hattributes, h⟩
        · obtain ⟨before, given, after, hkept, hbefore, why, hwhy, rfl⟩ :=
            checkAttributes_eq_error_iff.mp hattributes
          exact .unaccepted hvalidate hfind hfresh hkept hbefore hwhy
        rcases bind_eq_error_iff.mp h with hparts | ⟨_, _, h⟩
        · obtain ⟨before, part, after, hsplit, hbefore, hpart⟩ :=
            hw.checkParts_eq_error_iff.mp hparts
          rw [Nat.zero_add] at hpart
          exact .unfit hvalidate hfind hfresh (checkAttributes_eq_ok_iff.mp hattributes) hsplit
            hbefore hpart
        · cases h
      next => cases h
  · intro h
    cases h with
    | unknown hnone => exact accept_of_unknown hnone
    | clash hinfo hkept hfresh hclash =>
      exact accept_of_clash hinfo (normalize_eq_error_iff.mpr ⟨_, _, _, hkept, hfresh, hclash⟩)
    | unaccepted hvalidate hinfo hfresh hkept hbefore hwhy =>
      rw [accept_of_kept hinfo (normalize_eq_ok_iff.mpr ⟨rfl, hfresh⟩), if_pos hvalidate,
        checkAttributes_eq_error_iff.mpr ⟨_, _, _, hkept, hbefore, _, hwhy, rfl⟩]
      rfl
    | unfit hvalidate hinfo hfresh hattributes hsplit hbefore hpart =>
      rw [← Nat.zero_add (List.length _)] at hpart
      rw [accept_of_kept hinfo (normalize_eq_ok_iff.mpr ⟨rfl, hfresh⟩), if_pos hvalidate,
        checkAttributes_eq_ok_iff.mpr hattributes,
        hw.checkParts_eq_error_iff.mpr ⟨_, _, _, hsplit, hbefore, hpart⟩]
      rfl

end

end World

/-- Nothing is done for an element that is barred. -/
theorem Build.perform_element_of_bars {w : World} {a : ArenaId} (hw : w.Ordered) (site : CallSite)
    {tag : String} {input : AttributeInput} {children : List Child} {f : Failure}
    (hbars : w.Bars a tag input (Child.listParts children) f) :
    perform (element a site tag input children) w = (.error f, w) := by
  rw [perform_element, perform_elementAt, hw.accept_eq_error_iff.mpr hbars]

/-- Without a budget a node is stored above parts if all nodes among them resolve. -/
theorem Build.storeOver_of_unlimited {w : World} {a : ArenaId} (ha : w.Opened a)
    (hlimit : (w.arena a).options.maxNodes = none) {parts : List Part}
    {above : List Handle → Node} (habove : ∀ handles, (above handles).children = handles)
    (hresolves : ∀ h, .node h ∈ parts → ∃ n, w.resolve a h = .ok n) :
    perform (do
      let handles ← parts.mapM (store a)
      allocate a (above handles)) w =
      (.ok (a.handle (w.arena a).generation ((w.arena a).size + (Part.texts parts).length)),
        w.append a ((Part.texts parts).map Node.text ++
          [above (Part.handlesFrom a (w.arena a).generation (w.arena a).size parts)])) := by
  obtain ⟨handles, w', hparts⟩ := storeAll_of_unlimited ha hlimit parts
  obtain ⟨hgrow, hplaced⟩ := yields_storeAll ha parts w w' handles (.refl w) hparts
  have hall : ∀ child ∈ (above handles).children, ∃ n, w'.resolve a child = .ok n := by
    rw [habove]
    apply resolves_of_placed (hplaced w' (.refl w'))
    intro h hpart
    obtain ⟨n, hn⟩ := hresolves h hpart
    exact ⟨n, World.resolve_grow hgrow hn⟩
  have hroom : (w'.arena a).exceededLimit? = none := by
    rw [Arena.exceededLimit?, hgrow.unlimited ha hlimit]
    rfl
  have hrun : perform (do
      let handles ← parts.mapM (store a)
      allocate a (above handles)) w =
      (.ok ((w'.store a (above handles)).lastHandle a), w'.store a (above handles)) := by
    rw [perform_bind, hparts]
    exact allocate_of_resolves hroom hall
  obtain ⟨hhandle, hworld⟩ := storeOver_ok ha hrun
  rw [hrun, hhandle, hworld]

/-- In an arena that validates and has no budget, an element fails with the first thing that bars
it, and if nothing does, its texts are stored in order and then the element, with the parts for
children, each text under the handle it has got. -/
theorem World.element_unless_barred {w : World} {a : ArenaId} (hw : w.Reachable) (ha : w.Opened a)
    (hvalidate : (w.arena a).options.validate = true)
    (htrace : (w.arena a).options.traceConstruction = false)
    (hlimit : (w.arena a).options.maxNodes = none) (site : CallSite) (tag : String)
    (input : AttributeInput) (children : List Child) :
    ∃ parts, Child.Flattens children parts ∧
      (∀ f, w.Bars a tag input parts f →
        perform (Build.element a site tag input children) w = (.error f, w)) ∧
      ((∀ f, ¬ w.Bars a tag input parts f) →
        ∃ info, (w.arena a).options.schema.find? tag = some info ∧
          perform (Build.element a site tag input children) w =
            (.ok (a.handle (w.arena a).generation
                ((w.arena a).size + (Part.texts parts).length)),
              w.append a ((Part.texts parts).map Node.text ++
                [.element ⟨info, AttributeInput.kept input.pairs,
                  Part.handlesFrom a (w.arena a).generation (w.arena a).size parts⟩]))) := by
  refine ⟨Child.listParts children, Child.flattens_iff.mpr rfl, ?_, ?_⟩
  · intro f hbars
    exact Build.perform_element_of_bars hw.ordered site hbars
  · intro hfree
    cases haccept : w.accept a tag input (Child.listParts children) with
    | error f => exact absurd (hw.ordered.accept_eq_error_iff.mp haccept) (hfree f)
    | ok accepted =>
      obtain ⟨info, given⟩ := accepted
      obtain ⟨hinfo, hgiven, -⟩ := accept_ok haccept
      obtain ⟨rfl, -⟩ := normalize_eq_ok_iff.mp hgiven
      refine ⟨info, hinfo, ?_⟩
      rw [Build.perform_element, htrace, Build.perform_elementAt, haccept]
      apply Build.storeOver_of_unlimited ha hlimit fun _ => rfl
      intro h hpart
      exact resolves_of_accept haccept hvalidate hpart

/-- A paragraph around what is there and what is new, and one that a paragraph among its parts
bars. -/
theorem element_unless_barred_of_besideParagraph :
    (besideParagraph prose).Reachable ∧ (besideParagraph prose).Opened ⟨0⟩ ∧
    ((besideParagraph prose).arena ⟨0⟩).options = { schema := prose } ∧
    perform (Build.element ⟨0⟩ ⟨[], []⟩ "p" .empty
        [.text "a", .many [.omitted, .node (ArenaId.handle ⟨0⟩ 0 0), .text "b"]])
        (besideParagraph prose) =
      (.ok (ArenaId.handle ⟨0⟩ 0 4),
        (besideParagraph prose).append ⟨0⟩ [.text "a", .text "b", .element ⟨paragraph, [],
          [ArenaId.handle ⟨0⟩ 0 2, ArenaId.handle ⟨0⟩ 0 0, ArenaId.handle ⟨0⟩ 0 3]⟩]) ∧
    perform (Build.element ⟨0⟩ ⟨[], []⟩ "p" .empty
        [.text "a", .many [.omitted, .node (ArenaId.handle ⟨0⟩ 0 1)]]) (besideParagraph prose) =
      (.error (.rejected (prose.refuseChild "p" "p") (some 1)), besideParagraph prose) := by
  have hw := reachable_besideParagraph prose
  have hopened : (besideParagraph prose).Opened ⟨0⟩ := Nat.zero_lt_two
  have hline : (besideParagraph prose).resolve ⟨0⟩ (ArenaId.handle ⟨0⟩ 0 0) = .ok (.text "line") :=
    World.Holds.resolve ⟨0, 0, rfl, rfl⟩
  have hparagraph : (besideParagraph prose).resolve ⟨0⟩ (ArenaId.handle ⟨0⟩ 0 1) =
      .ok (.element writtenParagraph) := World.Holds.resolve ⟨1, 0, rfl, rfl⟩
  have hfresh : AttributeInput.Fresh [] (AttributeInput.kept AttributeInput.empty.pairs) :=
    AttributeInput.fresh_nil []
  refine ⟨hw, hopened, rfl, ?_, ?_⟩
  · obtain ⟨parts, hparts, -, hmade⟩ := World.element_unless_barred hw hopened rfl rfl rfl ⟨[], []⟩
      "p" .empty [.text "a", .many [.omitted, .node (ArenaId.handle ⟨0⟩ 0 0), .text "b"]]
    obtain rfl := Child.flattens_iff.mp hparts
    have hchecked : (besideParagraph prose).checkParts ⟨0⟩ paragraph 0
        [.text "a", .node (ArenaId.handle ⟨0⟩ 0 0), .text "b"] = .ok () := by
      rw [hw.ordered.checkParts_eq_ok_iff]
      simp only [List.forall_mem_cons]
      exact ⟨rfl, .flat hline nofun rfl, rfl, List.forall_mem_nil _⟩
    have haccept : (besideParagraph prose).accept ⟨0⟩ "p" .empty
        [.text "a", .node (ArenaId.handle ⟨0⟩ 0 0), .text "b"] =
        ((besideParagraph prose).checkParts ⟨0⟩ paragraph 0
          [.text "a", .node (ArenaId.handle ⟨0⟩ 0 0), .text "b"] >>= fun _ =>
            .ok (paragraph, [])) :=
      rfl
    rw [hchecked] at haccept
    obtain ⟨info, hinfo, hrun⟩ := hmade fun f hbars => by
      rw [← hw.ordered.accept_eq_error_iff] at hbars
      cases haccept.symm.trans hbars
    obtain rfl : paragraph = info := Option.some.inj hinfo
    exact hrun
  · obtain ⟨parts, hparts, hbarred, -⟩ := World.element_unless_barred hw hopened rfl rfl rfl
      ⟨[], []⟩ "p" .empty [.text "a", .many [.omitted, .node (ArenaId.handle ⟨0⟩ 0 1)]]
    obtain rfl := Child.flattens_iff.mp hparts
    have hsplit : [Part.text "a", .node (ArenaId.handle ⟨0⟩ 0 1)] =
        [.text "a"] ++ .node (ArenaId.handle ⟨0⟩ 0 1) :: [] := rfl
    exact hbarred _ (.unfit rfl rfl hfresh (List.forall_mem_nil _) hsplit
      (List.forall_mem_singleton.mpr rfl) (.node (.refused hparagraph (.element rfl))))

end MarkupArena
