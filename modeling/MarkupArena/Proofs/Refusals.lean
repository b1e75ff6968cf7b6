import MarkupArena.Proofs.Obstacles
import MarkupArena.Proofs.Persistence

/-! What is left of work that fails to make a node. A refusal leaves nothing at all; what was found
out only while nodes were stored leaves some of the texts. -/
namespace MarkupArena

namespace World

/-- Only the schema and handles that do not resolve are in the way of a handle. -/
theorem Hinders.cause {w : World} {a : ArenaId} {info : TagInfo} {index : Nat} {h : Handle}
    {f : Failure} (hhinders : w.Hinders a info index h f) :
    (∃ why, f = .rejected why (some index)) ∨ ∃ fault g b, f = .invalidHandle fault g b := by
  induction hhinders with
  | unresolved hr =>
    obtain ⟨fault, b, rfl⟩ := resolve_eq_error hr
    exact .inr ⟨fault, _, b, rfl⟩
  | refused _ _ => exact .inl ⟨_, rfl⟩
  | within _ _ _ ih => exact ih

theorem Bars.cause {w : World} {a : ArenaId} {tag : String} {input : AttributeInput}
    {parts : List Part} {f : Failure} (hbars : w.Bars a tag input parts f) :
    (∃ why index, f = .rejected why index) ∨ ∃ fault g b, f = .invalidHandle fault g b := by
  cases hbars with
  | unknown _ => exact .inl ⟨_, none, rfl⟩
  | clash _ _ _ _ => exact .inl ⟨_, none, rfl⟩
  | unaccepted _ _ _ _ _ _ => exact .inl ⟨_, none, rfl⟩
  | unfit _ _ _ _ _ _ hpart =>
    cases hpart with
    | text _ => exact .inl ⟨_, some _, rfl⟩
    | node hhinders => exact hhinders.cause.imp_left fun ⟨why, hf⟩ => ⟨why, some _, hf⟩

/-- No more than some of the texts among parts, the first ones, were added to the nodes there
are. -/
def TextsLeft (w : World) (a : ArenaId) (parts : List Part) (w' : World) : Prop :=
  ∃ texts, texts <+: Part.texts parts ∧ w'.arenas = (w.append a (texts.map Node.text)).arenas

theorem textsLeft_self (w : World) (a : ArenaId) (parts : List Part) : w.TextsLeft a parts w := by
  refine ⟨[], List.nil_prefix, ?_⟩
  rw [List.map_nil, append_nil]

end World

/-- What is left of an element that was not made from parts. -/
structure Build.Unmade (w : World) (a : ArenaId) (parts : List Part) (f : Failure) (w' : World) :
    Prop where
  cause : (∃ why index, f = .rejected why index) ∨ (∃ fault h b, f = .invalidHandle fault h b) ∨
    ∃ limit actual, f = .budgetExceeded limit actual
  rejected : ∀ why index, f = .rejected why index → w' = w
  invalid : (w.arena a).options.validate = true →
    ∀ fault h b, f = .invalidHandle fault h b → w' = w
  texts : w.TextsLeft a parts w'

namespace Build

variable {w w' : World} {a : ArenaId} {f : Failure}

/-- What the checks of an element find leaves no trace. -/
theorem unmade_of_bars {tag : String} {input : AttributeInput} {parts : List Part}
    (hbars : w.Bars a tag input parts f) : Unmade w a parts f w where
  cause := hbars.cause.imp_right .inl
  rejected _ _ _ := rfl
  invalid _ _ _ _ _ := rfl
  texts := w.textsLeft_self a parts

/-- After the checks there may be no room, or, where they were not made, a part that does not
resolve. -/
theorem unmade_of_place {site : Option CallSite} {tag : String} {input : AttributeInput}
    {parts : List Part} {info : TagInfo} {given attributes : List Attribute} (ha : w.Opened a)
    (haccept : w.accept a tag input parts = .ok (info, given))
    (hrun : perform (place a info attributes parts) (announce w a site tag given) =
      (.error f, w')) : Unmade w a parts f w' := by
  have hannounce := (growth_announce w a site tag given).grows
  obtain ⟨⟨texts, hprefix, rfl⟩, hcause⟩ :=
    storeOver_error (hannounce.opened a ha) (fun _ => rfl) hrun
  have hgrow := hannounce.trans ((announce w a site tag given).grows_append a (texts.map .text))
  have hleft : w.TextsLeft a parts ((announce w a site tag given).append a (texts.map .text)) := by
    refine ⟨texts, hprefix, ?_⟩
    unfold World.append World.modifyArena
    rw [arenas_announce]
  rcases hcause with ⟨limit, actual, rfl⟩ | ⟨h, hpart, hresolve⟩
  · constructor
    · exact .inr (.inr ⟨limit, actual, rfl⟩)
    · exact nofun
    · intro _ _ _ _ hf
      cases hf
    · exact hleft
  · obtain ⟨fault, b, rfl⟩ := World.resolve_eq_error hresolve
    constructor
    · exact .inr (.inl ⟨fault, h, b, rfl⟩)
    · exact nofun
    · intro hvalidate _ _ _ _
      -- All parts were seen to resolve, so none of them is what failed.
      obtain ⟨n, hn⟩ := World.resolves_of_accept haccept hvalidate hpart
      rw [World.resolve_grow hgrow hn] at hresolve
      cases hresolve
    · exact hleft

theorem unmade_of_elementAt (hw : w.Ordered) (ha : w.Opened a) {site : Option CallSite}
    {tag : String} {input : AttributeInput} {children : List Child}
    (hrun : perform (elementAt a site tag input children) w = (.error f, w')) :
    Unmade w a (Child.listParts children) f w' := by
  rw [perform_elementAt] at hrun
  cases haccept : w.accept a tag input (Child.listParts children) with
  | error f' =>
    rw [haccept] at hrun
    obtain ⟨hf, rfl⟩ := Prod.mk.inj hrun
    obtain rfl := Except.error.inj hf
    exact unmade_of_bars (hw.accept_eq_error_iff.mp haccept)
  | ok accepted =>
    rw [haccept] at hrun
    dsimp only at hrun
    exact unmade_of_place ha haccept hrun

theorem fragment_error (ha : w.Opened a) {children : List Child}
    (hrun : perform (fragment a children) w = (.error f, w')) :
    (∀ why index, f ≠ .rejected why index) ∧
      ∃ texts, texts <+: Part.texts (Child.listParts children) ∧
        w' = w.append a (texts.map Node.text) := by
  obtain ⟨hleft, hcause⟩ := storeOver_error ha (fun _ => rfl) hrun
  refine ⟨?_, hleft⟩
  rcases hcause with ⟨limit, actual, rfl⟩ | ⟨h, -, hresolve⟩
  · exact nofun
  · obtain ⟨fault, b, rfl⟩ := World.resolve_eq_error hresolve
    exact nofun

/-- Whatever is described, the refusal of it leaves no trace. -/
theorem realize_rejected (hw : w.Ordered) (ha : w.Opened a) {description : Description}
    {why : Rejection} {index : Option Nat}
    (hrun : perform (realize a description) w = (.error (.rejected why index), w')) : w' = w := by
  cases description with
  | element tag input child =>
    rw [realize] at hrun
    exact (unmade_of_elementAt hw ha hrun).rejected why index rfl
  | text value => exact allocate_error hrun
  | fragment child =>
    rw [realize] at hrun
    exact absurd rfl ((fragment_error ha hrun).1 why index)
  | rendered markup => exact allocate_error hrun

/-- A copy of an element is made, or nothing is. -/
theorem withChildren_error {e : Element} {children : List Handle}
    (hrun : perform (withChildren a e children) w = (.error f, w')) : w' = w := by
  rw [perform_withChildren] at hrun
  split at hrun
  · exact allocate_error hrun
  · exact (Prod.mk.inj hrun).2.symm

end Build

/-- Calls that are refused leave no trace. With validation this goes for handles that do not
resolve, too; and where a call fails otherwise, only texts are left, the first of those it was
given. -/
theorem World.refused_without_trace {w : World} {a : ArenaId} (hw : w.Reachable) (ha : w.Opened a) :
    (∀ site tag input children f w',
      perform (Build.element a site tag input children) w = (.error f, w') →
        Build.Unmade w a (Child.listParts children) f w') ∧
    (∀ tag input child f w',
      perform (Build.realize a (.element tag input child)) w = (.error f, w') →
        Build.Unmade w a child.parts f w') ∧
    (∀ description why index w',
      perform (Build.realize a description) w = (.error (.rejected why index), w') → w' = w) ∧
    (∀ e children f w',
      perform (Build.withChildren a e children) w = (.error f, w') → w' = w) ∧
    ∀ children f w', perform (Build.fragment a children) w = (.error f, w') →
      ∃ texts, texts <+: Part.texts (Child.listParts children) ∧
        w' = w.append a (texts.map Node.text) := by
  refine ⟨?_, ?_, ?_, ?_, ?_⟩
  · intro site tag input children f w' hrun
    rw [Build.perform_element] at hrun
    exact Build.unmade_of_elementAt hw.ordered ha hrun
  · intro tag input child f w' hrun
    rw [Build.realize] at hrun
    have hunmade := Build.unmade_of_elementAt hw.ordered ha hrun
    rwa [Child.listParts_singleton] at hunmade
  · intro description why index w' hrun
    exact Build.realize_rejected hw.ordered ha hrun
  · intro e children f w' hrun
    exact Build.withChildren_error hrun
  · intro children f w' hrun
    exact (Build.fragment_error ha hrun).2

/-- An arena for paragraphs that has room for two nodes. -/
def narrowPage : World :=
  { arenas := #[{ options := { schema := prose, maxNodes := some (Number.ofNat 2) }
                  listener := none }] }

/-- A paragraph for which there is no room leaves the texts before the last; one with a part that
does not resolve leaves nothing. -/
theorem refused_without_trace_of_narrowPage :
    narrowPage.Reachable ∧ narrowPage.Opened ⟨0⟩ ∧
    perform (Build.element ⟨0⟩ ⟨[], []⟩ "p" .empty [.text "a", .text "b", .text "c"]) narrowPage =
      (.error (.budgetExceeded (Number.ofNat 2) 3),
        narrowPage.append ⟨0⟩ [.text "a", .text "b"]) ∧
    narrowPage.TextsLeft ⟨0⟩ [.text "a", .text "b", .text "c"]
      (narrowPage.append ⟨0⟩ [.text "a", .text "b"]) ∧
    ∃ w', perform (Build.element ⟨0⟩ ⟨[], []⟩ "p" .empty [.text "a", .node madeUp]) narrowPage =
      (.error (.invalidHandle .foreignArena madeUp ⟨0⟩), w') ∧ w' = narrowPage := by
  have hw : narrowPage.Reachable := World.reachable_empty.call (.openArena _ none)
  have hopened : narrowPage.Opened ⟨0⟩ := Nat.zero_lt_one
  obtain ⟨helement, -⟩ := World.refused_without_trace hw hopened
  have hfull : perform (Build.element ⟨0⟩ ⟨[], []⟩ "p" .empty
      [.text "a", .text "b", .text "c"]) narrowPage =
      (.error (.budgetExceeded (Number.ofNat 2) 3),
        narrowPage.append ⟨0⟩ [.text "a", .text "b"]) := rfl
  have hsplit : [Part.text "a", .node madeUp] = [.text "a"] ++ .node madeUp :: [] := rfl
  have hbars : narrowPage.Bars ⟨0⟩ "p" .empty [.text "a", .node madeUp]
      (.invalidHandle .foreignArena madeUp ⟨0⟩) :=
    .unfit rfl rfl (AttributeInput.fresh_nil []) (List.forall_mem_nil _) hsplit
      (List.forall_mem_singleton.mpr rfl) (.node (.unresolved (resolve_madeUp _ _)))
  have hunresolved : perform (Build.element ⟨0⟩ ⟨[], []⟩ "p" .empty
      [.text "a", .node madeUp]) narrowPage =
      (.error (.invalidHandle .foreignArena madeUp ⟨0⟩), narrowPage) :=
    Build.perform_element_of_bars hw.ordered ⟨[], []⟩ hbars
  refine ⟨hw, hopened, hfull, (helement _ _ _ _ _ _ hfull).texts, _, hunresolved, ?_⟩
  exact (helement _ _ _ _ _ _ hunresolved).invalid rfl _ _ _ rfl

end MarkupArena
