import MarkupArena.Proofs.CallSites
import MarkupArena.Proofs.Dangling
import MarkupArena.Proofs.Ending

/-! What a graft does. The link is made first and the handle is looked up from the receiving arena,
so a graft succeeds for all that either arena could resolve, and one that fails leaves its link. -/
namespace MarkupArena

namespace World

variable {w : World} {a b source : ArenaId} {h : Handle} {node : Node}

/-- After a link, what is within reach was so before, or is within reach of the source. -/
theorem inReach_perform_link_iff (ha : w.Opened a) (source : ArenaId) :
    (perform (link a source) w).2.InReach a b ↔ w.InReach a b ∨ w.InReach source b := by
  obtain ⟨w', hlink, hgrow, hsource⟩ := perform_link_reaches ha source
  obtain rfl : (perform (link a source) w).2 = w' := congrArg Prod.snd hlink
  constructor
  · intro hreach
    -- A path that takes the new link goes on as one from the source.
    induction hreach with
    | refl => exact .inl .refl
    | tail _ hlink ih =>
      rcases hlink.of_perform_link with hlink | rfl
      · exact ih.imp (·.tail hlink) (·.tail hlink)
      · exact .inr .refl
  · rintro (hreach | hreach)
    · exact hreach.grow hgrow
    · exact hsource.trans (hreach.grow hgrow)

theorem resolve_perform_link_iff (ha : w.Opened a) (source : ArenaId) :
    (perform (link a source) w).2.resolve a h = .ok node ↔
      w.resolve a h = .ok node ∨ w.resolve source h = .ok node := by
  obtain ⟨w', hlink, hgrow, -⟩ := perform_link_reaches ha source
  obtain rfl : (perform (link a source) w).2 = w' := congrArg Prod.snd hlink
  simp only [resolve_eq_ok_iff, inReach_perform_link_iff ha source]
  constructor
  · rintro ⟨b, hreach, hold⟩
    exact hreach.imp (⟨b, ·, hold.of_perform_link⟩) (⟨b, ·, hold.of_perform_link⟩)
  · rintro (⟨b, hreach, hold⟩ | ⟨b, hreach, hold⟩)
    · exact ⟨b, .inl hreach, hold.grow hgrow⟩
    · exact ⟨b, .inr hreach, hold.grow hgrow⟩

/-- What is left of a world where an arena was linked to a source: the nodes and the generation of
every arena, and all of the other arenas. A link that is new is the last of the arena's links, and
the arena's listener is told of it; otherwise nothing changed. -/
structure LinkLeaves (w : World) (a source : ArenaId) (w' : World) : Prop where
  nodes : ∀ b, (w'.arena b).nodes = (w.arena b).nodes
  generation : ∀ b, (w'.arena b).generation = (w.arena b).generation
  others : ∀ b, b ≠ a → w'.arena b = w.arena b
  known : source = a ∨ w.LinkedTo a source → w' = w
  links : source ≠ a → ¬ w.LinkedTo a source →
    (w'.arena a).links = (w.arena a).links ++ [source]
  events : source ≠ a → ¬ w.LinkedTo a source →
    w'.events = w.events ++ if (w.arena a).listener.isSome then [.link a source] else []

theorem linkLeaves_self (hknown : source = a ∨ w.LinkedTo a source) : w.LinkLeaves a source w where
  nodes _ := rfl
  generation _ := rfl
  others _ _ := rfl
  known _ := rfl
  links hne hnew := absurd hknown (not_or.mpr ⟨hne, hnew⟩)
  events hne hnew := absurd hknown (not_or.mpr ⟨hne, hnew⟩)

theorem linkLeaves_perform_link (ha : w.Opened a) (source : ArenaId) :
    w.LinkLeaves a source (perform (link a source) w).2 := by
  rcases perform_link_cases w a source with ⟨hknown, hrun⟩ | ⟨hnew, hrun⟩
  · rw [hrun]
    exact linkLeaves_self hknown
  · have harena : ∀ b, (perform (link a source) w).2.arena b =
        if a = b ∧ w.Opened b then (w.arena b).addLink source else w.arena b := by
      intro b
      rw [hrun, arena_congr (arenas_tell ..), arena_modifyArena]
    constructor
    case nodes => exact nodes_of_perform_link w a source
    case generation =>
      intro b
      rw [harena]
      split <;> rfl
    case others =>
      intro b hb
      rw [harena, if_neg fun h => hb h.1.symm]
    case known => exact fun hknown => absurd hknown hnew
    case links =>
      intro _ _
      rw [harena, if_pos ⟨rfl, ha⟩]
      rfl
    case events =>
      intro _ _
      rw [hrun, events_tell]
      rfl

end World

theorem perform_graft (w : World) (a source : ArenaId) (h : Handle) :
    perform (graft a source h) w =
      match (perform (link a source) w).2.resolve a h with
      | .ok _ => (.ok h, (perform (link a source) w).2)
      | .error f => (.error f, (perform (link a source) w).2) := by
  unfold graft
  have hlink : perform (link a source) w = (.ok ⟨⟩, (perform (link a source) w).2) := rfl
  rw [perform_bind, hlink]
  simp only [perform_bind, resolve, perform_observe]
  cases (perform (link a source) w).2.resolve a h <;> rfl

/-- What a graft comes to. It succeeds exactly if the handle resolved from the source or from the
receiving arena itself, and it fails with a fault of the handle. Either way the receiving arena
resolves from then on what it resolved before and what the source resolves, and the link stays. -/
theorem World.graft_outcome {w : World} {a : ArenaId} (ha : w.Opened a) (source : ArenaId)
    (h : Handle) : ∃ outcome w', perform (graft a source h) w = (outcome, w') ∧
      (outcome = .ok h ↔
        (∃ node, w.resolve source h = .ok node) ∨ ∃ node, w.resolve a h = .ok node) ∧
      (outcome ≠ .ok h → ∃ fault b, outcome = .error (.invalidHandle fault h b)) ∧
      (∀ g node, w'.resolve a g = .ok node ↔
        w.resolve a g = .ok node ∨ w.resolve source g = .ok node) ∧
      w.LinkLeaves a source w' := by
  have hiff : ∀ g node, (perform (link a source) w).2.resolve a g = .ok node ↔
      w.resolve a g = .ok node ∨ w.resolve source g = .ok node :=
    fun _ _ => resolve_perform_link_iff ha source
  have hleaves := linkLeaves_perform_link ha source
  rw [perform_graft]
  cases hr : (perform (link a source) w).2.resolve a h with
  | ok node =>
    refine ⟨_, _, rfl, iff_of_true rfl ?_, fun hne => absurd rfl hne, hiff, hleaves⟩
    exact ((hiff h node).mp hr).symm.imp (⟨node, ·⟩) (⟨node, ·⟩)
  | error f =>
    obtain ⟨fault, b, rfl⟩ := resolve_eq_error hr
    refine ⟨_, _, rfl, iff_of_false (by simp) ?_, fun _ => ⟨fault, b, rfl⟩, hiff, hleaves⟩
    have hnone : ∀ node, ¬ (w.resolve a h = .ok node ∨ w.resolve source h = .ok node) := by
      intro node hfound
      rw [(hiff h node).mpr hfound] at hr
      cases hr
    rintro (⟨node, hfound⟩ | ⟨node, hfound⟩)
    · exact hnone node (.inr hfound)
    · exact hnone node (.inl hfound)

/-- The text of the second arena is grafted into the first, and resolves from there. -/
theorem graft_outcome_of_textsApart : textsApart.Opened ⟨0⟩ ∧
    ∃ w', perform (graft ⟨0⟩ ⟨1⟩ foreignText) textsApart = (.ok foreignText, w') ∧
      w'.resolve ⟨0⟩ foreignText = .ok (.text "new") ∧ (w'.arena ⟨0⟩).links = [⟨1⟩] := by
  have hopened : textsApart.Opened ⟨0⟩ := Nat.zero_lt_succ 1
  have hsource : textsApart.resolve ⟨1⟩ foreignText = .ok (.text "new") :=
    World.Holds.resolve ⟨0, 0, rfl, rfl⟩
  obtain ⟨outcome, w', hrun, hsucceeds, -, hsees, hleaves⟩ :=
    World.graft_outcome hopened ⟨1⟩ foreignText
  obtain rfl := hsucceeds.mpr (.inl ⟨_, hsource⟩)
  refine ⟨hopened, w', hrun, (hsees _ _).mpr (.inr hsource), ?_⟩
  exact hleaves.links (by decide) List.not_mem_nil

/-- Two arenas, the first of which has a listener and a text. -/
def heardText : World :=
  World.store
    { arenas := #[{ options := {}, listener := some ⟨0⟩ }, { options := {}, listener := none }]
      delivered := #[0] }
    ⟨0⟩ (.text "old")

theorem reachable_heardText : heardText.Reachable := by
  have hlistener := World.reachable_empty.call .addListener
  have hopen := (hlistener.call (.openArena {} (some ⟨0⟩))).call (.openArena {} none)
  exact hopen.store ⟨0⟩ (.text "old") rfl (List.forall_mem_nil _)

/-- The first arena grafts its own text from a source that does not have it. A graft of a handle
that neither of them has fails, and leaves a link and an event behind. -/
theorem graft_own_and_missing : heardText.Reachable ∧
    (∃ w', perform (graft ⟨0⟩ ⟨1⟩ oldText.handle) heardText = (.ok oldText.handle, w')) ∧
    (∀ node, heardText.resolve ⟨1⟩ oldText.handle ≠ .ok node) ∧
    (heardText.arena ⟨0⟩).links = [] ∧ heardText.events = [] ∧
    ∃ w', perform (graft ⟨0⟩ ⟨1⟩ foreignText) heardText =
        (.error (.invalidHandle .outOfRange foreignText ⟨1⟩), w') ∧
      (w'.arena ⟨0⟩).links = [⟨1⟩] ∧ w'.events = [.link ⟨0⟩ ⟨1⟩] := by
  have hopened : heardText.Opened ⟨0⟩ := by decide
  have hown : heardText.resolve ⟨0⟩ oldText.handle = .ok (.text "old") :=
    World.Holds.resolve ⟨0, 0, rfl, rfl⟩
  have hlinked := (World.resolve_perform_link_iff hopened ⟨1⟩).mpr (.inl hown)
  have hreach : (perform (link ⟨0⟩ ⟨1⟩) heardText).2.InReach ⟨0⟩ ⟨1⟩ :=
    (World.inReach_perform_link_iff hopened ⟨1⟩).mpr (.inr .refl)
  have hmissing : (perform (link ⟨0⟩ ⟨1⟩) heardText).2.resolve ⟨0⟩ foreignText =
      .error (.invalidHandle .outOfRange foreignText ⟨1⟩) :=
    World.resolve_of_inReach (b := ⟨1⟩) (by decide) hreach
  have hforeign : heardText.resolve ⟨1⟩ oldText.handle =
      .error (.invalidHandle .foreignArena oldText.handle ⟨1⟩) := by
    refine World.resolve_of_not_inReach (b := ⟨0⟩) fun hreach => ?_
    rcases hreach.cases_head with hsame | ⟨c, hlink, -⟩
    · cases hsame
    · cases hlink
  refine ⟨reachable_heardText, ⟨(perform (link ⟨0⟩ ⟨1⟩) heardText).2, ?_⟩, ?_, rfl, rfl,
    (perform (link ⟨0⟩ ⟨1⟩) heardText).2, ?_, rfl, rfl⟩
  · rw [perform_graft, hlinked]
  · intro node hfound
    rw [hforeign] at hfound
    cases hfound
  · rw [perform_graft, hmissing]

end MarkupArena
