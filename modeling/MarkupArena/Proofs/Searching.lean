import MarkupArena.Proofs.Making

/-! The search for the owner of a handle as a walk down the links that shares what it has seen
between all branches. On every graph of links, with cycles or not, the walk ends and finds the arena
with a number just if that is within reach, in whatever order the links were made. -/
namespace MarkupArena

namespace World

/-- A search for the arena with a number among some arenas. Each of them is looked at before what it
links to, and that before the arenas after it; an arena seen on any branch is not entered again. The
lists are what was seen before, the arenas to search, and what was seen in the end. -/
inductive Explores (w : World) (number : Coordinate) :
    List ArenaId → List ArenaId → Option ArenaId → List ArenaId → Prop where
  | finish (seen : List ArenaId) : Explores w number seen [] none seen
  | skip {seen seen' rest : List ArenaId} {a : ArenaId} {found : Option ArenaId} : a ∈ seen →
      Explores w number seen rest found seen' → Explores w number seen (a :: rest) found seen'
  | here {seen rest : List ArenaId} {a : ArenaId} : a ∉ seen → number = .count a.number →
      Explores w number seen (a :: rest) (some a) seen
  | under {seen seen' rest : List ArenaId} {a b : ArenaId} : a ∉ seen → number ≠ .count a.number →
      Explores w number (a :: seen) (w.arena a).links (some b) seen' →
      Explores w number seen (a :: rest) (some b) seen'
  | past {seen seen' seen'' rest : List ArenaId} {a : ArenaId} {found : Option ArenaId} :
      a ∉ seen → number ≠ .count a.number →
      Explores w number (a :: seen) (w.arena a).links none seen' →
      Explores w number seen' rest found seen'' → Explores w number seen (a :: rest) found seen''

/-- Links lead from arenas of the world to arenas of the world only. -/
def Enclosed (w : World) : Prop := ∀ arena ∈ w.arenas, ∀ b ∈ arena.links, w.Opened b

instance (w : World) : Decidable w.Enclosed :=
  inferInstanceAs (Decidable (∀ arena ∈ w.arenas, ∀ b ∈ arena.links, w.Opened b))

def unseen (w : World) (seen : List ArenaId) : List ArenaId := w.arenaIds.filter (· ∉ seen)

variable {w : World} {number : Coordinate} {a b : ArenaId} {seen seen' pending : List ArenaId}
  {found : Option ArenaId}

theorem Enclosed.opened (hw : w.Enclosed) (hlink : w.LinkedTo a b) : w.Opened b := by
  have ha : a.index < w.arenas.size := hlink.opened
  have harena : w.arena a ∈ w.arenas := by
    simp [World.arena, Array.getD_eq_getD_getElem?, ha]
  exact hw _ harena b hlink

@[simp] theorem mem_unseen : a ∈ w.unseen seen ↔ w.Opened a ∧ a ∉ seen := by
  simp [unseen, mem_arenaIds]

theorem unseen_nil (w : World) : w.unseen [] = w.arenaIds := by
  simp [unseen]

theorem erase_unseen (w : World) (a : ArenaId) (seen : List ArenaId) :
    (w.unseen seen).erase a = w.unseen (a :: seen) := by
  have hnodup : (w.unseen seen).Nodup := w.arenaIds_nodup.filter _
  rw [hnodup.erase_eq_filter, unseen, unseen, List.filter_filter]
  apply List.filter_congr
  intro b _
  by_cases hb : b = a <;> simp [hb]

theorem length_unseen_lt (ha : w.Opened a) (hseen : a ∉ seen) :
    (w.unseen (a :: seen)).length < (w.unseen seen).length := by
  have hmem : a ∈ w.unseen seen := mem_unseen.mpr ⟨ha, hseen⟩
  have hpos := List.length_pos_of_mem hmem
  rw [← erase_unseen, List.length_erase_of_mem hmem]
  omega

theorem length_unseen_le (h : seen ⊆ seen') : (w.unseen seen').length ≤ (w.unseen seen).length := by
  apply List.Sublist.length_le
  apply List.monotone_filter_right
  intro b hb
  simp only [decide_eq_true_eq] at hb ⊢
  exact fun hmem => hb (h hmem)

theorem Explores.subset (h : w.Explores number seen pending found seen') : seen ⊆ seen' := by
  induction h with
  | finish => simp
  | skip _ _ ih => exact ih
  | here => simp
  | under _ _ _ ih => exact fun b hb => ih (List.mem_cons_of_mem _ hb)
  | past _ _ _ _ ihUnder ihRest => exact fun b hb => ihRest (ihUnder (List.mem_cons_of_mem _ hb))

/-- The search that keeps a list of what is pending comes to what the walk finds, and if that is
nothing goes on with what else is pending, past all that the walk has seen. -/
theorem Explores.search_append (hw : w.Enclosed)
    (h : w.Explores number seen pending found seen') (hpending : ∀ b ∈ pending, w.Opened b)
    (more : List ArenaId) : w.search number (w.unseen seen) (pending ++ more) =
      found.or (w.search number (w.unseen seen') more) := by
  induction h generalizing more with
  | finish => simp
  | skip ha _ ih =>
    rw [List.cons_append, World.search, if_neg (by simp [ha])]
    exact ih (fun b hb => hpending b (List.mem_cons_of_mem _ hb)) more
  | here ha hnumber =>
    have hopened := hpending _ List.mem_cons_self
    rw [List.cons_append, World.search, if_pos (mem_unseen.mpr ⟨hopened, ha⟩), if_pos hnumber]
    rfl
  | under ha hnumber _ ih =>
    have hopened := hpending _ List.mem_cons_self
    rw [List.cons_append, World.search, if_pos (mem_unseen.mpr ⟨hopened, ha⟩), if_neg hnumber,
      erase_unseen, ih fun b hlink => hw.opened hlink]
    rfl
  | past ha hnumber _ _ ihUnder ihRest =>
    have hopened := hpending _ List.mem_cons_self
    rw [List.cons_append, World.search, if_pos (mem_unseen.mpr ⟨hopened, ha⟩), if_neg hnumber,
      erase_unseen, ihUnder fun b hlink => hw.opened hlink]
    exact ihRest (fun b hb => hpending b (List.mem_cons_of_mem _ hb)) more

theorem Explores.search_eq (hw : w.Enclosed) (h : w.Explores number seen pending found seen')
    (hpending : ∀ b ∈ pending, w.Opened b) :
    w.search number (w.unseen seen) pending = found := by
  have happend := h.search_append hw hpending []
  simpa [World.search] using happend

/-- The walk ends: it enters an arena only if that was not seen yet. -/
theorem exists_explores (hw : w.Enclosed) (number : Coordinate) (seen pending : List ArenaId)
    (hpending : ∀ b ∈ pending, w.Opened b) :
    ∃ found seen', w.Explores number seen pending found seen' := by
  match pending with
  | [] => exact ⟨none, seen, .finish seen⟩
  | a :: rest =>
    obtain ⟨ha, hrest⟩ := List.forall_mem_cons.mp hpending
    by_cases hseen : a ∈ seen
    · obtain ⟨found, seen', h⟩ := exists_explores hw number seen rest hrest
      exact ⟨found, seen', .skip hseen h⟩
    by_cases hnumber : number = .count a.number
    · exact ⟨some a, seen, .here hseen hnumber⟩
    have hless : (w.unseen (a :: seen)).length < (w.unseen seen).length := length_unseen_lt ha hseen
    obtain ⟨found, seen', hunder⟩ := exists_explores hw number (a :: seen) (w.arena a).links
      fun b hlink => hw.opened hlink
    cases found with
    | some b => exact ⟨some b, seen', .under hseen hnumber hunder⟩
    | none =>
      have hfewer : (w.unseen seen').length < (w.unseen seen).length :=
        (length_unseen_le hunder.subset).trans_lt hless
      obtain ⟨found, seen'', h⟩ := exists_explores hw number seen' rest hrest
      exact ⟨found, seen'', .past hseen hnumber hunder h⟩
termination_by ((w.unseen seen).length, pending.length)
decreasing_by
  · exact Prod.Lex.right _ (by simp)
  · exact Prod.Lex.left _ _ hless
  · exact Prod.Lex.left _ _ hfewer

/-- The owner search is the walk that starts at an arena with nothing seen. -/
theorem explores_iff (hw : w.Enclosed) (ha : w.Opened a) :
    (∃ seen, w.Explores number [] [a] found seen) ↔ w.owner? a number = found := by
  have hstart : ∀ b ∈ [a], w.Opened b := by simpa using ha
  have howner : w.owner? a number = w.search number (w.unseen []) [a] := by
    rw [unseen_nil, owner?]
  rw [howner]
  constructor
  · rintro ⟨seen, h⟩
    exact h.search_eq hw hstart
  · rintro rfl
    obtain ⟨found, seen, h⟩ := exists_explores hw number [] [a] hstart
    rw [h.search_eq hw hstart]
    exact ⟨seen, h⟩

/-- What the search finds depends on the graph of links alone. -/
theorem owner?_congr {v : World} (hopened : ∀ b, v.Opened b ↔ w.Opened b)
    (hlinks : ∀ b c, v.LinkedTo b c ↔ w.LinkedTo b c) (a : ArenaId) (number : Coordinate) :
    v.owner? a number = w.owner? a number := by
  have hlinked : v.LinkedTo = w.LinkedTo := by
    funext b c
    exact propext (hlinks b c)
  apply Option.ext
  intro b
  rw [owner?_eq_some_iff, owner?_eq_some_iff, hopened, InReach, InReach, hlinked]

end World

/-- Makes links from arenas to others, one after the other. -/
def linkAll (calls : List (ArenaId × ArenaId)) : Action Unit :=
  calls.forM fun call => link call.1 call.2

namespace World

/-- The graph after any number of links: what was linked before, and what was called for. -/
theorem perform_linkAll (calls : List (ArenaId × ArenaId)) (w : World) :
    ∃ v, perform (linkAll calls) w = (.ok ⟨⟩, v) ∧ (∀ b, v.Opened b ↔ w.Opened b) ∧
      ∀ b c, v.LinkedTo b c ↔ w.LinkedTo b c ∨ w.Opened b ∧ b ≠ c ∧ (b, c) ∈ calls := by
  induction calls generalizing w with
  | nil => exact ⟨w, rfl, fun b => .rfl, by simp⟩
  | cons call calls ih =>
    obtain ⟨v, hrun, hopened, hlinked⟩ := ih (perform (link call.1 call.2) w).2
    refine ⟨v, ?_, fun b => (hopened b).trans (opened_link w ..), ?_⟩
    · have hlink : perform (link call.1 call.2) w =
          (.ok ⟨⟩, (perform (link call.1 call.2) w).2) := rfl
      show perform (link call.1 call.2 >>= fun _ => linkAll calls) w = _
      rw [perform_bind, hlink]
      exact hrun
    · intro b c
      rw [hlinked, linkedTo_link_iff, opened_link, List.mem_cons]
      tauto

/-- The owner search is exact on every graph of links. The walk from an arena ends, and comes to the
owner that is found; this is the arena with the number just if that is within reach. Links that are
added in another order lead to the same owner. -/
theorem owner_search_exact (hw : w.Enclosed) (ha : w.Opened a) (number : Coordinate) :
    (∀ found, (∃ seen, w.Explores number [] [a] found seen) ↔ w.owner? a number = found) ∧
    (∀ b, w.owner? a number = some b ↔ number = .count b.number ∧ w.InReach a b) ∧
    ∀ calls calls' : List (ArenaId × ArenaId), calls.Perm calls' →
      ∃ v v', perform (linkAll calls) w = (.ok ⟨⟩, v) ∧ perform (linkAll calls') w = (.ok ⟨⟩, v') ∧
        v.owner? a number = v'.owner? a number := by
  have hreached : ∀ b, w.InReach a b → w.Opened b := by
    intro b hreach
    induction hreach with
    | refl => exact ha
    | tail _ hlink => exact hw.opened hlink
  constructor
  · exact fun found => explores_iff hw ha
  constructor
  · intro b
    rw [owner?_eq_some_iff]
    constructor
    · rintro ⟨hnumber, -, hreach⟩
      exact ⟨hnumber, hreach⟩
    · rintro ⟨hnumber, hreach⟩
      exact ⟨hnumber, hreached b hreach, hreach⟩
  · intro calls calls' hperm
    obtain ⟨v, hrun, hopened, hlinked⟩ := perform_linkAll calls w
    obtain ⟨v', hrun', hopened', hlinked'⟩ := perform_linkAll calls' w
    refine ⟨v, v', hrun, hrun', ?_⟩
    apply owner?_congr
    · intro b
      rw [hopened, hopened']
    · intro b c
      rw [hlinked, hlinked', hperm.mem_iff]

end World

/-- Two ways lead from the first arena to the fourth, which is linked back to the first. The last
arena is linked to the first only. -/
def ringedArenas : World where
  arenas := #[{ options := {}, listener := none, links := [⟨1⟩, ⟨2⟩] },
    { options := {}, listener := none, links := [⟨0⟩, ⟨3⟩] },
    { options := {}, listener := none, links := [⟨3⟩, ⟨1⟩] },
    { options := {}, listener := none, links := [⟨0⟩] },
    { options := {}, listener := none, links := [⟨0⟩] }]

/-- The fourth arena is found from the first, past the circles through it; the fifth is not. -/
theorem owner_search_exact_of_ringedArenas : ringedArenas.Enclosed ∧ ringedArenas.Opened ⟨0⟩ ∧
    (∃ seen, ringedArenas.Explores (.count 4) [] [⟨0⟩] (some ⟨3⟩) seen) ∧
    (∃ seen, ringedArenas.Explores (.count 5) [] [⟨0⟩] none seen) ∧
    ∃ v v', perform (linkAll [(⟨3⟩, ⟨4⟩), (⟨0⟩, ⟨4⟩)]) ringedArenas = (.ok ⟨⟩, v) ∧
      perform (linkAll [(⟨0⟩, ⟨4⟩), (⟨3⟩, ⟨4⟩)]) ringedArenas = (.ok ⟨⟩, v') ∧
      v.owner? ⟨0⟩ (.count 5) = v'.owner? ⟨0⟩ (.count 5) := by
  have hw : ringedArenas.Enclosed := by decide
  have ha : ringedArenas.Opened ⟨0⟩ := by decide
  have hreach : ringedArenas.InReach ⟨0⟩ ⟨3⟩ :=
    .head (b := ⟨1⟩) (by simp [World.LinkedTo, World.arena, ringedArenas])
      (.single (by simp [World.LinkedTo, World.arena, ringedArenas]))
  have hstays : ∀ c, ringedArenas.InReach ⟨0⟩ c → c.index < 4 := by
    intro c hc
    have hlinks : ∀ i < 4, ∀ b ∈ (ringedArenas.arena ⟨i⟩).links, b.index < 4 := by decide
    induction hc with
    | refl => decide
    | @tail b c _ hlink ih => exact hlinks b.index ih c hlink
  obtain ⟨hfourth, hexact, -⟩ := World.owner_search_exact hw ha (.count 4)
  obtain ⟨hfifth, hexact', horder⟩ := World.owner_search_exact hw ha (.count 5)
  have hnone : ringedArenas.owner? ⟨0⟩ (.count 5) = none := by
    cases hfound : ringedArenas.owner? ⟨0⟩ (.count 5) with
    | none => rfl
    | some c =>
      obtain ⟨hnumber, hc⟩ := (hexact' c).mp hfound
      have hindex : 5 = c.index + 1 := Coordinate.count.inj hnumber
      have hfour := hstays c hc
      omega
  exact ⟨hw, ha, (hfourth _).mpr ((hexact _).mpr ⟨rfl, hreach⟩), (hfifth _).mpr hnone,
    horder _ _ (.swap ..)⟩

end MarkupArena
