import MarkupArena.Proofs.Lending
import MarkupArena.Proofs.Tidings

/-! What incidents come to for a pool whose listener no other pool tells, and that the books kept
from its events stay right: where its arenas are, how often each was reset, and what it stored
since. -/
namespace MarkupArena

variable {α : Type}

theorem Arena.listener_next (x : Arena) : x.next.listener = x.listener := rfl

namespace World

/-- The arenas that a listener is told of, and those yet to be opened. -/
def Followed (w : World) (l : Listener) (a : ArenaId) : Prop :=
  ¬ w.Opened a ∨ (w.arena a).listener = some l

/-- Only one pool tells a listener, and so do the arenas that it has. -/
structure TellsAlone (w : World) (l : Listener) (p : PoolId) : Prop where
  pool : ∀ q, (w.pool q).listener = some l ↔ q = p
  member : ∀ a ∈ (w.pool p).members, (w.arena a).listener = some l

/-- Arenas keep their listeners, and those that one of them follows their generations and sizes. -/
structure SameTally (l : Listener) (w w' : World) : Prop where
  listener : ∀ a, w.Opened a → (w'.arena a).listener = (w.arena a).listener
  followed : ∀ a, w'.Followed l a → w.Followed l a
  counts : ∀ a, w'.Followed l a → (w'.arena a).generation = (w.arena a).generation ∧
    (w'.arena a).size = (w.arena a).size

/-- What one incident comes to, as far as a pool and its listener are concerned: nothing to the pool
and its arenas, a reset, or that an arena is lent or taken back. -/
inductive Turn (l : Listener) (p : PoolId) (w : World) : List Event → World → Prop where
  | aside {w' : World} {news : List Event}
      (plain : ∀ event ∈ news, event.deal? = none ∧ ∀ a, (Happening.told event).resets a = false)
      (pool : w'.pool p = w.pool p) (arenas : SameTally l w w') : Turn l p w news w'
  | reset {w' : World} {a : ArenaId} (listener : (w.arena a).listener = some l)
      (pool : w'.pool p = w.pool p) (arenas : w'.arenas = (w.modifyArena a Arena.next).arenas) :
      Turn l p w [.reset a ((w.arena a).generation + 1) (w.arena a).size] w'
  | lendIdle {w' : World} {a : ArenaId} {rest : List ArenaId} (idle : (w.pool p).idle = a :: rest)
      (pool : w'.pool p = { w.pool p with idle := rest, leased := (w.pool p).leased ++ [a] })
      (arenas : w'.arenas = w.arenas) : Turn l p w [.acquired a true] w'
  | lendNew {w' : World} (idle : (w.pool p).idle = [])
      (pool : w'.pool p = { w.pool p with
        idle := [], leased := (w.pool p).leased ++ [⟨w.arenas.size⟩] })
      (arenas : w'.arenas = (w.opening (w.pool p).options.arena (some l)).arenas) :
      Turn l p w [.acquired ⟨w.arenas.size⟩ false] w'
  | takeBack {w' : World} {a : ArenaId} (generation : Nat) (leased : a ∈ (w.pool p).leased)
      (pool : w'.pool p = { w.pool p with
        idle := if (w.pool p).outcome generation = .pooled then a :: (w.pool p).idle
          else (w.pool p).idle
        leased := (w.pool p).leased.erase a })
      (arenas : w'.arenas = (w.modifyArena a Arena.next).arenas) :
      Turn l p w [.released a ((w.pool p).outcome generation),
        .reset a ((w.arena a).generation + 1) (w.arena a).size] w'

variable {w w' : World} {l : Listener} {p : PoolId}

theorem Followed.opened {a : ArenaId} (h : (w.arena a).listener = some l) : w.Opened a := by
  by_contra ha
  rw [arena_of_not_opened ha] at h
  cases h

theorem followed_congr (h : w'.arenas = w.arenas) {a : ArenaId} :
    w'.Followed l a ↔ w.Followed l a := by
  rw [Followed, Followed, opened_congr h, arena_congr h]

theorem listener_modifyArena {change : Arena → Arena} (h : ∀ x, (change x).listener = x.listener)
    (a b : ArenaId) : ((w.modifyArena a change).arena b).listener = (w.arena b).listener := by
  rw [arena_modifyArena]
  split
  · exact h _
  · rfl

theorem followed_modifyArena {change : Arena → Arena} (h : ∀ x, (change x).listener = x.listener)
    (a : ArenaId) {b : ArenaId} : (w.modifyArena a change).Followed l b ↔ w.Followed l b := by
  rw [Followed, Followed, opened_modifyArena, listener_modifyArena h]

namespace SameTally

theorem of_arenas (h : w'.arenas = w.arenas) : SameTally l w w' where
  listener a _ := by rw [arena_congr h]
  followed a := (followed_congr h).mp
  counts a _ := by rw [arena_congr h]; exact ⟨rfl, rfl⟩

theorem aside {w'' : World} (h : SameTally l w w') (harenas : w''.arenas = w'.arenas) :
    SameTally l w w'' where
  listener a ha := by rw [arena_congr harenas, h.listener a ha]
  followed a ha := h.followed a ((followed_congr harenas).mp ha)
  counts a ha := by
    rw [arena_congr harenas]
    exact h.counts a ((followed_congr harenas).mp ha)

theorem addLink (w : World) (a source : ArenaId) :
    SameTally l w (w.modifyArena a (·.addLink source)) := by
  have hlistener : ∀ x : Arena, (x.addLink source).listener = x.listener := fun _ => rfl
  refine ⟨fun b _ => listener_modifyArena hlistener a b,
    fun b => (followed_modifyArena hlistener a).mp, fun b _ => ?_⟩
  rw [arena_modifyArena]
  split <;> exact ⟨rfl, rfl⟩

theorem opening (w : World) (options : ArenaOptions) (listener : Option Listener) :
    SameTally l w (w.opening options listener) := by
  have hold : ∀ a, w.Opened a → (w.opening options listener).arena a = w.arena a := fun a ha =>
    (w.arena_opening options listener a).trans (if_neg (Nat.ne_of_lt ha))
  refine ⟨fun a ha => by rw [hold a ha], fun a ha => ?_, fun a _ => ?_⟩
  · by_cases hopened : w.Opened a
    · rcases ha with ha | ha
      · exact absurd ((Growth.openArena options listener).grows.opened a hopened) ha
      · exact .inr (hold a hopened ▸ ha)
    · exact .inl hopened
  · by_cases hopened : w.Opened a
    · rw [hold a hopened]
      exact ⟨rfl, rfl⟩
    · rw [arena_opening, arena_of_not_opened hopened]
      split <;> exact ⟨rfl, rfl⟩

/-- The reset of an arena that tells another listener. -/
theorem reset {a : ArenaId} (h : (w.arena a).listener ≠ some l) :
    SameTally l w (w.modifyArena a Arena.next) := by
  refine ⟨fun b _ => listener_modifyArena Arena.listener_next a b,
    fun b => (followed_modifyArena Arena.listener_next a).mp, fun b hb => ?_⟩
  rw [arena_modifyArena, if_neg]
  · exact ⟨rfl, rfl⟩
  · rintro ⟨rfl, ha⟩
    rcases (followed_modifyArena Arena.listener_next a).mp hb with hnot | hl
    · exact hnot ha
    · exact h hl

end SameTally

/-- A listener hears of an event at once, or not at all. -/
theorem news_of_tell {listener : Option Listener} {event : Event} {news : List Event}
    (h : (w.tell listener event).heard l = news ++ w.heard l) :
    listener ≠ some l ∧ news = [] ∨ listener = some l ∧ news = [event] := by
  by_cases hl : listener = some l
  · refine .inr ⟨hl, ?_⟩
    rw [hl, heard_tell] at h
    have hnews : [event] = news := List.append_cancel_right h
    exact hnews.symm
  · refine .inl ⟨hl, ?_⟩
    rw [heard_tell_of_ne hl] at h
    exact List.self_eq_append_left.mp h

theorem TellsAlone.lt_size (hw : w.TellsAlone l p) : p.index < w.pools.size := by
  have hlistener := (hw.pool p).mpr rfl
  by_contra hp
  rw [World.pool, Array.getD_eq_getD_getElem?,
    Array.getElem?_eq_none (Nat.not_lt.mp hp)] at hlistener
  cases hlistener

/-- Where nothing more is heard there is no news. -/
theorem news_eq_nil {news : List Event} (h : w.heard l = news ++ w.heard l) : news = [] :=
  List.self_eq_append_left.mp h

theorem Turn.silent (pool : w'.pool p = w.pool p) (arenas : SameTally l w w') :
    Turn l p w [] w' :=
  .aside (fun _ h => absurd h List.not_mem_nil) pool arenas

/-- An event that is neither a reset nor a deal leaves no trace in a pool and its arenas. -/
theorem Turn.of_tell {listener : Option Listener} {event : Event} {news : List Event}
    (hnews : (w'.tell listener event).heard l = news ++ w'.heard l)
    (hplain : event.deal? = none ∧ ∀ a, (Happening.told event).resets a = false)
    (hpool : w'.pool p = w.pool p) (harenas : SameTally l w w') :
    Turn l p w news (w'.tell listener event) := by
  have hpool' : (w'.tell listener event).pool p = w.pool p :=
    (pool_congr (w'.pools_tell ..) p).trans hpool
  have harenas' : SameTally l w (w'.tell listener event) := harenas.aside (w'.arenas_tell ..)
  refine .aside (fun other hother => ?_) hpool' harenas'
  rcases news_of_tell hnews with ⟨-, rfl⟩ | ⟨-, rfl⟩
  · cases hother
  · obtain rfl := List.mem_singleton.mp hother
    exact hplain

theorem Turn.of_reset {a : ArenaId} {news : List Event}
    (hnews : (perform (MarkupArena.reset a) w).2.heard l = news ++ w.heard l) :
    Turn l p w news (perform (MarkupArena.reset a) w).2 := by
  have hpool : (perform (MarkupArena.reset a) w).2.pool p = w.pool p := pool_congr (pools_tell ..) p
  have harenas : (perform (MarkupArena.reset a) w).2.arenas = (w.modifyArena a Arena.next).arenas :=
    arenas_tell ..
  rcases news_of_tell (w := w.modifyArena a Arena.next) hnews with ⟨hother, rfl⟩ | ⟨hl, rfl⟩
  · exact .silent hpool ((SameTally.reset hother).aside harenas)
  · exact .reset hl hpool harenas

theorem Turn.of_acquire (hw : w.TellsAlone l p) (q : PoolId) {news : List Event}
    (hnews : (perform (MarkupArena.acquire q) w).2.heard l = news ++ w.heard l) :
    Turn l p w news (perform (MarkupArena.acquire q) w).2 := by
  rw [perform_acquire] at hnews ⊢
  have hpool : ∀ (v : World) (a : ArenaId) (idle : List ArenaId) (reused : Bool),
      v.pools = w.pools → (v.lend q a idle reused).pool p =
        if q = p then { w.pool p with idle, leased := (w.pool p).leased ++ [a] }
        else w.pool p := by
    intro v a idle reused hpools
    rw [pool_lend, hpools]
    by_cases hq : q = p
    · subst hq
      rw [if_pos ⟨rfl, hw.lt_size⟩, if_pos rfl, pool_congr hpools]
    · rw [if_neg fun h => hq h.1, if_neg hq, pool_congr hpools]
  split at hnews
  next a rest hidle =>
    have hafter := hpool w a rest true rfl
    rcases news_of_tell (w := w.setPool q _) hnews with ⟨hother, rfl⟩ | ⟨hl, rfl⟩
    · rw [if_neg fun hq => hother ((hw.pool q).mpr hq)] at hafter
      exact .silent hafter (.of_arenas (arenas_lend ..))
    · obtain rfl := (hw.pool q).mp hl
      rw [if_pos rfl] at hafter
      exact .lendIdle hidle hafter (arenas_lend ..)
  next hidle =>
    have hafter := hpool (w.opening (w.pool q).options.arena (w.pool q).listener) ⟨w.arenas.size⟩ []
      false rfl
    rcases news_of_tell (w := (w.opening _ _).setPool q _) hnews with ⟨hother, rfl⟩ | ⟨hl, rfl⟩
    · rw [if_neg fun hq => hother ((hw.pool q).mpr hq)] at hafter
      exact .silent hafter ((SameTally.opening w _ _).aside (arenas_lend ..))
    · obtain rfl := (hw.pool q).mp hl
      rw [if_pos rfl] at hafter
      have hl : (w.pool q).listener = some l := hl
      refine .lendNew hidle hafter ((arenas_lend ..).trans ?_)
      rw [hl]

/-- The listener hears of an arena's reset and then of its release. -/
theorem TellsAlone.heard_release (hw : w.TellsAlone l p) {a : ArenaId}
    (ha : a ∈ (w.pool p).leased) : ((w.takeBack p a).putAway p a).heard l =
      [.released a ((w.pool p).outcome ((w.takeBack p a).arena a).generation),
        .reset a ((w.arena a).generation + 1) (w.arena a).size] ++ w.heard l := by
  have hreset : (w.takeBack p a).heard l =
      .reset a ((w.arena a).generation + 1) (w.arena a).size :: w.heard l := by
    show (World.tell _ (w.arena a).listener _).heard l = _
    rw [hw.member a (List.mem_append_right _ ha), heard_tell]
    rfl
  have hpool : (w.takeBack p a).pool p =
      { w.pool p with leased := (w.pool p).leased.erase a } :=
    (w.pool_takeBack p a p).trans (if_pos ⟨rfl, hw.lt_size⟩)
  show (World.tell _ ((w.takeBack p a).pool p).listener _).heard l = _
  rw [hpool, (hw.pool p).mpr rfl, heard_tell]
  exact congrArg _ hreset

theorem Turn.of_release (hw : w.TellsAlone l p) (q : PoolId) (a : ArenaId) {news : List Event}
    (hnews : (perform (MarkupArena.release q a) w).2.heard l = news ++ w.heard l) :
    Turn l p w news (perform (MarkupArena.release q a) w).2 := by
  by_cases ha : a ∈ (w.pool q).leased
  · rw [perform_release ha] at hnews ⊢
    have harenas : ((w.takeBack q a).putAway q a).arenas = (w.modifyArena a Arena.next).arenas :=
      (arenas_putAway ..).trans (w.arenas_takeBack q a)
    have hpool := w.pool_returned q a p
    by_cases hq : q = p
    · subst hq
      rw [if_pos ⟨rfl, hw.lt_size⟩] at hpool
      obtain rfl := List.append_cancel_right (hnews.symm.trans (hw.heard_release ha))
      exact .takeBack _ ha hpool harenas
    · rw [if_neg fun h => hq h.1] at hpool
      have hother : ((w.takeBack q a).pool q).listener ≠ some l := by
        rw [pool_takeBack]
        split <;> exact fun h => hq ((hw.pool q).mp h)
      have hnews : (w.takeBack q a).heard l = news ++ w.heard l :=
        (heard_tell_of_ne (w := (w.takeBack q a).setPool q _) hother _).symm.trans hnews
      rcases news_of_tell (w := (w.setPool q _).modifyArena a Arena.next) hnews with
        ⟨hother, rfl⟩ | ⟨hl, rfl⟩
      · have hother : (w.arena a).listener ≠ some l := hother
        exact .silent hpool ((SameTally.reset hother).aside harenas)
      · exact .reset hl hpool harenas
  · rw [perform_release_of_not_mem ha] at hnews ⊢
    rw [news_eq_nil hnews]
    exact .silent rfl (.of_arenas rfl)

/-- What an incident comes to for a pool that tells its listener alone. -/
theorem TellsAlone.turn (hw : w.TellsAlone l p) {act : Action α} (h : Incident l act)
    {news : List Event} (hnews : (perform act w).2.heard l = news ++ w.heard l) :
    Turn l p w news (perform act w).2 := by
  cases h with
  | link a source =>
    rcases perform_link_cases w a source with ⟨-, hrun⟩ | ⟨-, hrun⟩ <;> rw [hrun] at hnews ⊢
    · rw [news_eq_nil hnews]
      exact .silent rfl (.of_arenas rfl)
    · exact .of_tell hnews ⟨rfl, fun _ => rfl⟩ rfl (.addLink w a source)
  | recordSite a tag site given =>
    rw [Build.perform_recordSite] at hnews ⊢
    unfold Build.announce at hnews ⊢
    split at hnews
    next htitled =>
      rw [if_pos htitled]
      exact .of_tell hnews ⟨rfl, fun _ => rfl⟩ rfl (.of_arenas rfl)
    next htitled =>
      rw [if_neg htitled, news_eq_nil hnews]
      exact .silent rfl (.of_arenas rfl)
  | reset a => exact .of_reset hnews
  | acquire q => exact .of_acquire hw q hnews
  | release q a => exact .of_release hw q a hnews
  | openArena options listener =>
    rw [news_eq_nil hnews]
    exact .silent rfl (.opening w options listener)
  | @openPool options listener other =>
    rw [news_eq_nil hnews]
    exact .silent (w.pool_openPool_of_lt options listener hw.lt_size) (.of_arenas rfl)
  | addListener =>
    rw [news_eq_nil hnews]
    exact .silent rfl (.of_arenas rfl)
  | openCache =>
    rw [news_eq_nil hnews]
    exact .silent rfl (.of_arenas rfl)
  | updateCache =>
    rw [news_eq_nil hnews]
    exact .silent rfl (.of_arenas rfl)

end World

/-- The generation of an arena and the number of its nodes are what a past says. -/
def Arena.Tallies (x : Arena) (a : ArenaId) (past : List Happening) : Prop :=
  x.generation = Happening.resetCount a past ∧ x.size = Happening.storedSince a past

theorem Arena.Tallies.tell {x : Arena} {a : ArenaId} {past : List Happening} (h : x.Tallies a past)
    {event : Event} (hplain : (Happening.told event).resets a = false) :
    x.Tallies a (.told event :: past) :=
  ⟨h.1.trans (Happening.resetCount_cons_of_not hplain).symm,
    h.2.trans (Happening.storedSince_cons_of_ne hplain nofun).symm⟩

theorem Arena.Tallies.told {x : Arena} {a : ArenaId} {past : List Happening} (h : x.Tallies a past)
    {news : List Event} (hplain : ∀ event ∈ news, (Happening.told event).resets a = false) :
    x.Tallies a (news.map .told ++ past) := by
  induction news with
  | nil => exact h
  | cons event news ih =>
    obtain ⟨hevent, hnews⟩ := List.forall_mem_cons.mp hplain
    exact (ih hnews).tell hevent

/-- What is told in a past fits what happened before. -/
def Happening.Fit (past : List Happening) : Prop :=
  ∀ later happening earlier, past = later ++ happening :: earlier → Happening.Fits earlier happening

theorem Happening.Fit.cons {past : List Happening} (h : Fit past) {happening : Happening}
    (hfits : Fits past happening) : Fit (happening :: past) := by
  intro later other earlier heq
  cases later with
  | nil =>
    obtain ⟨rfl, rfl⟩ := List.cons.inj heq
    exact hfits
  | cons _ later => exact h later other earlier (List.cons.inj heq).2

theorem Happening.Fit.told {past : List Happening} (h : Fit past) {news : List Event}
    (hplain : ∀ event ∈ news, event.deal? = none ∧ ∀ a, (Happening.told event).resets a = false) :
    Fit (news.map .told ++ past) := by
  induction news with
  | nil => exact h
  | cons event news ih =>
    obtain ⟨⟨hdeal, hresets⟩, hnews⟩ := List.forall_mem_cons.mp hplain
    refine (ih hnews).cons ?_
    cases event with
    | reset a generation nodes => simp [Happening.resets] at hresets
    | acquired a reused => cases hdeal
    | released a outcome => cases hdeal
    | link => exact True.intro
    | siteSkipped => exact True.intro

/-- No pool changes its listener, and no other gets this one. -/
theorem Incident.listener_pool {l : Listener} {act : Action α} (h : Incident l act) (w : World)
    (q : PoolId) : ((perform act w).2.pool q).listener = some l ↔ (w.pool q).listener = some l := by
  have hon : ∀ {a : ArenaId} {α : Type} {act : Action α}, WorksOn a act →
      (perform act w).2.pool q = w.pool q := fun {a} _ _ hon =>
    World.pool_congr (keepsBut_of_worksOn hon w w (.refl a w)).1.pools q
  cases h with
  | link a source => rw [hon (.link source)]
  | recordSite a tag site given => rw [hon (.recordSite tag site given)]
  | reset a => rw [hon .reset]
  | addListener | openArena | openCache | updateCache => rfl
  | @openPool options listener other =>
    have hpool : (perform (MarkupArena.openPool options listener) w).2.pool q =
        if q.index = w.pools.size then { options, listener } else w.pool q :=
      w.pool_openPool options listener q
    rw [hpool]
    split
    next hq =>
      have hnone : w.pool q = World.noPool := by simp [World.pool, hq]
      rw [hnone]
      exact iff_of_false other (Option.some_ne_none l).symm
    next => rfl
  | acquire p =>
    rw [perform_acquire]
    split
    all_goals
      rw [World.pool_lend]
      split
      next hq =>
        obtain ⟨rfl, -⟩ := hq
        exact Iff.rfl
      next => exact Iff.rfl
  | release p a =>
    by_cases ha : a ∈ (w.pool p).leased
    · rw [perform_release ha, World.pool_returned]
      split
      next hq => rw [hq.1]
      next => rfl
    · rw [perform_release_of_not_mem ha]

namespace World

variable {w w' : World} {l : Listener} {p : PoolId} {news : List Event} {past : List Happening}

theorem SameTally.tallies (h : SameTally l w w')
    (htally : ∀ a, w.Followed l a → (w.arena a).Tallies a past) {a : ArenaId}
    (ha : w'.Followed l a) : (w'.arena a).Tallies a past := by
  obtain ⟨hgeneration, hsize⟩ := h.counts a ha
  obtain ⟨hresets, hstored⟩ := htally a (h.followed a ha)
  exact ⟨hgeneration.trans hresets, hsize.trans hstored⟩

/-- A reset that was told of counts, and what was stored before does not count any more. -/
theorem tallies_next (htally : ∀ a, w.Followed l a → (w.arena a).Tallies a past) {a b : ArenaId}
    (hb : (w.arena b).listener = some l) (ha : (w.modifyArena b Arena.next).Followed l a)
    (generation nodes : Nat) : ((w.modifyArena b Arena.next).arena a).Tallies a
      (.told (.reset b generation nodes) :: past) := by
  have hbefore := htally a ((followed_modifyArena Arena.listener_next b).mp ha)
  by_cases hab : a = b
  · subst hab
    rw [w.arena_modifyArena_self a Arena.next (Followed.opened hb)]
    refine ⟨?_, (Happening.storedSince_reset ..).symm⟩
    rw [Happening.resetCount_reset, ← hbefore.1]
    rfl
  · rw [w.arena_modifyArena_of_ne Arena.next hab]
    exact hbefore.tell (by simpa [Happening.resets] using Ne.symm hab)

namespace Turn

variable (h : Turn l p w news w')
include h

theorem turns : (w.pool p).Turns
    (fun a => a = ⟨w.arenas.size⟩ ∧ ∃ options, w'.arenas = (w.opening options (some l)).arenas)
    (fun _ => True) (w'.pool p) := by
  cases h with
  | aside plain pool arenas => exact pool ▸ .stay
  | reset listener pool arenas => exact pool ▸ .stay
  | lendIdle idle pool arenas => exact pool ▸ .lendIdle idle
  | lendNew idle pool arenas => exact pool ▸ .lendNew idle ⟨rfl, _, arenas⟩
  | takeBack generation leased pool arenas => exact pool ▸ .takeBack generation leased True.intro

theorem listener_arena {a : ArenaId} (ha : w.Opened a) :
    (w'.arena a).listener = (w.arena a).listener := by
  cases h with
  | aside plain pool arenas => exact arenas.listener a ha
  | reset listener pool arenas => rw [arena_congr arenas, listener_modifyArena Arena.listener_next]
  | lendIdle idle pool arenas => rw [arena_congr arenas]
  | lendNew idle pool arenas => rw [arena_congr arenas, arena_opening, if_neg (Nat.ne_of_lt ha)]
  | takeBack generation leased pool arenas =>
    rw [arena_congr arenas, listener_modifyArena Arena.listener_next]

theorem member (hw : w.TellsAlone l p) (hplaced : w.Placed) :
    ∀ a ∈ (w'.pool p).members, (w'.arena a).listener = some l := by
  intro a ha
  rcases h.turns.mem_members ha with hold | ⟨rfl, options, harenas⟩
  · rw [h.listener_arena (hplaced.opened p a hold)]
    exact hw.member a hold
  · rw [arena_congr harenas, arena_opening, if_pos rfl]

theorem told (hplaced : w.Placed) {events : List Event} (htold : (w.pool p).Told events) :
    (w'.pool p).Told (news ++ events) := by
  have hnodup := hplaced.nodup p
  cases h with
  | aside plain pool arenas =>
    exact pool ▸ htold.others fun event hevent => (plain event hevent).1
  | reset listener pool arenas => exact pool ▸ htold.other rfl
  | lendIdle idle pool arenas => exact pool ▸ htold.lendIdle hnodup idle
  | lendNew idle pool arenas => exact pool ▸ htold.lendNew idle _
  | takeBack generation leased pool arenas =>
    exact pool ▸ (htold.other rfl).takeBack hnodup leased _

theorem fresh (hopened : ∀ a, w.Opened a → w'.Opened a) (hplaced : w.Placed) {events : List Event}
    (hfresh : ∀ a, ¬ w.Opened a → Event.lastDeal? a events = none) {a : ArenaId}
    (ha : ¬ w'.Opened a) : Event.lastDeal? a (news ++ events) = none := by
  have hbefore : ¬ w.Opened a := fun hopen => ha (hopened a hopen)
  have hne : ∀ event ∈ news, event.deal? ≠ some a := by
    intro event hevent hdeal
    cases h with
    | aside plain pool arenas =>
      rw [(plain event hevent).1] at hdeal
      cases hdeal
    | reset listener pool arenas =>
      obtain rfl := List.mem_singleton.mp hevent
      cases hdeal
    | lendIdle idle pool arenas =>
      obtain rfl := List.mem_singleton.mp hevent
      obtain rfl := Option.some.inj hdeal
      have hidle := hplaced.opened p _ (List.mem_append_left _ (idle ▸ List.mem_cons_self))
      exact hbefore hidle
    | lendNew idle pool arenas =>
      obtain rfl := List.mem_singleton.mp hevent
      obtain rfl := Option.some.inj hdeal
      exact ha ((opened_congr arenas).mpr (w.opened_opening _ _))
    | takeBack generation leased pool arenas =>
      rcases List.mem_pair.mp hevent with rfl | rfl
      · obtain rfl := Option.some.inj hdeal
        exact hbefore (hplaced.opened p _ (List.mem_append_right _ leased))
      · cases hdeal
  unfold Event.lastDeal?
  rw [List.find?_append, List.find?_eq_none.mpr fun event hevent => by simpa using hne event hevent]
  exact hfresh a hbefore

theorem tallies (hw : w.TellsAlone l p)
    (htally : ∀ a, w.Followed l a → (w.arena a).Tallies a past) {a : ArenaId}
    (ha : w'.Followed l a) : (w'.arena a).Tallies a (news.map .told ++ past) := by
  cases h with
  | aside plain pool arenas =>
    exact (arenas.tallies htally ha).told fun event hevent => (plain event hevent).2 a
  | reset listener pool arenas =>
    rw [arena_congr arenas]
    exact tallies_next htally listener ((followed_congr arenas).mp ha) _ _
  | lendIdle idle pool arenas =>
    exact ((SameTally.of_arenas arenas).tallies htally ha).tell rfl
  | lendNew idle pool arenas =>
    have hopened : SameTally l w w' := (SameTally.opening w _ _).aside arenas
    exact (hopened.tallies htally ha).tell rfl
  | takeBack generation leased pool arenas =>
    rw [arena_congr arenas]
    have hlistener := hw.member _ (List.mem_append_right _ leased)
    have hreset := tallies_next htally hlistener ((followed_congr arenas).mp ha)
    exact (hreset _ _).tell rfl

theorem fit (hw : w.TellsAlone l p) (htold : (w.pool p).Told (Happening.events past))
    (hfresh : ∀ a, ¬ w.Opened a → Event.lastDeal? a (Happening.events past) = none)
    (htally : ∀ a, w.Followed l a → (w.arena a).Tallies a past) (hfit : Happening.Fit past) :
    Happening.Fit (news.map .told ++ past) := by
  have hreset : ∀ a, (w.arena a).listener = some l →
      Happening.Fits past (.told (.reset a ((w.arena a).generation + 1) (w.arena a).size)) := by
    intro a ha
    obtain ⟨hgeneration, hsize⟩ := htally a (.inr ha)
    exact ⟨congrArg (· + 1) hgeneration, hsize⟩
  cases h with
  | aside plain pool arenas => exact hfit.told plain
  | reset listener pool arenas => exact hfit.cons (hreset _ listener)
  | lendIdle idle pool arenas =>
    exact hfit.cons (.inr ⟨rfl, htold.idle _ (idle ▸ List.mem_cons_self)⟩)
  | lendNew idle pool arenas => exact hfit.cons (.inl ⟨rfl, hfresh _ (lt_irrefl _)⟩)
  | takeBack generation leased pool arenas =>
    have hlistener := hw.member _ (List.mem_append_right _ leased)
    refine (hfit.cons (hreset _ hlistener)).cons ⟨?_, _, _, _, rfl⟩
    obtain ⟨reused, hlast⟩ := htold.leased _ leased
    exact ⟨reused, (Event.lastDeal?_cons_of_ne (by simp [Event.deal?])).trans hlast⟩

end Turn

end World

end MarkupArena
