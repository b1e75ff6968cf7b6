import MarkupArena.Proofs.Chronicles
import MarkupArena.Proofs.Placing

/-! What can be read off the events of a pool: which arenas are lent and which are idle, how often
an arena was reset, and how many nodes it stored since. -/
namespace MarkupArena

namespace Event

/-- The arena that an event tells was lent or given back. -/
def deal? : Event → Option ArenaId
  | acquired a _ => some a
  | released a _ => some a
  | _ => none

def isAcquired : Event → Bool
  | acquired .. => true
  | _ => false

def isReused : Event → Bool
  | acquired _ reused => reused
  | _ => false

def isReleased : Event → Bool
  | released .. => true
  | _ => false

def isPooled : Event → Bool
  | released _ outcome => outcome = .pooled
  | _ => false

/-- What was last told of an arena's being lent or given back. The latest event comes first. -/
def lastDeal? (a : ArenaId) (events : List Event) : Option Event :=
  events.find? fun event => event.deal? = some a

variable {a : ArenaId} {event : Event} {events : List Event}

theorem lastDeal?_cons_of_eq (h : event.deal? = some a) :
    lastDeal? a (event :: events) = some event :=
  List.find?_cons_of_pos (decide_eq_true h)

theorem lastDeal?_cons_of_ne (h : event.deal? ≠ some a) :
    lastDeal? a (event :: events) = lastDeal? a events :=
  List.find?_cons_of_neg (by simpa using h)

end Event

namespace Happening

def event? : Happening → Option Event
  | stored _ => none
  | told event => some event

/-- Whether an arena was reset. -/
def resets (a : ArenaId) : Happening → Bool
  | told (.reset b _ _) => b = a
  | _ => false

/-- The events of a past. -/
def events (past : List Happening) : List Event := past.filterMap event?

/-- How often an arena was reset. -/
def resetCount (a : ArenaId) (past : List Happening) : Nat := past.countP (resets a)

/-- How many nodes were stored in an arena since it was last reset. -/
def storedSince (a : ArenaId) (past : List Happening) : Nat :=
  (past.takeWhile fun happening => !happening.resets a).count (stored a)

/-- What an event has to tell, given what happened before: an arena that is lent was new, or went
idle when it was last given back; one that is given back was lent, and was reset just before; and a
reset tells how often the arena was reset, and how many nodes it had stored since. -/
def Fits (past : List Happening) : Happening → Prop
  | told (.acquired a reused) =>
    reused = false ∧ Event.lastDeal? a (events past) = none ∨
    reused = true ∧ Event.lastDeal? a (events past) = some (.released a .pooled)
  | told (.released a _) =>
    (∃ reused, Event.lastDeal? a (events past) = some (.acquired a reused)) ∧
    ∃ generation nodes earlier, past = told (.reset a generation nodes) :: earlier
  | told (.reset a generation nodes) =>
    generation = resetCount a past + 1 ∧ nodes = storedSince a past
  | _ => True

variable {a : ArenaId} {past : List Happening}

theorem events_told (news : List Event) (past : List Happening) :
    events (news.map told ++ past) = news ++ events past := by
  unfold events
  rw [List.filterMap_append, List.filterMap_map]
  exact congrArg (· ++ _) (List.filterMap_some ..)

theorem resetCount_cons_of_not {happening : Happening} (h : happening.resets a = false) :
    resetCount a (happening :: past) = resetCount a past :=
  List.countP_cons_of_neg (by simp [h])

theorem storedSince_cons_of_ne {happening : Happening} (h : happening.resets a = false)
    (hne : happening ≠ stored a) : storedSince a (happening :: past) = storedSince a past := by
  unfold storedSince
  rw [List.takeWhile_cons_of_pos (by simp [h]), List.count_cons_of_ne hne]

theorem storedSince_stored (a : ArenaId) (past : List Happening) :
    storedSince a (stored a :: past) = storedSince a past + 1 := by
  unfold storedSince
  rw [List.takeWhile_cons_of_pos rfl, List.count_cons_self]

theorem resetCount_reset (a : ArenaId) (generation nodes : Nat) (past : List Happening) :
    resetCount a (told (.reset a generation nodes) :: past) = resetCount a past + 1 :=
  List.countP_cons_of_pos (by simp [resets])

theorem storedSince_reset (a : ArenaId) (generation nodes : Nat) (past : List Happening) :
    storedSince a (told (.reset a generation nodes) :: past) = 0 := by
  unfold storedSince
  rw [List.takeWhile_cons_of_neg (by simp [resets])]
  rfl

end Happening

/-- The arenas of a pool are where the events say, and as many as they say. -/
structure Pool.Told (pool : Pool) (events : List Event) : Prop where
  leased : ∀ a ∈ pool.leased, ∃ reused, Event.lastDeal? a events = some (.acquired a reused)
  idle : ∀ a ∈ pool.idle, Event.lastDeal? a events = some (.released a .pooled)
  leased_count : pool.leased.length + events.countP Event.isReleased =
    events.countP Event.isAcquired
  idle_count : pool.idle.length + events.countP Event.isReused = events.countP Event.isPooled

namespace Pool.Told

variable {pool : Pool} {events : List Event} {a : ArenaId}

/-- Other events do not matter. -/
theorem other (h : pool.Told events) {event : Event} (hother : event.deal? = none) :
    pool.Told (event :: events) := by
  have hlast : ∀ b, Event.lastDeal? b (event :: events) = Event.lastDeal? b events := fun b =>
    Event.lastDeal?_cons_of_ne (by simp [hother])
  have hleased := h.leased_count
  have hidle := h.idle_count
  refine ⟨fun b hb => ?_, fun b hb => ?_, ?_, ?_⟩
  · rw [hlast]
    exact h.leased b hb
  · rw [hlast]
    exact h.idle b hb
  · cases event <;> simp_all [Event.deal?, Event.isReleased, Event.isAcquired]
  · cases event <;> simp_all [Event.deal?, Event.isReused, Event.isPooled]

theorem others (h : pool.Told events) {news : List Event}
    (hother : ∀ event ∈ news, event.deal? = none) : pool.Told (news ++ events) := by
  induction news with
  | nil => exact h
  | cons event news ih =>
    obtain ⟨hevent, hnews⟩ := List.forall_mem_cons.mp hother
    exact (ih hnews).other hevent

/-- An arena that is lent was lent last, and those that were lent before still are. -/
theorem leased_acquired (h : pool.Told events) (a : ArenaId) (reused : Bool) {b : ArenaId}
    (hb : b ∈ pool.leased ++ [a]) :
    ∃ reused', Event.lastDeal? b (.acquired a reused :: events) = some (.acquired b reused') := by
  by_cases hab : a = b
  · subst hab
    exact ⟨reused, Event.lastDeal?_cons_of_eq rfl⟩
  · rw [Event.lastDeal?_cons_of_ne (by simpa [Event.deal?] using hab)]
    rcases List.mem_append.mp hb with hb | hb
    · exact h.leased b hb
    · exact absurd (List.mem_singleton.mp hb).symm hab

theorem lendIdle (h : pool.Told events) (hnodup : pool.members.Nodup) {rest : List ArenaId}
    (hidle : pool.idle = a :: rest) :
    Pool.Told { pool with idle := rest, leased := pool.leased ++ [a] }
      (.acquired a true :: events) := by
  have hfront : (a :: rest).Nodup := hidle ▸ (List.nodup_append.mp hnodup).1
  have hleased := h.leased_count
  have hcount := h.idle_count
  rw [hidle] at hcount
  refine ⟨fun b hb => h.leased_acquired a true hb, fun b hb => ?_, ?_, ?_⟩
  · have hab : a ≠ b := fun hab => (List.nodup_cons.mp hfront).1 (hab ▸ hb)
    rw [Event.lastDeal?_cons_of_ne (by simpa [Event.deal?] using hab)]
    exact h.idle b (hidle ▸ List.mem_cons_of_mem a hb)
  · simp [List.countP_cons, Event.isReleased, Event.isAcquired]
    omega
  · simp [List.countP_cons, Event.isReused, Event.isPooled] at hcount ⊢
    omega

theorem lendNew (h : pool.Told events) (hidle : pool.idle = []) (a : ArenaId) :
    Pool.Told { pool with idle := [], leased := pool.leased ++ [a] }
      (.acquired a false :: events) := by
  have hleased := h.leased_count
  have hcount := h.idle_count
  rw [hidle] at hcount
  refine ⟨fun b hb => h.leased_acquired a false hb, fun b hb => absurd hb List.not_mem_nil, ?_, ?_⟩
  · simp [List.countP_cons, Event.isReleased, Event.isAcquired]
    omega
  · simpa [List.countP_cons, Event.isReused, Event.isPooled] using hcount

theorem takeBack (h : pool.Told events) (hnodup : pool.members.Nodup) (ha : a ∈ pool.leased)
    (outcome : ReleaseOutcome) :
    Pool.Told { pool with
        idle := if outcome = .pooled then a :: pool.idle else pool.idle
        leased := pool.leased.erase a }
      (.released a outcome :: events) := by
  obtain ⟨-, hlent, hdisjoint⟩ := List.nodup_append.mp hnodup
  have hold : ∀ b, a ≠ b →
      Event.lastDeal? b (.released a outcome :: events) = Event.lastDeal? b events := fun b hab =>
    Event.lastDeal?_cons_of_ne (by simpa [Event.deal?] using hab)
  have hleased := h.leased_count
  have hcount := h.idle_count
  refine ⟨fun b hb => ?_, fun b hb => ?_, ?_, ?_⟩
  · obtain ⟨hne, hb⟩ := hlent.mem_erase_iff.mp hb
    rw [hold b hne.symm]
    exact h.leased b hb
  · have hstays : b ∈ pool.idle → Event.lastDeal? b (.released a outcome :: events) =
        some (.released b .pooled) := fun hb => by
      rw [hold b fun hab => hdisjoint b hb a ha hab.symm]
      exact h.idle b hb
    dsimp only at hb
    split at hb
    next hpooled =>
      subst hpooled
      rcases List.mem_cons.mp hb with rfl | hb
      · exact Event.lastDeal?_cons_of_eq rfl
      · exact hstays hb
    next => exact hstays hb
  · have hpos := List.length_pos_of_mem ha
    simp [List.countP_cons, Event.isReleased, Event.isAcquired, List.length_erase_of_mem ha]
    omega
  · dsimp only
    split <;> simp_all [Event.isReused, Event.isPooled]
    omega

end Pool.Told

end MarkupArena
