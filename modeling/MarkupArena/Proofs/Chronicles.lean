import MarkupArena.Proofs.Composing
import MarkupArena.Proofs.Runs

/-! What a listener hears of a run. A chronicle of the run has every event that the listener was
told of and, between them, every node that was stored, so that the events can be held against what
happened. -/
namespace MarkupArena

variable {σ α : Type}

namespace World

/-- What was delivered to a listener, in the order of arrival. -/
def deliveries (w : World) (l : Listener) : List Delivery :=
  w.log.toList.filter fun delivery => delivery.listener = l

/-- The events that a listener was told of, the latest first. -/
def heard (w : World) (l : Listener) : List Event :=
  ((w.deliveries l).map Delivery.event).reverse

/-- A listener that was added heard as many events as were counted for it, and they are numbered
from one. -/
structure Numbered (w : World) (l : Listener) : Prop where
  added : l.index < w.delivered.size
  counted : w.delivered.getD l.index 0 = (w.deliveries l).length
  seqs : (w.deliveries l).map Delivery.seq = List.range' 1 (w.deliveries l).length

variable {w w' : World} {l : Listener}

theorem deliveries_congr (h : w'.log = w.log) : w'.deliveries l = w.deliveries l := by
  rw [deliveries, deliveries, h]

theorem heard_congr (h : w'.log = w.log) : w'.heard l = w.heard l := by
  rw [heard, heard, deliveries_congr h]

theorem Numbered.congr (hw : w.Numbered l) (hlog : w'.log = w.log)
    (hdelivered : w'.delivered = w.delivered) : w'.Numbered l := by
  have hsame := deliveries_congr (l := l) hlog
  exact ⟨hdelivered ▸ hw.added, by rw [hdelivered, hsame, hw.counted],
    by rw [hsame, hw.seqs]⟩

theorem deliveries_tell_of_ne {listener : Option Listener} (hne : listener ≠ some l)
    (event : Event) : (w.tell listener event).deliveries l = w.deliveries l := by
  cases listener with
  | none => rfl
  | some other =>
    have hother : other ≠ l := fun h => hne (congrArg some h)
    simp [deliveries, tell, deliver, hother]

theorem deliveries_tell (w : World) (l : Listener) (event : Event) :
    (w.tell (some l) event).deliveries l =
      w.deliveries l ++ [⟨l, w.delivered.getD l.index 0 + 1, event⟩] := by
  simp [deliveries, tell, deliver]

theorem heard_tell_of_ne {listener : Option Listener} (hne : listener ≠ some l) (event : Event) :
    (w.tell listener event).heard l = w.heard l := by
  rw [heard, deliveries_tell_of_ne hne, heard]

theorem heard_tell (w : World) (l : Listener) (event : Event) :
    (w.tell (some l) event).heard l = event :: w.heard l := by
  rw [heard, deliveries_tell, heard]
  simp

theorem Numbered.tell (hw : w.Numbered l) (listener : Option Listener) (event : Event) :
    (w.tell listener event).Numbered l := by
  by_cases h : listener = some l
  · subst h
    have hadded := hw.added
    have hcount : (w.tell (some l) event).delivered.getD l.index 0 =
        (w.deliveries l).length + 1 := by
      simp [World.tell, deliver, Array.getD_eq_getD_getElem?, hadded, ← hw.counted]
    refine ⟨?_, ?_, ?_⟩
    · simpa [World.tell, deliver] using hadded
    · rw [hcount, deliveries_tell, List.length_append, List.length_singleton]
    · rw [deliveries_tell, List.map_append, hw.seqs, hw.counted, List.length_append,
        List.length_singleton, List.range'_concat]
      simp [Nat.add_comm]
  · have hsame := deliveries_tell_of_ne (w := w) h event
    cases listener with
    | none => exact hw
    | some other =>
      have hindex : other.index ≠ l.index := fun hi => h (congrArg (some ∘ Listener.mk) hi)
      refine ⟨?_, ?_, ?_⟩
      · simpa [World.tell, deliver] using hw.added
      · rw [hsame, ← hw.counted]
        simp [World.tell, deliver, Array.getD_eq_getD_getElem?, hindex]
      · rw [hsame, hw.seqs]

/-- A listener may be told of events, one after another, and all else leaves alone what was
delivered to it. -/
inductive Hears (l : Listener) (w : World) : World → Prop where
  | start : Hears l w w
  | aside {u v : World} (log : v.log = u.log)
      (counted : l.index < u.delivered.size → l.index < v.delivered.size ∧
        v.delivered.getD l.index 0 = u.delivered.getD l.index 0) :
      Hears l w u → Hears l w v
  | tell {u : World} (listener : Option Listener) (event : Event) :
      Hears l w u → Hears l w (u.tell listener event)

namespace Hears

theorem congr {u v : World} (h : Hears l w u) (log : v.log = u.log)
    (delivered : v.delivered = u.delivered) : Hears l w v :=
  .aside log (fun hadded => ⟨delivered ▸ hadded, by rw [delivered]⟩) h

/-- Nothing that was heard is forgotten. -/
theorem suffix (h : Hears l w w') : w.heard l <:+ w'.heard l := by
  induction h with
  | start => exact List.suffix_rfl
  | aside log _ _ ih => rwa [heard_congr log]
  | @tell u listener event _ ih =>
    refine ih.trans ?_
    by_cases h : listener = some l
    · rw [h, heard_tell]
      exact List.suffix_cons event _
    · exact ⟨[], (heard_tell_of_ne h event).symm⟩

theorem numbered (h : Hears l w w') (hw : w.Numbered l) : w'.Numbered l := by
  induction h with
  | start => exact hw
  | aside log counted _ ih =>
    obtain ⟨hadded, hcount⟩ := counted ih.added
    have hsame := deliveries_congr (l := l) log
    exact ⟨hadded, by rw [hcount, hsame, ih.counted], by rw [hsame, ih.seqs]⟩
  | tell listener event _ ih => exact ih.tell listener event

end Hears

end World

/-- What a chronicle has to tell: that a node was stored in an arena, or that the listener was told
of an event. -/
inductive Happening where
  | stored (a : ArenaId)
  | told (event : Event)
  deriving DecidableEq, Repr

/-- The steps of a run that a listener may be told of, and those that open something. No second pool
tells this listener. -/
inductive Incident (l : Listener) : {α : Type} → Action α → Prop where
  | link (a source : ArenaId) : Incident l (link a source)
  | recordSite (a : ArenaId) (tag : String) (site : CallSite) (given : List Attribute) :
      Incident l (Build.recordSite a tag site given)
  | reset (a : ArenaId) : Incident l (reset a)
  | addListener : Incident l addListener
  | openArena (options : ArenaOptions) (listener : Option Listener) :
      Incident l (openArena options listener)
  | openPool (options : PoolOptions) {listener : Option Listener} (other : listener ≠ some l) :
      Incident l (openPool options listener)
  | openCache (maxEntries : Option Number) : Incident l (openCache maxEntries)
  | updateCache {α : Type} (c : CacheId) (step : Cache → α × Cache) :
      Incident l (updateCache c step)
  | acquire (p : PoolId) : Incident l (acquire p)
  | release (p : PoolId) (a : ArenaId) : Incident l (release p a)

/-- The operations there are besides a second pool that tells a listener: those that work on an
arena, and those that are incidents of their own. -/
def Incidental (l : Listener) {α : Type} (act : Action α) : Prop :=
  (∃ a, WorksOn a act) ∨ Incident l act

/-- A run with all that happened in it, the latest first: every node that was stored, and what the
listener was told at every incident. Where no arena was opened, nothing is stored. -/
inductive Chronicle (l : Listener) (w₀ : World) : List Happening → World → Prop where
  | start : Chronicle l w₀ [] w₀
  | stored {past : List Happening} {w w' : World} {a : ArenaId} {node : Node} {h : Handle} :
      Chronicle l w₀ past w → w.Opened a → perform (allocate a node) w = (.ok h, w') →
      Chronicle l w₀ (.stored a :: past) w'
  | nowhere {past : List Happening} {w : World} {a : ArenaId} (node : Node) :
      Chronicle l w₀ past w → ¬ w.Opened a → Chronicle l w₀ past (perform (allocate a node) w).2
  | incident {past : List Happening} {w : World} {α : Type} {act : Action α} {news : List Event} :
      Chronicle l w₀ past w → Incident l act →
      (perform act w).2.heard l = news ++ w.heard l →
      Chronicle l w₀ (news.map .told ++ past) (perform act w).2

/-- What a listener hears at an incident. -/
theorem Incident.hears {l : Listener} {act : Action α} (h : Incident l act) (w : World) :
    w.Hears l (perform act w).2 := by
  cases h with
  | link a source =>
    rcases perform_link_cases w a source with ⟨-, hrun⟩ | ⟨-, hrun⟩ <;> rw [hrun]
    · exact .start
    · exact .tell _ _ (World.Hears.start.congr rfl rfl)
  | recordSite a tag site given =>
    rw [Build.perform_recordSite]
    dsimp only
    unfold Build.announce
    split
    · exact .tell _ _ .start
    · exact .start
  | reset a => exact .tell _ _ (World.Hears.start.congr rfl rfl)
  | addListener =>
    refine .aside (u := w) rfl (fun hadded => ⟨?_, ?_⟩) .start
    · exact hadded.trans (Nat.lt_of_lt_of_eq (Nat.lt_succ_self _) (Array.size_push 0).symm)
    · show (w.delivered.push 0).getD l.index 0 = _
      simp [Array.getD_eq_getD_getElem?, Array.getElem?_push, hadded.ne]
  | openArena => exact World.Hears.start.congr rfl rfl
  | openPool => exact World.Hears.start.congr rfl rfl
  | openCache => exact World.Hears.start.congr rfl rfl
  | updateCache => exact World.Hears.start.congr rfl rfl
  | acquire q =>
    rw [perform_acquire]
    split <;> exact .tell _ _ (World.Hears.start.congr rfl rfl)
  | release q a =>
    by_cases ha : a ∈ (w.pool q).leased
    · rw [perform_release ha]
      have hreset : w.Hears l (w.takeBack q a) := .tell _ _ (World.Hears.start.congr rfl rfl)
      exact .tell _ _ (hreset.congr rfl rfl)
    · rw [perform_release_of_not_mem ha]
      exact .start

theorem Incident.operation {l : Listener} {act : Action α} (h : Incident l act) :
    Operation act := by
  cases h <;> constructor

section
variable {l : Listener} {w₀ : World}

theorem Incident.invariant_chronicle {act : Action α} (h : Incident l act) :
    Invariant (fun w => ∃ past, Chronicle l w₀ past w) act := by
  rintro w ⟨past, hpast⟩
  obtain ⟨news, hnews⟩ := (h.hears w).suffix
  exact ⟨⟨_, hpast.incident h hnews.symm⟩, fun _ _ => True.intro⟩

theorem invariant_allocate_chronicle (a : ArenaId) (node : Node) :
    Invariant (fun w => ∃ past, Chronicle l w₀ past w) (allocate a node) := by
  rintro w ⟨past, hpast⟩
  refine ⟨?_, fun _ _ => True.intro⟩
  by_cases ha : w.Opened a
  · rcases hrun : perform (allocate a node) w with ⟨f | handle, w'⟩
    · rw [allocate_error hrun]
      exact ⟨past, hpast⟩
    · exact ⟨_, hpast.stored ha hrun⟩
  · exact ⟨past, hpast.nowhere node ha⟩

/-- Work on an arena is made of incidents, of nodes that are stored, and of looks. -/
theorem composes_chronicle (a : ArenaId) :
    Composes (fun _ (work : Action _) =>
      Invariant (fun w => ∃ past, Chronicle l w₀ past w) work) a :=
  { stepwise_invariant _ with
    look := fun _ => invariant_observe
    allocate := invariant_allocate_chronicle a
    link := fun source => (Incident.link a source).invariant_chronicle
    reset := (Incident.reset a).invariant_chronicle
    recordSite := fun tag site given => (Incident.recordSite a tag site given).invariant_chronicle }

/-- There is a chronicle of whatever clients do. -/
theorem Client.chronicle {Held : Element → Prop} {Own : σ → Prop} {work : Session σ α}
    (hwork : Client (Incidental l) Held Own work) (hheld : ∀ e, Held e) {own own' : σ}
    (hown : Own own) {outcome : Except Failure α} {w : World}
    (hrun : perform work (w₀, own) = (outcome, w, own')) : ∃ past, Chronicle l w₀ past w := by
  have hstands : ∀ a, StandsRevision (fun w => ∃ past, Chronicle l w₀ past w) Held a := by
    intro a
    have hon : ∀ {α : Type} {act : Action α}, WorksOn a act →
        Invariant (fun w => ∃ past, Chronicle l w₀ past w) act := (composes_chronicle a).worksOn
    exact ⟨fun _ _ _ _ e _ => hheld e, fun source => hon (.link source),
      fun children => hon (.allocate _), fun replacement => hon (.materialize replacement),
      fun h results _ => hon (.settle _ h results)⟩
  have hcall : ∀ {α : Type} {act : Action α}, Incidental l act →
      Invariant (fun w => ∃ past, Chronicle l w₀ past w) act := by
    rintro α act (⟨a, hon⟩ | hincident)
    · exact (composes_chronicle a).worksOn hon
    · exact hincident.invariant_chronicle
  have hkeeps := hwork.invariant hstands hcall
  exact (hkeeps.of_perform (s := (w₀, own)) ⟨⟨[], .start⟩, hown⟩ hrun).1

end

end MarkupArena
