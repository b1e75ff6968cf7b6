import Mathlib.Data.Finset.Card
import Mathlib.Data.List.Nodup
import MarkupArena.Cache

/-! Which keys a cache keeps, told from the calls it was used with: those used most recently, as
many as it may keep. A use is a store, or a look-up that found its key. -/
namespace MarkupArena

/-- Keys by their latest use, the most recent first. The uses are given in the same order. -/
def recent : List String → List String
  | [] => []
  | key :: earlier => key :: (recent earlier).filter (· ≠ key)

section
variable {uses : List String} {key other : String}

@[simp] theorem mem_recent : key ∈ recent uses ↔ key ∈ uses := by
  induction uses with
  | nil => rfl
  | cons used earlier ih =>
    by_cases hkey : key = used
    · simp [recent, hkey]
    · simp [recent, hkey, ih]

theorem nodup_recent (uses : List String) : (recent uses).Nodup := by
  induction uses with
  | nil => exact List.nodup_nil
  | cons used earlier ih =>
    refine List.nodup_cons.mpr ⟨fun h => ?_, ih.filter _⟩
    simp at h

theorem takeWhile_recent (uses : List String) (key : String) :
    (recent uses).takeWhile (· ≠ key) = recent (uses.takeWhile (· ≠ key)) := by
  induction uses with
  | nil => rfl
  | cons used earlier ih =>
    by_cases hused : used = key
    · simp [recent, hused]
    · -- the key is none of those that leave, so both cuts come at the same place
      have hcut : (fun k => !decide (k ≠ used) || decide (k ≠ key)) =
          fun k => decide (k ≠ key) := by
        funext k
        by_cases hk : k = key
        · simp [hk, Ne.symm hused]
        · simp [hk]
      rw [recent, List.takeWhile_cons_of_pos (by simpa using hused), List.takeWhile_filter, hcut,
        ih, List.takeWhile_cons_of_pos (by simpa using hused), recent]

theorem length_recent (uses : List String) : (recent uses).length = uses.toFinset.card := by
  rw [← List.toFinset_card_of_nodup (nodup_recent uses)]
  congr 1
  ext key
  simp

/-- Keys come in the order of their latest uses. -/
theorem pairwise_recent (uses : List String) :
    (recent uses).Pairwise fun newer older => uses.idxOf newer < uses.idxOf older := by
  induction uses with
  | nil => exact List.Pairwise.nil
  | cons used earlier ih =>
    refine List.pairwise_cons.mpr ⟨fun key hkey => ?_, ?_⟩
    · have hne : key ≠ used := by simpa using (List.mem_filter.mp hkey).2
      rw [List.idxOf_cons_self, List.idxOf_cons_ne _ hne.symm]
      exact Nat.succ_pos _
    · refine (ih.filter _).imp_of_mem fun {newer older} hnewer holder hlt => ?_
      have hnewer : newer ≠ used := by simpa using (List.mem_filter.mp hnewer).2
      have holder : older ≠ used := by simpa using (List.mem_filter.mp holder).2
      rw [List.idxOf_cons_ne _ hnewer.symm, List.idxOf_cons_ne _ holder.symm]
      exact Nat.succ_lt_succ hlt

end

theorem mem_take_iff {keys : List String} {key : String} {n : Nat} :
    key ∈ keys.take n ↔ key ∈ keys ∧ (keys.takeWhile (· ≠ key)).length < n := by
  induction keys generalizing n with
  | nil => simp
  | cons first rest ih =>
    cases n with
    | zero => simp
    | succ n =>
      by_cases hfirst : first = key
      · simp [hfirst]
      · rw [List.take_succ_cons, List.mem_cons, List.mem_cons, ih,
          List.takeWhile_cons_of_pos (by simpa using hfirst)]
        simp [Ne.symm hfirst]

/-- A key is among the most recent ones exactly if few other keys were used after it. -/
theorem mem_take_recent {uses : List String} {key : String} {n : Nat} :
    key ∈ (recent uses).take n ↔
      key ∈ uses ∧ (uses.takeWhile (· ≠ key)).toFinset.card < n := by
  rw [mem_take_iff, mem_recent, takeWhile_recent, length_recent]

/-- A key moves to the front. What falls off behind does not depend on what fell off before. -/
theorem take_cons_take {keys : List String} (hnodup : keys.Nodup) (key : String) (n : Nat) :
    (key :: (keys.take n).filter (· ≠ key)).take n = (key :: keys.filter (· ≠ key)).take n := by
  cases n with
  | zero => rfl
  | succ n =>
    rw [List.take_succ_cons, List.take_succ_cons]
    congr 1
    induction keys generalizing n with
    | nil => rfl
    | cons first rest ih =>
      obtain ⟨hfirst, hrest⟩ := List.nodup_cons.mp hnodup
      rw [List.take_succ_cons]
      by_cases hkey : first = key
      · subst hkey
        have hself : ∀ l : List String, (∀ k ∈ l, k ∈ rest) → l.filter (· ≠ first) = l := by
          intro l hl
          rw [List.filter_eq_self]
          intro k hk
          have hne : k ≠ first := fun h => hfirst (h ▸ hl k hk)
          simpa using hne
        rw [List.filter_cons_of_neg (by simp), List.filter_cons_of_neg (by simp),
          hself _ fun k hk => List.mem_of_mem_take hk, hself _ fun k hk => hk, List.take_take,
          Nat.min_self]
      · rw [List.filter_cons_of_pos (by simpa using hkey),
          List.filter_cons_of_pos (by simpa using hkey)]
        cases n with
        | zero => rfl
        | succ n =>
          rw [List.take_succ_cons, List.take_succ_cons, ih hrest]

/-- Of keys in some order, only the last one is missing when all but one stay. -/
theorem rel_of_not_mem_take {r : String → String → Prop} {keys : List String}
    (hordered : keys.Pairwise r) {n : Nat} (hlength : keys.length ≤ n + 1) {key : String}
    (hkey : key ∈ keys) (hout : key ∉ keys.take n) :
    keys.length = n + 1 ∧ ∀ other ∈ keys, other ≠ key → r other key := by
  have hsplit : keys.take n ++ keys.drop n = keys := List.take_append_drop n keys
  have hdropped : key ∈ keys.drop n :=
    (List.mem_append.mp (hsplit.symm ▸ hkey)).resolve_left hout
  have hcount : (keys.drop n).length = keys.length - n := List.length_drop
  have hpos : 0 < (keys.drop n).length := List.length_pos_of_mem hdropped
  obtain ⟨last, hlast⟩ := List.length_eq_one_iff.mp (by omega : (keys.drop n).length = 1)
  obtain rfl : key = last := List.mem_singleton.mp (hlast ▸ hdropped)
  refine ⟨by omega, fun other hother hne => ?_⟩
  rw [← hsplit, hlast] at hordered hother
  obtain ⟨-, -, hbefore⟩ := List.pairwise_append.mp hordered
  rcases List.mem_append.mp hother with htaken | hlast
  · exact hbefore other htaken key (List.mem_singleton.mpr rfl)
  · exact absurd (List.mem_singleton.mp hlast) hne

/-- A key that leaves when another comes to the front was the last of as many as there may be. -/
theorem last_of_evicted {r : String → String → Prop} {keys : List String}
    (hordered : keys.Pairwise r) {n : Nat} (hpos : 0 < n) (hfits : keys.length ≤ n)
    {used key : String} (hkey : key ∈ keys)
    (hgone : key ∉ (used :: keys.filter (· ≠ used)).take n) :
    used ∉ keys ∧ keys.length = n ∧ ∀ other ∈ keys, other ≠ key → r other key := by
  obtain ⟨n, rfl⟩ := Nat.exists_eq_succ_of_ne_zero hpos.ne'
  rw [List.take_succ_cons, List.mem_cons, not_or] at hgone
  obtain ⟨hne, hgone⟩ := hgone
  have hkept : key ∈ keys.filter (· ≠ used) := List.mem_filter.mpr ⟨hkey, by simpa using hne⟩
  have habsent : used ∉ keys := by
    intro hmem
    have hshorter : (keys.filter (· ≠ used)).length < keys.length :=
      List.length_filter_lt_length_iff_exists.mpr ⟨used, hmem, by simp⟩
    rw [List.take_of_length_le (by omega)] at hgone
    exact hgone hkept
  have hsame : keys.filter (· ≠ used) = keys := by
    rw [List.filter_eq_self]
    intro other hother
    have hother : other ≠ used := fun h => habsent (h ▸ hother)
    simpa using hother
  rw [hsame] at hgone
  exact ⟨habsent, rel_of_not_mem_take hordered hfits hkey hgone⟩

namespace Cache

variable {cache : Cache} {key other : String} {markup : Rendered}

/-- The keys that are present, the most recently used first. -/
def keys (cache : Cache) : List String := (cache.entries.map Prod.fst).reverse

theorem length_keys (cache : Cache) : cache.keys.length = cache.size := by simp [keys, size]

theorem mem_keys_iff : key ∈ cache.keys ↔ cache.has key = true := by
  simp [keys, has, peek?]

theorem has_iff_mem : cache.has key = true ↔ ∃ markup, (key, markup) ∈ cache.entries := by
  simp [has, peek?]

theorem mem_entries_of_peek? (h : cache.peek? key = some markup) :
    (key, markup) ∈ cache.entries := by
  obtain ⟨⟨found, markup'⟩, hfind, rfl⟩ := Option.map_eq_some_iff.mp h
  have hkey : found = key := by simpa using List.find?_some hfind
  exact hkey ▸ List.mem_of_find?_eq_some hfind

theorem keys_without (entries : List (String × Rendered)) (key : String) :
    ((without entries key).map Prod.fst).reverse =
      (entries.map Prod.fst).reverse.filter (· ≠ key) := by
  have hwithout : without entries key =
      entries.filter ((fun k => decide (k ≠ key)) ∘ Prod.fst) := by
    refine List.filter_congr fun entry _ => ?_
    rw [Bool.eq_iff_iff]
    simp
  rw [List.filter_reverse, List.filter_map, hwithout]

theorem keys_touch (entries : List (String × Rendered)) (key : String) (markup : Rendered) :
    ((without entries key ++ [(key, markup)]).map Prod.fst).reverse =
      key :: (entries.map Prod.fst).reverse.filter (· ≠ key) := by
  rw [List.map_append, List.reverse_append, keys_without]
  rfl

theorem keys_set : (cache.set key markup).keys =
    (key :: cache.keys.filter (· ≠ key)).take cache.maxEntries := by
  rw [keys, keys, ← keys_touch, set, trim, List.map_drop, List.reverse_drop, List.take_eq_take_iff]
  simp
  omega

theorem keys_get (hhas : cache.has key = true) :
    (cache.get key).2.keys = key :: cache.keys.filter (· ≠ key) := by
  obtain ⟨markup, hmarkup⟩ := Option.isSome_iff_exists.mp hhas
  rw [get, hmarkup]
  exact keys_touch ..

/-- A call of a cache. To ask is what a request for rendered markup starts with: a look-up that
counts. -/
inductive Call where
  | get (key : String)
  | has (key : String)
  | set (key : String) (markup : Rendered)
  | ask (key : String)
  | delete (key : String)
  | clear
  deriving DecidableEq, Repr

namespace Call

def apply (cache : Cache) : Call → Cache
  | get key => (cache.get key).2
  | has _ => cache
  | set key markup => cache.set key markup
  | ask key => (cache.lookup key).2
  | delete key => (cache.delete key).2
  | clear => cache.clear

/-- The key that a call uses. -/
def use? (cache : Cache) : Call → Option String
  | get key => if cache.has key then some key else none
  | ask key => if cache.has key then some key else none
  | set key _ => some key
  | _ => none

theorem stored_or_found {cache : Cache} {call : Call} {key : String}
    (h : call.use? cache = some key) :
    (∃ markup, call = set key markup) ∨ cache.has key = true := by
  have hlook : ∀ looked, (if cache.has looked then some looked else none) = some key →
      cache.has key = true := by
    intro looked hlooked
    obtain ⟨hhas, rfl⟩ : cache.has looked = true ∧ looked = key := by simpa using hlooked
    exact hhas
  cases call with
  | set stored markup => exact .inl ⟨markup, Option.some.inj h ▸ rfl⟩
  | get looked => exact .inr (hlook looked h)
  | ask looked => exact .inr (hlook looked h)
  | _ => cases h

def stored? (key : String) : Call → Option Rendered
  | set stored markup => if stored = key then some markup else none
  | _ => none

def drops (key : String) : Call → Bool
  | delete dropped => dropped = key
  | clear => true
  | _ => false

def asks : Call → Bool
  | ask _ => true
  | _ => false

/-- A call that only sees whether a key is there. -/
def peeks : Call → Bool
  | has _ => true
  | _ => false

end Call

/-- What a cache is after some calls, the latest of which comes first. -/
def replay (cache : Cache) : List Call → Cache
  | [] => cache
  | call :: earlier => call.apply (replay cache earlier)

/-- The keys that some calls used, in the same order. -/
def uses (cache : Cache) : List Call → List String
  | [] => []
  | call :: earlier => (call.use? (replay cache earlier)).toList ++ uses cache earlier

/-- What was stored last under a key. -/
def latest? (key : String) (calls : List Call) : Option Rendered :=
  calls.findSome? (Call.stored? key)

variable {call : Call} {calls earlier : List Call}

theorem get_of_not_has (h : cache.has key = false) : cache.get key = (none, cache) := by
  have hnone : cache.peek? key = none := by simpa [has] using h
  rw [get, hnone]

theorem lookup_snd (cache : Cache) (key : String) : (cache.lookup key).2.entries =
    (cache.get key).2.entries ∧ (cache.lookup key).2.maxEntries = cache.maxEntries ∧
    (cache.lookup key).2.hits + (cache.lookup key).2.misses = cache.hits + cache.misses + 1 := by
  rw [lookup]
  cases hmarkup : cache.peek? key with
  | none => simp [get, hmarkup, Nat.add_assoc]
  | some markup => simp [get, hmarkup, Nat.add_right_comm]

theorem length_filter_keys_lt (h : cache.has key = true) :
    (cache.keys.filter (· ≠ key)).length < cache.keys.length :=
  List.length_filter_lt_length_iff_exists.mpr ⟨key, mem_keys_iff.mpr h, by simp⟩

/-- What a call does to the keys: the one it uses comes first, and those it drops go. -/
theorem keys_apply (hsize : cache.size ≤ cache.maxEntries) (call : Call) :
    (call.apply cache).keys = match call.use? cache with
      | some key => (key :: cache.keys.filter (· ≠ key)).take cache.maxEntries
      | none => cache.keys.filter fun key => !call.drops key := by
  have hstay : cache.keys = cache.keys.filter fun key => !false := by simp
  have hlook : ∀ key, (cache.get key).2.keys = match (if cache.has key then some key else none) with
      | some key => (key :: cache.keys.filter (· ≠ key)).take cache.maxEntries
      | none => cache.keys.filter fun key => !false := by
    intro key
    by_cases hhas : cache.has key = true
    · have hfits : (key :: cache.keys.filter (· ≠ key)).length ≤ cache.maxEntries :=
        (Nat.succ_le_of_lt (length_filter_keys_lt hhas)).trans (cache.length_keys.trans_le hsize)
      rw [if_pos hhas, keys_get hhas]
      exact (List.take_of_length_le hfits).symm
    · rw [if_neg hhas, get_of_not_has (Bool.not_eq_true _ ▸ hhas)]
      exact hstay
  cases call with
  | get key => exact hlook key
  | has key => exact hstay
  | set key markup => exact keys_set
  | ask key =>
    have hsame : (cache.lookup key).2.keys = (cache.get key).2.keys := by
      rw [keys, (cache.lookup_snd key).1, keys]
    exact hsame.trans (hlook key)
  | delete key =>
    refine (keys_without _ _).trans (List.filter_congr fun other _ => ?_)
    simp [Call.drops, eq_comm]
  | clear =>
    have hnone : cache.keys.filter (fun key => !true) = [] := by simp
    exact hnone.symm

theorem maxEntries_apply (cache : Cache) (call : Call) :
    (call.apply cache).maxEntries = cache.maxEntries := by
  cases call with
  | get key =>
    show (cache.get key).2.maxEntries = _
    rw [get]
    split <;> rfl
  | ask key => exact (cache.lookup_snd key).2.1
  | _ => rfl

theorem counts_apply (cache : Cache) (call : Call) :
    (call.apply cache).hits + (call.apply cache).misses =
      cache.hits + cache.misses + if call.asks then 1 else 0 := by
  cases call with
  | get key =>
    show (cache.get key).2.hits + (cache.get key).2.misses = _
    rw [get]
    split <;> rfl
  | ask key => exact (cache.lookup_snd key).2.2
  | _ => rfl

theorem size_apply_le (hsize : cache.size ≤ cache.maxEntries) (call : Call) :
    (call.apply cache).size ≤ (call.apply cache).maxEntries := by
  rw [← length_keys, keys_apply hsize, maxEntries_apply]
  split
  · exact List.length_take_le ..
  · exact (List.length_filter_le ..).trans (cache.length_keys.trans_le hsize)

/-- An entry is what a call stores, or was there before. -/
theorem mem_entries_apply (h : (key, markup) ∈ (call.apply cache).entries) :
    call.stored? key = some markup ∨
      call.stored? key = none ∧ (key, markup) ∈ cache.entries := by
  have hlook : ∀ looked, (key, markup) ∈ (cache.get looked).2.entries →
      (key, markup) ∈ cache.entries := by
    intro looked h
    rw [get] at h
    split at h
    next found hfound =>
      rcases List.mem_append.mp h with hmem | hmem
      · exact List.mem_of_mem_filter hmem
      · obtain ⟨rfl, rfl⟩ := Prod.mk.inj (List.mem_singleton.mp hmem)
        exact mem_entries_of_peek? hfound
    next => exact h
  cases call with
  | get looked => exact .inr ⟨rfl, hlook looked h⟩
  | has looked => exact .inr ⟨rfl, h⟩
  | set stored markup' =>
    rcases List.mem_append.mp (List.mem_of_mem_drop h) with hmem | hmem
    · obtain ⟨hmem, hne⟩ := List.mem_filter.mp hmem
      have hne : stored ≠ key := Ne.symm (by simpa using hne)
      exact .inr ⟨if_neg hne, hmem⟩
    · obtain ⟨rfl, rfl⟩ := Prod.mk.inj (List.mem_singleton.mp hmem)
      exact .inl (if_pos rfl)
  | ask looked => exact .inr ⟨rfl, hlook looked ((cache.lookup_snd looked).1 ▸ h)⟩
  | delete dropped => exact .inr ⟨rfl, List.mem_of_mem_filter h⟩
  | clear => cases h

section
variable (requested : Option Number)

theorem boundFor_pos : 0 < boundFor requested := by
  rw [boundFor]
  split
  · exact Nat.le_max_left ..
  · decide

theorem maxEntries_replay (calls : List Call) :
    (replay (empty requested) calls).maxEntries = boundFor requested := by
  induction calls with
  | nil => rfl
  | cons call earlier ih => exact (maxEntries_apply ..).trans ih

theorem size_replay_le (calls : List Call) :
    (replay (empty requested) calls).size ≤ (replay (empty requested) calls).maxEntries := by
  induction calls with
  | nil => exact Nat.zero_le _
  | cons call earlier ih => exact size_apply_le ih call

theorem counts_replay (calls : List Call) :
    (replay (empty requested) calls).hits + (replay (empty requested) calls).misses =
      calls.countP Call.asks := by
  induction calls with
  | nil => rfl
  | cons call earlier ih =>
    rw [List.countP_cons, ← ih]
    exact counts_apply ..

/-- Under a key is what was stored there last. -/
theorem latest?_of_mem {calls : List Call}
    (h : (key, markup) ∈ (replay (empty requested) calls).entries) :
    latest? key calls = some markup := by
  induction calls with
  | nil => cases h
  | cons call earlier ih =>
    rw [latest?, List.findSome?_cons]
    rcases mem_entries_apply h with hstored | ⟨hkept, hmem⟩
    · rw [hstored]
    · rw [hkept]
      exact ih hmem

/-- Keys come in the order of their latest uses. -/
theorem keys_sublist (calls : List Call) :
    (replay (empty requested) calls).keys.Sublist (recent (uses (empty requested) calls)) := by
  induction calls with
  | nil => exact List.Sublist.refl _
  | cons call earlier ih =>
    rw [replay, keys_apply (size_replay_le requested earlier), uses]
    cases hused : call.use? (replay (empty requested) earlier) with
    | none => exact List.filter_sublist.trans ih
    | some key => exact (List.take_sublist ..).trans ((ih.filter _).cons_cons key)

/-- Where nothing is dropped, the keys are the most recently used ones, as many as there may be. -/
theorem keys_replay {calls : List Call} (hdrops : ∀ call ∈ calls, ∀ key, call.drops key = false) :
    (replay (empty requested) calls).keys =
      (recent (uses (empty requested) calls)).take (boundFor requested) := by
  induction calls with
  | nil => exact List.take_nil.symm
  | cons call earlier ih =>
    have ih := ih fun call hmem => hdrops call (List.mem_cons_of_mem _ hmem)
    rw [replay, keys_apply (size_replay_le requested earlier), uses, maxEntries_replay, ih]
    cases hused : call.use? (replay (empty requested) earlier) with
    | none =>
      have hkeep : (fun key => !call.drops key) = fun _ => true :=
        funext fun key => congrArg not (hdrops call List.mem_cons_self key)
      simp [hkeep]
    | some key => exact take_cons_take (nodup_recent _) key _

theorem stored_of_latest? {calls : List Call} (h : latest? key calls = some markup) :
    .set key markup ∈ calls := by
  obtain ⟨call, hmem, hstored⟩ := List.exists_of_findSome?_eq_some h
  cases call with
  | set stored markup' =>
    obtain ⟨rfl, rfl⟩ : stored = key ∧ markup' = markup := by
      simpa [Call.stored?] using hstored
    exact hmem
  | _ => cases hstored

/-- Only keys that were stored are ever used. -/
theorem mem_uses_iff {calls : List Call} :
    key ∈ uses (empty requested) calls ↔ ∃ markup, .set key markup ∈ calls := by
  constructor
  · intro h
    induction calls with
    | nil => cases h
    | cons call earlier ih =>
      rcases List.mem_append.mp h with hnow | hbefore
      · rcases Call.stored_or_found (Option.mem_toList.mp hnow) with ⟨markup, rfl⟩ | hhas
        · exact ⟨markup, List.mem_cons_self⟩
        · obtain ⟨markup, hmem⟩ := has_iff_mem.mp hhas
          have hstored := stored_of_latest? (latest?_of_mem requested hmem)
          exact ⟨markup, List.mem_cons_of_mem _ hstored⟩
      · exact (ih hbefore).imp fun _ => List.mem_cons_of_mem _
  · rintro ⟨markup, h⟩
    induction calls with
    | nil => cases h
    | cons call earlier ih =>
      rcases List.mem_cons.mp h with rfl | hmem
      · exact List.mem_append_left _ List.mem_cons_self
      · exact List.mem_append_right _ (ih hmem)

/-- Where nothing is dropped, a key is present if it was stored and few other keys were used after
it. -/
theorem has_replay_iff {calls : List Call}
    (hdrops : ∀ call ∈ calls, ∀ key, call.drops key = false) (key : String) :
    (replay (empty requested) calls).has key = true ↔
      (∃ markup, .set key markup ∈ calls) ∧
        ((uses (empty requested) calls).takeWhile (· ≠ key)).toFinset.card <
          boundFor requested := by
  rw [← mem_keys_iff, keys_replay requested hdrops, mem_take_recent, mem_uses_iff]

/-- Nothing but a store brings a key. -/
theorem absent_of_not_stored {cache : Cache} {later : List Call} (habsent : cache.has key = false)
    (hlater : ∀ markup, .set key markup ∉ later) : (replay cache later).has key = false := by
  induction later with
  | nil => exact habsent
  | cons call later ih =>
    have ih := ih fun markup hmem => hlater markup (List.mem_cons_of_mem _ hmem)
    rw [Bool.eq_false_iff]
    intro hhas
    obtain ⟨markup, hmem⟩ := has_iff_mem.mp hhas
    rcases mem_entries_apply hmem with hstored | ⟨-, hbefore⟩
    · have hlatest : latest? key [call] = some markup := by
        rw [latest?, List.findSome?_cons, hstored]
      exact hlater markup (List.mem_singleton.mp (stored_of_latest? hlatest) ▸ List.mem_cons_self)
    · exact Bool.eq_false_iff.mp ih (has_iff_mem.mpr ⟨markup, hbefore⟩)

theorem absent_of_drops (hdrops : call.drops key = true) : (call.apply cache).has key = false := by
  rw [Bool.eq_false_iff]
  intro hhas
  obtain ⟨markup, hmem⟩ := has_iff_mem.mp hhas
  cases call with
  | delete dropped =>
    obtain rfl : dropped = key := by simpa [Call.drops] using hdrops
    simpa using (List.mem_filter.mp hmem).2
  | clear => cases hmem
  | _ => cases hdrops

theorem replay_append (cache : Cache) (later earlier : List Call) :
    replay cache (later ++ earlier) = replay (replay cache earlier) later := by
  induction later with
  | nil => rfl
  | cons call later ih => exact congrArg call.apply ih

/-- To see whether a key is there makes no difference, then or later. -/
theorem replay_filter_peeks (cache : Cache) (calls : List Call) :
    replay cache (calls.filter (!·.peeks)) = replay cache calls := by
  induction calls with
  | nil => rfl
  | cons call earlier ih =>
    cases call with
    | has key => exact ih
    | _ => exact congrArg (Call.apply · _) ih

/-- A key goes only when it is dropped, or when another is stored in a full cache and no key that
is present was last used before it. -/
theorem oldest_of_evicted {earlier : List Call}
    (hbefore : (replay (empty requested) earlier).has key = true)
    (hafter : (replay (empty requested) (call :: earlier)).has key = false) :
    call.drops key = true ∨
      (∃ stored markup, call = .set stored markup ∧
        (replay (empty requested) earlier).has stored = false) ∧
      (replay (empty requested) earlier).size = boundFor requested ∧
      ∀ other, (replay (empty requested) earlier).has other = true → other ≠ key →
        (uses (empty requested) earlier).idxOf other <
          (uses (empty requested) earlier).idxOf key := by
  have hsize := size_replay_le requested earlier
  have hkeys := keys_apply hsize call
  have hordered := (pairwise_recent _).sublist (keys_sublist requested earlier)
  have hmaxEntries := maxEntries_replay requested earlier
  have hpos := boundFor_pos requested
  have hgone : key ∉ (call.apply (replay (empty requested) earlier)).keys := by
    rw [mem_keys_iff]
    exact Bool.eq_false_iff.mp hafter
  generalize replay (empty requested) earlier = cache at *
  have hkey := mem_keys_iff.mpr hbefore
  rw [hkeys] at hgone
  cases hused : call.use? cache with
  | none =>
    left
    rw [hused] at hgone
    by_contra hdrops
    exact hgone (List.mem_filter.mpr ⟨hkey, by simpa using hdrops⟩)
  | some used =>
    right
    rw [hused] at hgone
    obtain ⟨habsent, hfull, hlast⟩ := last_of_evicted hordered (hmaxEntries ▸ hpos)
      (cache.length_keys.trans_le hsize) hkey hgone
    rw [mem_keys_iff] at habsent
    refine ⟨?_, ?_, fun other hother => hlast other (mem_keys_iff.mpr hother)⟩
    · rcases Call.stored_or_found hused with ⟨markup, hcall⟩ | hhas
      · exact ⟨used, markup, hcall, Bool.eq_false_iff.mpr habsent⟩
      · exact absurd hhas habsent
    · rw [← length_keys, hfull, hmaxEntries]

end

end Cache

end MarkupArena
