import MarkupArena.World.Store
import Mathlib.Data.List.Forall2

/-! What work on a state comes to, and which invariants of the state it keeps. -/
namespace MarkupArena

section
variable {ε α β : Type}

theorem bind_eq_ok_iff {x : Except ε α} {f : α → Except ε β} {b : β} :
    (x >>= f) = .ok b ↔ ∃ a, x = .ok a ∧ f a = .ok b := by
  cases x with
  | error e => exact ⟨fun h => (by cases h), fun ⟨_, h, _⟩ => (by cases h)⟩
  | ok a => exact ⟨fun h => ⟨a, rfl, h⟩, fun ⟨_, ha, h⟩ => Except.ok.inj ha ▸ h⟩

theorem bind_eq_error_iff {x : Except ε α} {f : α → Except ε β} {e : ε} :
    (x >>= f) = .error e ↔ x = .error e ∨ ∃ a, x = .ok a ∧ f a = .error e := by
  cases x with
  | error e' =>
    constructor
    · intro h
      exact .inl (congrArg _ (Except.error.inj h))
    · rintro (h | ⟨_, h, _⟩)
      · exact congrArg _ (Except.error.inj h)
      · cases h
  | ok a =>
    constructor
    · intro h
      exact .inr ⟨a, rfl, h⟩
    · rintro (h | ⟨_, ha, h⟩)
      · cases h
      · exact Except.ok.inj ha ▸ h

@[simp] theorem mapError_ok {δ : Type} (f : ε → δ) (a : α) :
    Except.mapError f (.ok a) = .ok a := rfl

theorem mapError_eq_ok_iff {δ : Type} {f : ε → δ} {x : Except ε α} {a : α} :
    x.mapError f = .ok a ↔ x = .ok a := by
  cases x with
  | error e => exact ⟨fun h => (by cases h), fun h => (by cases h)⟩
  | ok b => simp

theorem mapError_eq_error_iff {δ : Type} {f : ε → δ} {x : Except ε α} {d : δ} :
    x.mapError f = .error d ↔ ∃ e, x = .error e ∧ d = f e := by
  cases x with
  | error e => simp [Except.mapError, eq_comm]
  | ok b => simp

theorem forM_eq_ok_iff {f : α → Except ε Unit} {l : List α} :
    l.forM f = .ok () ↔ ∀ x ∈ l, f x = .ok () := by
  rw [List.forM_eq_forM]
  induction l with
  | nil => exact ⟨fun _ _ h => absurd h List.not_mem_nil, fun _ => rfl⟩
  | cons x rest ih =>
    rw [List.forM_cons, bind_eq_ok_iff, List.forall_mem_cons, ← ih]
    exact ⟨fun ⟨_, hx, hrest⟩ => ⟨hx, hrest⟩, fun ⟨hx, hrest⟩ => ⟨_, hx, hrest⟩⟩

/-- Checks of a list fail at the first item that fails, and look no further. -/
theorem forM_eq_error_iff {f : α → Except ε Unit} {l : List α} {e : ε} :
    l.forM f = .error e ↔ ∃ before x after, l = before ++ x :: after ∧
      (∀ y ∈ before, f y = .ok ()) ∧ f x = .error e := by
  induction l with
  | nil =>
    constructor
    · intro h
      cases h
    · rintro ⟨before, x, after, h, -⟩
      simp at h
  | cons y rest ih =>
    have hstep : (y :: rest).forM f = (f y >>= fun _ => rest.forM f) := rfl
    rw [hstep, bind_eq_error_iff, ih]
    constructor
    · rintro (hy | ⟨_, hy, before, x, after, rfl, hbefore, hx⟩)
      · exact ⟨[], y, rest, rfl, by simp, hy⟩
      · exact ⟨y :: before, x, after, rfl, List.forall_mem_cons.mpr ⟨hy, hbefore⟩, hx⟩
    · rintro ⟨before, x, after, hl, hbefore, hx⟩
      cases before with
      | nil =>
        obtain ⟨rfl, -⟩ := List.cons.inj hl
        exact .inl hx
      | cons z before =>
        obtain ⟨rfl, rfl⟩ := List.cons.inj hl
        obtain ⟨hy, hbefore⟩ := List.forall_mem_cons.mp hbefore
        exact .inr ⟨(), hy, before, x, after, rfl, hbefore, hx⟩

theorem forM_eq_error {f : α → Except ε Unit} {l : List α} {e : ε} (h : l.forM f = .error e) :
    ∃ x ∈ l, f x = .error e := by
  obtain ⟨before, x, after, rfl, -, hx⟩ := forM_eq_error_iff.mp h
  exact ⟨x, by simp, hx⟩

theorem mapM_congr {f g : α → Except ε β} {l : List α} (h : ∀ x ∈ l, f x = g x) :
    l.mapM f = l.mapM g := by
  induction l with
  | nil => rfl
  | cons x rest ih =>
    rw [List.mapM_cons, List.mapM_cons, h x List.mem_cons_self,
      ih fun y hy => h y (List.mem_cons_of_mem _ hy)]

theorem mapM_eq_ok {f : α → Except ε β} {g : α → β} {l : List α}
    (h : ∀ x ∈ l, f x = .ok (g x)) : l.mapM f = .ok (l.map g) := by
  rw [mapM_congr h]
  exact List.mapM_pure

/-- Work on a list fails where it is not done for one of its items. -/
theorem mapM_eq_error_of_split {f : α → Except ε β} {before after : List α} {x : α} {e : ε}
    (hbefore : ∀ y ∈ before, ∃ z, f y = .ok z) (hx : f x = .error e) :
    (before ++ x :: after).mapM f = .error e := by
  induction before with
  | nil =>
    rw [List.nil_append, List.mapM_cons, hx]
    rfl
  | cons y rest ih =>
    obtain ⟨⟨z, hz⟩, hrest⟩ := List.forall_mem_cons.mp hbefore
    rw [List.cons_append, List.mapM_cons, hz, ih hrest]
    rfl

theorem mapM_eq_error {f : α → Except ε β} {l : List α} {e : ε} (h : l.mapM f = .error e) :
    ∃ x ∈ l, f x = .error e := by
  induction l with
  | nil => cases h
  | cons x rest ih =>
    rw [List.mapM_cons] at h
    cases hx : f x with
    | error e' =>
      rw [hx] at h
      exact ⟨x, List.mem_cons_self, hx.trans (congrArg _ (Except.error.inj h))⟩
    | ok y =>
      rw [hx] at h
      cases hrest : rest.mapM f with
      | error e' =>
        rw [hrest] at h
        obtain ⟨z, hz, hfz⟩ := ih (hrest.trans (congrArg _ (Except.error.inj h)))
        exact ⟨z, List.mem_cons_of_mem _ hz, hfz⟩
      | ok ys =>
        rw [hrest] at h
        cases h

theorem exists_of_mapM {f : α → Except ε β} {l : List α} {results : List β}
    (h : l.mapM f = .ok results) : List.Forall₂ (fun x y => f x = .ok y) l results := by
  induction l generalizing results with
  | nil =>
    obtain rfl := Except.ok.inj h
    exact .nil
  | cons x rest ih =>
    rw [List.mapM_cons] at h
    obtain ⟨y, hy, h⟩ := bind_eq_ok_iff.mp h
    obtain ⟨ys, hys, h⟩ := bind_eq_ok_iff.mp h
    obtain rfl := Except.ok.inj h
    exact .cons hy (ih hys)

theorem mapM_of_forall₂ {f : α → Except ε β} {l : List α} {results : List β}
    (h : List.Forall₂ (fun x y => f x = .ok y) l results) : l.mapM f = .ok results := by
  induction h with
  | nil => rfl
  | cons hfirst _ ih =>
    rw [List.mapM_cons, hfirst, ih]
    rfl

/-- What is related to a row item by item is related to each item of it. -/
theorem exists_of_forall₂_mem {R : α → β → Prop} {l : List α} {results : List β}
    (h : List.Forall₂ R l results) {x : α} (hx : x ∈ l) : ∃ y ∈ results, R x y := by
  induction h with
  | nil => cases hx
  | cons hfirst _ ih =>
    rcases List.mem_cons.mp hx with rfl | hx
    · exact ⟨_, List.mem_cons_self, hfirst⟩
    · obtain ⟨y, hy, hxy⟩ := ih hx
      exact ⟨y, List.mem_cons_of_mem _ hy, hxy⟩

/-- Work on a list succeeds exactly if it does on every item. -/
theorem mapM_succeeds_iff {f : α → Except ε β} {l : List α} :
    (∃ results, l.mapM f = .ok results) ↔ ∀ x ∈ l, ∃ y, f x = .ok y := by
  constructor
  · rintro ⟨results, h⟩ x hx
    obtain ⟨y, -, hy⟩ := exists_of_forall₂_mem (exists_of_mapM h) hx
    exact ⟨y, hy⟩
  · intro hall
    cases h : l.mapM f with
    | ok results => exact ⟨results, rfl⟩
    | error e =>
      obtain ⟨x, hx, he⟩ := mapM_eq_error h
      obtain ⟨y, hy⟩ := hall x hx
      rw [hy] at he
      cases he

end

/-- Work on a state that may fail; what it did before it failed stays done. An action is work on
a world. -/
abbrev Work (S : Type) := ExceptT Failure (StateM S)

variable {S : Type} {α β : Type}

/-- The outcome of work, and the state it leaves. -/
def perform (work : Work S α) (s : S) : Except Failure α × S := work.run.run s

@[simp] theorem perform_pure (x : α) (s : S) : perform (pure x) s = (.ok x, s) := rfl

@[simp] theorem perform_throw (f : Failure) (s : S) :
    perform (throw f : Work S α) s = (.error f, s) := rfl

@[simp] theorem perform_get (s : S) : perform (get : Work S S) s = (.ok s, s) := rfl

theorem perform_bind (work : Work S α) (next : α → Work S β) (s : S) :
    perform (work >>= next) s =
      match perform work s with
      | (.ok x, t) => perform (next x) t
      | (.error f, t) => (.error f, t) := by
  show (let p := perform work s; ExceptT.bindCont next p.1 p.2) = _
  rcases perform work s with ⟨_ | x, t⟩ <;> rfl

/-- Work that succeeds in parts. -/
theorem perform_bind_eq_ok_iff {work : Work S α} {next : α → Work S β} {s t : S} {y : β} :
    perform (work >>= next) s = (.ok y, t) ↔
      ∃ x u, perform work s = (.ok x, u) ∧ perform (next x) u = (.ok y, t) := by
  rw [perform_bind]
  rcases perform work s with ⟨_ | x, u⟩ <;> simp

/-- Work that fails, in its first part or in the rest. -/
theorem perform_bind_eq_error_iff {work : Work S α} {next : α → Work S β} {s t : S} {f : Failure} :
    perform (work >>= next) s = (.error f, t) ↔ perform work s = (.error f, t) ∨
      ∃ x u, perform work s = (.ok x, u) ∧ perform (next x) u = (.error f, t) := by
  rw [perform_bind]
  rcases perform work s with ⟨_ | x, u⟩ <;> simp

theorem perform_tryCatch (work : Work S α) (handler : Failure → Work S α) (s : S) :
    perform (tryCatch work handler) s =
      match perform work s with
      | (.ok x, t) => (.ok x, t)
      | (.error f, t) => perform (handler f) t := by
  simp only [perform, ExceptT.run_tryCatch, StateT.run_bind]
  show (match (ExceptT.run work).run s with | (r, t) => _) = _
  rcases (ExceptT.run work).run s with ⟨_ | x, t⟩ <;> rfl

theorem perform_map (f : α → β) (work : Work S α) (s : S) :
    perform (f <$> work) s = ((perform work s).1.map f, (perform work s).2) := by
  rw [map_eq_pure_bind, perform_bind]
  rcases perform work s with ⟨_ | x, t⟩ <;> rfl

theorem perform_discard (work : Work S α) (s : S) :
    perform (discard work) s = (discard (perform work s).1, (perform work s).2) := by
  show perform ((fun _ => ()) <$> work) s = _
  rw [perform_map]
  rcases perform work s with ⟨_ | x, t⟩ <;> rfl

@[simp] theorem perform_observe (look : World → Except Failure α) (w : World) :
    perform (observe look) w = (look w, w) := by
  unfold observe
  rw [perform_bind]
  cases h : look w <;> simp [h]

/-- A failure of the cleanup takes the place of the outcome. -/
theorem perform_tryFinally (work : Work S α) (cleanup : Work S β) (s : S) :
    perform (tryFinally work cleanup) s =
      match perform work s with
      | (outcome, t) =>
        match perform cleanup t with
        | (.ok _, u) => (outcome, u)
        | (.error f, u) => (.error f, u) := by
  rcases hw : perform work s with ⟨outcome, t⟩
  rcases hc : perform cleanup t with ⟨result, u⟩
  have hw : (work : S → Except Failure α × S) s = (outcome, t) := hw
  have hc : (cleanup : S → Except Failure β × S) t = (result, u) := hc
  simp only [perform, tryFinally, tryFinally', ExceptT.run_map]
  cases outcome <;> cases result <;>
    simp only [ExceptT.run, ExceptT.mk, StateT.run, bind, StateT.bind, pure, hw, hc, Functor.map,
      StateT.map] <;> rfl

theorem perform_tryFinally_snd (work : Work S α) (cleanup : Work S β) (s : S) :
    (perform (tryFinally work cleanup) s).2 = (perform cleanup (perform work s).2).2 := by
  rw [perform_tryFinally]
  rcases perform work s with ⟨outcome, t⟩
  dsimp only
  rcases perform cleanup t with ⟨_ | y, u⟩ <;> rfl

/-- Work that keeps an invariant of the state, also when it fails, and has results with a
property. -/
def Keeps (inv : S → Prop) (post : α → Prop) (work : Work S α) : Prop :=
  ∀ s, inv s → inv (perform work s).2 ∧ ∀ x, (perform work s).1 = .ok x → post x

/-- Work that keeps an invariant, whatever it results in. -/
abbrev Invariant (inv : S → Prop) (work : Work S α) : Prop := Keeps inv (fun _ => True) work

section
variable {inv : S → Prop} {post : α → Prop} {post' : β → Prop}

theorem Keeps.of_perform {work : Work S α} (hk : Keeps inv post work) {s t : S}
    {outcome : Except Failure α} (hs : inv s) (h : perform work s = (outcome, t)) : inv t := by
  simpa [h] using (hk s hs).1

theorem Keeps.weaken {weaker : α → Prop} {work : Work S α} (hk : Keeps inv post work)
    (h : ∀ x, post x → weaker x) : Keeps inv weaker work :=
  fun s hs => ⟨(hk s hs).1, fun x hx => h x ((hk s hs).2 x hx)⟩

theorem Keeps.invariant {work : Work S α} (hk : Keeps inv post work) : Invariant inv work :=
  hk.weaken fun _ _ => True.intro

theorem Keeps.pure {x : α} (h : post x) : Keeps inv post (pure x : Work S α) := by
  intro s hs
  refine ⟨hs, fun y hy => ?_⟩
  obtain rfl := Except.ok.inj hy
  exact h

theorem Invariant.pure (x : α) : Invariant inv (pure x : Work S α) := Keeps.pure True.intro

theorem Keeps.throw (f : Failure) : Keeps inv post (throw f : Work S α) := by
  intro s hs
  exact ⟨hs, fun x hx => by simp at hx⟩

theorem Keeps.get : Keeps inv inv (get : Work S S) := by
  intro s hs
  refine ⟨hs, fun t ht => ?_⟩
  obtain rfl := Except.ok.inj ht
  exact hs

theorem Keeps.modify {f : S → S} (h : ∀ s, inv s → inv (f s)) :
    Invariant inv (modify f : Work S PUnit) :=
  fun s hs => ⟨h s hs, fun _ _ => True.intro⟩

theorem Keeps.bind {work : Work S α} {next : α → Work S β} (hwork : Keeps inv post work)
    (hnext : ∀ x, post x → Keeps inv post' (next x)) : Keeps inv post' (work >>= next) := by
  intro s hs
  obtain ⟨hinv, hpost⟩ := hwork s hs
  rw [perform_bind]
  rcases hw : perform work s with ⟨_ | x, t⟩
  · exact ⟨by simpa [hw] using hinv, fun y hy => by simp at hy⟩
  · exact hnext x (hpost x (by rw [hw])) t (by simpa [hw] using hinv)

theorem Keeps.tryCatch {work : Work S α} {handler : Failure → Work S α}
    (hwork : Keeps inv post work) (hhandler : ∀ f, Keeps inv post (handler f)) :
    Keeps inv post (tryCatch work handler) := by
  intro s hs
  obtain ⟨hinv, hpost⟩ := hwork s hs
  rw [perform_tryCatch]
  rcases hw : perform work s with ⟨f | x, t⟩
  · exact hhandler f t (by simpa [hw] using hinv)
  · rw [hw] at hinv hpost
    exact ⟨hinv, hpost⟩

theorem Keeps.tryFinally {work : Work S α} {cleanup : Work S β} (hwork : Keeps inv post work)
    (hcleanup : Keeps inv post' cleanup) : Keeps inv post (tryFinally work cleanup) := by
  intro s hs
  obtain ⟨hinv, hpost⟩ := hwork s hs
  rw [perform_tryFinally]
  rcases hw : perform work s with ⟨outcome, t⟩
  rw [hw] at hinv hpost
  have hu := (hcleanup t hinv).1
  rcases hc : perform cleanup t with ⟨_ | y, u⟩ <;> simp only [hc] at hu ⊢
  · exact ⟨hu, fun x hx => by simp at hx⟩
  · exact ⟨hu, hpost⟩

theorem Keeps.mapM {f : α → Work S β} {l : List α} (h : ∀ x ∈ l, Keeps inv post' (f x)) :
    Keeps inv (fun results => ∀ y ∈ results, post' y) (l.mapM f) := by
  induction l with
  | nil => exact Keeps.pure (by simp)
  | cons x rest ih =>
    rw [List.mapM_cons]
    refine (h x List.mem_cons_self).bind fun y hy => ?_
    refine (ih fun z hz => h z (List.mem_cons_of_mem _ hz)).bind fun ys hys => ?_
    refine Keeps.pure ?_
    simpa using ⟨hy, hys⟩

theorem Invariant.mapM {f : α → Work S β} {l : List α} (h : ∀ x ∈ l, Invariant inv (f x)) :
    Invariant inv (l.mapM f) :=
  (Keeps.mapM h).invariant

end

/-- Looking at a world changes nothing. -/
theorem invariant_observe {inv : World → Prop} {look : World → Except Failure α} :
    Invariant inv (observe look) := by
  intro w hw
  rw [perform_observe]
  exact ⟨hw, fun _ _ => True.intro⟩

theorem keeps_observe {inv : World → Prop} {post : α → Prop} {look : World → Except Failure α}
    (h : ∀ w, inv w → ∀ x, look w = .ok x → post x) : Keeps inv post (observe look) := by
  intro w hw
  rw [perform_observe]
  exact ⟨hw, h w hw⟩

/-- Work that, begun in a state with an invariant, fails only for some reasons. -/
def FailsOnly (inv : S → Prop) (why : Failure → Prop) (work : Work S α) : Prop :=
  ∀ s, inv s → ∀ f, (perform work s).1 = .error f → why f

section
variable {inv : S → Prop} {why : Failure → Prop} {post : α → Prop}

theorem FailsOnly.pure (x : α) : FailsOnly inv why (pure x : Work S α) :=
  fun _ _ _ h => nomatch h

theorem FailsOnly.throw {f : Failure} (h : why f) : FailsOnly inv why (throw f : Work S α) := by
  intro s _ f' hf'
  exact Except.error.inj hf' ▸ h

theorem FailsOnly.bind {work : Work S α} {next : α → Work S β} (hwork : FailsOnly inv why work)
    (hkeeps : Keeps inv post work) (hnext : ∀ x, post x → FailsOnly inv why (next x)) :
    FailsOnly inv why (work >>= next) := by
  intro s hs f hf
  obtain ⟨hinv, hpost⟩ := hkeeps s hs
  rw [perform_bind] at hf
  rcases hw : perform work s with ⟨f' | x, t⟩
  · rw [hw] at hf
    obtain rfl := Except.error.inj hf
    exact hwork s hs f' (by rw [hw])
  · rw [hw] at hf hinv hpost
    exact hnext x (hpost x rfl) t hinv f hf

theorem FailsOnly.mapM {f : α → Work S β} {l : List α} (hfails : ∀ x ∈ l, FailsOnly inv why (f x))
    (hkeeps : ∀ x ∈ l, Invariant inv (f x)) : FailsOnly inv why (l.mapM f) := by
  induction l with
  | nil => exact FailsOnly.pure []
  | cons x rest ih =>
    rw [List.mapM_cons]
    refine (hfails x List.mem_cons_self).bind (hkeeps x List.mem_cons_self) fun y _ => ?_
    refine (ih (fun z hz => hfails z (List.mem_cons_of_mem _ hz)) fun z hz =>
      hkeeps z (List.mem_cons_of_mem _ hz)).bind
      (Invariant.mapM fun z hz => hkeeps z (List.mem_cons_of_mem _ hz)) fun ys _ => ?_
    exact FailsOnly.pure _

theorem failsOnly_observe {inv : World → Prop} {look : World → Except Failure α}
    (h : ∀ w, inv w → ∀ f, look w = .error f → why f) : FailsOnly inv why (observe look) := by
  intro w hw f hf
  rw [perform_observe] at hf
  exact h w hw f hf

end

end MarkupArena
