import Mathlib.Data.List.Forall2
import MarkupArena.Proofs.Client

/-! Two pieces of work that agree: begun in states that correspond, they leave states that
correspond and come to outcomes that correspond. There is one rule for each way to put work
together. -/
namespace MarkupArena

/-- The same failure, or two handles that do not resolve for the same reason. -/
inductive Failure.Alike : Failure → Failure → Prop where
  | same (f : Failure) : Alike f f
  | invalidHandle (fault : HandleFault) (h h' : Handle) (a a' : ArenaId) :
      Alike (.invalidHandle fault h a) (.invalidHandle fault h' a')

/-- Results that correspond, or failures that are alike. -/
inductive Matches {α β : Type} (post : α → β → Prop) :
    Except Failure α → Except Failure β → Prop where
  | ok {x : α} {y : β} : post x y → Matches post (.ok x) (.ok y)
  | error {f f' : Failure} : f.Alike f' → Matches post (.error f) (.error f')

section
variable {α β γ δ : Type} {post : α → β → Prop} {post' : γ → δ → Prop}

theorem matches_self {post : α → α → Prop} (h : ∀ x, post x x) (outcome : Except Failure α) :
    Matches post outcome outcome := by
  cases outcome with
  | error f => exact .error (.same f)
  | ok x => exact .ok (h x)

theorem Matches.weaken {weaker : α → β → Prop} {x : Except Failure α} {y : Except Failure β}
    (h : Matches post x y) (hpost : ∀ a b, post a b → weaker a b) : Matches weaker x y := by
  cases h with
  | ok h => exact .ok (hpost _ _ h)
  | error halike => exact .error halike

theorem Matches.of_ok {a : α} {y : Except Failure β} (h : Matches post (.ok a) y) :
    ∃ b, y = .ok b ∧ post a b := by
  cases h with
  | ok h => exact ⟨_, rfl, h⟩

theorem Matches.discard {x : Except Failure α} {y : Except Failure β} (h : Matches post x y) :
    Matches Eq (discard x) (discard y) := by
  cases h with
  | ok => exact .ok rfl
  | error halike => exact .error halike

theorem Matches.bind {x : Except Failure α} {y : Except Failure β} {f : α → Except Failure γ}
    {g : β → Except Failure δ} (h : Matches post x y)
    (hnext : ∀ a b, post a b → Matches post' (f a) (g b)) : Matches post' (x >>= f) (y >>= g) := by
  cases h with
  | ok hpost => exact hnext _ _ hpost
  | error halike => exact .error halike

theorem Matches.handOut {x y : Except Failure String} (h : Matches Eq x y) :
    Matches Eq (x >>= MarkupArena.handOut) (y >>= MarkupArena.handOut) :=
  h.bind fun text _ heq => heq ▸ matches_self (fun _ => rfl) (MarkupArena.handOut text)

theorem Matches.mapM {R : α → β → Prop} {xs : List α} {ys : List β} {f : α → Except Failure γ}
    {g : β → Except Failure δ} (hall : List.Forall₂ R xs ys)
    (h : ∀ x y, R x y → Matches post' (f x) (g y)) :
    Matches (List.Forall₂ post') (xs.mapM f) (ys.mapM g) := by
  induction hall with
  | nil => exact .ok .nil
  | cons hfirst _ ih =>
    rw [List.mapM_cons, List.mapM_cons]
    refine (h _ _ hfirst).bind fun x y hxy => ih.bind fun xs ys hrest => ?_
    exact .ok (.cons hxy hrest)

theorem Matches.forM {R : α → β → Prop} {xs : List α} {ys : List β} {f : α → Except Failure Unit}
    {g : β → Except Failure Unit} (hall : List.Forall₂ R xs ys)
    (h : ∀ x y, R x y → Matches Eq (f x) (g y)) : Matches Eq (xs.forM f) (ys.forM g) := by
  rw [List.forM_eq_forM, List.forM_eq_forM]
  induction hall with
  | nil => exact .ok rfl
  | cons hfirst _ ih =>
    rw [List.forM_cons, List.forM_cons]
    exact (h _ _ hfirst).bind fun _ _ _ => ih

end

section
variable {S T α β γ δ : Type} {inv : S → T → Prop} {post : α → β → Prop} {post' : γ → δ → Prop}

/-- Two ends of work, each an outcome and the state it leaves, that correspond. -/
def Concur (inv : S → T → Prop) (post : α → β → Prop) (x : Except Failure α × S)
    (y : Except Failure β × T) : Prop :=
  inv x.2 y.2 ∧ Matches post x.1 y.1

def Agrees (inv : S → T → Prop) (post : α → β → Prop) (work : Work S α) (other : Work T β) :
    Prop :=
  ∀ s t, inv s t → Concur inv post (perform work s) (perform other t)

theorem Agrees.pure {x : α} {y : β} (h : post x y) :
    Agrees inv post (pure x : Work S α) (pure y : Work T β) :=
  fun _ _ hinv => ⟨hinv, .ok h⟩

theorem Agrees.throw {f f' : Failure} (h : f.Alike f') :
    Agrees inv post (throw f : Work S α) (throw f' : Work T β) :=
  fun _ _ hinv => ⟨hinv, .error h⟩

theorem Agrees.weaken {weaker : α → β → Prop} {work : Work S α} {other : Work T β}
    (h : Agrees inv post work other) (hpost : ∀ x y, post x y → weaker x y) :
    Agrees inv weaker work other := fun s t hinv =>
  ⟨(h s t hinv).1, (h s t hinv).2.weaken hpost⟩

/-- It is enough that the first part agrees from the states in which it is begun. -/
theorem Concur.bind {work : Work S α} {other : Work T β} {next : α → Work S γ}
    {next' : β → Work T δ} {s : S} {t : T}
    (hwork : Concur inv post (perform work s) (perform other t))
    (hnext : ∀ x y, post x y → Agrees inv post' (next x) (next' y)) :
    Concur inv post' (perform (work >>= next) s) (perform (other >>= next') t) := by
  obtain ⟨hafter, hmatches⟩ := hwork
  rw [perform_bind, perform_bind]
  rcases hw : perform work s with ⟨outcome, s'⟩
  rcases ho : perform other t with ⟨outcome', t'⟩
  rw [hw, ho] at hafter hmatches
  cases hmatches with
  | ok hpost => exact hnext _ _ hpost s' t' hafter
  | error halike => exact ⟨hafter, .error halike⟩

theorem Agrees.bind {work : Work S α} {other : Work T β} {next : α → Work S γ}
    {next' : β → Work T δ} (hwork : Agrees inv post work other)
    (hnext : ∀ x y, post x y → Agrees inv post' (next x) (next' y)) :
    Agrees inv post' (work >>= next) (other >>= next') :=
  fun s t hinv => (hwork s t hinv).bind hnext

theorem Agrees.tryCatch {work : Work S α} {other : Work T β} {handler : Failure → Work S α}
    {handler' : Failure → Work T β} (hwork : Agrees inv post work other)
    (hhandler : ∀ f f', Failure.Alike f f' → Agrees inv post (handler f) (handler' f')) :
    Agrees inv post (tryCatch work handler) (tryCatch other handler') := by
  intro s t hinv
  obtain ⟨hafter, hmatches⟩ := hwork s t hinv
  rw [perform_tryCatch, perform_tryCatch]
  rcases hw : perform work s with ⟨outcome, s'⟩
  rcases ho : perform other t with ⟨outcome', t'⟩
  rw [hw, ho] at hafter hmatches
  cases hmatches with
  | ok hpost => exact ⟨hafter, .ok hpost⟩
  | error halike => exact hhandler _ _ halike s' t' hafter

theorem Agrees.tryFinally {work : Work S α} {other : Work T β} {cleanup : Work S γ}
    {cleanup' : Work T δ} (hwork : Agrees inv post work other)
    (hcleanup : Agrees inv post' cleanup cleanup') :
    Agrees inv post (tryFinally work cleanup) (tryFinally other cleanup') := by
  intro s t hinv
  obtain ⟨hafter, hmatches⟩ := hwork s t hinv
  rw [perform_tryFinally, perform_tryFinally]
  rcases hw : perform work s with ⟨outcome, s'⟩
  rcases ho : perform other t with ⟨outcome', t'⟩
  rw [hw, ho] at hafter hmatches
  obtain ⟨hclean, hresult⟩ := hcleanup s' t' hafter
  rcases hc : perform cleanup s' with ⟨result, s''⟩
  rcases hc' : perform cleanup' t' with ⟨result', t''⟩
  rw [hc, hc'] at hclean hresult
  simp only [hc, hc']
  cases hresult with
  | ok _ => exact ⟨hclean, hmatches⟩
  | error halike => exact ⟨hclean, .error halike⟩

theorem Agrees.mapM {R : α → β → Prop} {xs : List α} {ys : List β} {f : α → Work S γ}
    {g : β → Work T δ} (hall : List.Forall₂ R xs ys)
    (h : ∀ x y, R x y → Agrees inv post' (f x) (g y)) :
    Agrees inv (List.Forall₂ post') (xs.mapM f) (ys.mapM g) := by
  induction hall with
  | nil => exact Agrees.pure .nil
  | cons hfirst _ ih =>
    rw [List.mapM_cons, List.mapM_cons]
    refine (h _ _ hfirst).bind fun x y hxy => ih.bind fun xs ys hrest => ?_
    exact Agrees.pure (.cons hxy hrest)

end

/-- A relation of worlds beside one of clients' own states. -/
def Jointly {σ τ : Type} (inv : World → World → Prop) (Own : σ → τ → Prop) (s : World × σ)
    (t : World × τ) : Prop :=
  inv s.1 t.1 ∧ Own s.2 t.2

theorem Agrees.lift {σ τ α β : Type} {inv : World → World → Prop} {Own : σ → τ → Prop}
    {post : α → β → Prop} {act : Action α} {act' : Action β} (h : Agrees inv post act act') :
    Agrees (Jointly inv Own) post (monadLift act : Session σ α) (monadLift act' : Session τ β) := by
  intro s t hinv
  obtain ⟨hafter, hmatches⟩ := h s.1 t.1 hinv.1
  exact ⟨⟨hafter, hinv.2⟩, hmatches⟩

end MarkupArena
