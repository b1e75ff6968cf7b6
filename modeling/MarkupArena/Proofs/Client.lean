import MarkupArena.Proofs.Operations

/-! Clients: work that is put together from calls of operations, each chosen by what came before,
with a state of its own beside the world. What every call keeps is kept over every run. -/
namespace MarkupArena

abbrev Session (σ : Type) := Work (World × σ)

variable {σ α β : Type}

instance : MonadLift Action (Session σ) where
  monadLift act := ExceptT.mk fun s => ((perform act s.1).1, (perform act s.1).2, s.2)

@[simp] theorem perform_lift (act : Action α) (w : World) (own : σ) :
    perform (monadLift act : Session σ α) (w, own) =
      ((perform act w).1, (perform act w).2, own) := rfl

def recollect : Session σ σ := ExceptT.mk fun s => (.ok s.2, s)

def memorize (own : σ) : Session σ Unit := ExceptT.mk fun s => (.ok (), s.1, own)

/-- Work made of calls. It may fail, recover from failures and clean up after itself, and it may
revise trees, where its visitor is such work as well. `Held` tells of the elements it was shown so
far and `Own` of the states of its own it may be in. -/
inductive Client (Call : {α : Type} → Action α → Prop) (Held : Element → Prop) (Own : σ → Prop) :
    {α : Type} → Session σ α → Prop where
  | done {α : Type} (x : α) : Client Call Held Own (pure x)
  | fail {α : Type} (f : Failure) : Client Call Held Own (throw f : Session σ α)
  | andThen {α β : Type} {work : Session σ α} {next : α → Session σ β} :
      Client Call Held Own work → (∀ x, Client Call Held Own (next x)) →
      Client Call Held Own (work >>= next)
  | attempt {α : Type} {work : Session σ α} {handler : Failure → Session σ α} :
      Client Call Held Own work → (∀ f, Client Call Held Own (handler f)) →
      Client Call Held Own (tryCatch work handler)
  | cleanUp {α β : Type} {work : Session σ α} {cleanup : Session σ β} :
      Client Call Held Own work → Client Call Held Own cleanup →
      Client Call Held Own (tryFinally work cleanup)
  | recollect {α : Type} {next : σ → Session σ α} :
      (∀ own, Own own → Client Call Held Own (next own)) →
      Client Call Held Own (recollect >>= next)
  | memorize {own : σ} : Own own → Client Call Held Own (memorize own)
  | call {α : Type} {act : Action α} : Call act → Client Call Held Own (monadLift act)
  | look {α β : Type} {look : World → Except Failure α} {post : α → Prop}
      {next : α → Session σ β} :
      (∀ w, w.Shows Held → ∀ x, look w = .ok x → post x) →
      (∀ x, post x → Client Call Held Own (next x)) →
      Client Call Held Own (monadLift (observe look) >>= next)
  | revise {source dest : ArenaId} {root : Handle} {visitor : Revision.Visitor (Session σ)} :
      (∀ node h depth, node.Within Held → Client Call Held Own (visitor node h depth)) →
      Client Call Held Own (Revision.revise source dest root visitor)

section
variable {inv : World → Prop} {Held : Element → Prop} {Own : σ → Prop}

theorem Keeps.lift {post : α → Prop} {act : Action α} (h : Keeps inv post act) :
    Keeps (fun s : World × σ => inv s.1 ∧ Own s.2) post (monadLift act : Session σ α) := by
  intro s hs
  obtain ⟨hw, hpost⟩ := h s.1 hs.1
  exact ⟨⟨hw, hs.2⟩, hpost⟩

theorem keeps_recollect : Keeps (fun s : World × σ => inv s.1 ∧ Own s.2) Own recollect := by
  intro s hs
  refine ⟨hs, fun own hown => ?_⟩
  obtain rfl := Except.ok.inj hown
  exact hs.2

theorem invariant_memorize {own : σ} (hown : Own own) :
    Invariant (fun s : World × σ => inv s.1 ∧ Own s.2) (memorize own) :=
  fun _ hs => ⟨⟨hs.1, hown⟩, fun _ _ => True.intro⟩

theorem invariant_visit (hs : ∀ a, StandsRevision inv Held a) {source dest : ArenaId}
    {visitor : Revision.Visitor (Session σ)}
    (hvisitor : ∀ node h depth, node.Within Held →
      Invariant (fun s : World × σ => inv s.1 ∧ Own s.2) (visitor node h depth))
    (bound depth : Nat) (h : Handle) :
    Invariant (fun s : World × σ => inv s.1 ∧ Own s.2)
      (Revision.visit source dest visitor bound depth h) := by
  induction bound generalizing depth h with
  | zero => exact Keeps.lift (Keeps.throw _)
  | succ bound ih =>
    unfold Revision.visit
    refine (keeps_resolve (hs source).shows source h).lift.bind fun node hnode => ?_
    have hdescend : Invariant (fun s : World × σ => inv s.1 ∧ Own s.2) (do
        let results ← node.children.mapM (Revision.visit source dest visitor bound (depth + 1))
        return [← monadLift (Revision.settle dest node h results)] : Session σ (List Handle)) :=
      (Invariant.mapM fun child _ => ih (depth + 1) child).bind fun results _ =>
        ((hs dest).settle h results hnode).lift.bind fun _ _ => Invariant.pure _
    refine (hvisitor node h depth hnode).bind fun change _ => ?_
    cases change with
    | keep => exact hdescend
    | replace node =>
      cases node with
      | stored handle =>
        dsimp only
        split
        · exact hdescend
        · exact Invariant.pure _
      | described description =>
        exact ((hs dest).materialize (.described description)).lift.bind fun _ _ => Invariant.pure _
    | remove => exact Invariant.pure _
    | splice nodes => exact Invariant.mapM fun node _ => ((hs dest).materialize node).lift

theorem invariant_revise (hs : ∀ a, StandsRevision inv Held a) {source dest : ArenaId}
    (root : Handle) {visitor : Revision.Visitor (Session σ)}
    (hvisitor : ∀ node h depth, node.Within Held →
      Invariant (fun s : World × σ => inv s.1 ∧ Own s.2) (visitor node h depth)) :
    Invariant (fun s : World × σ => inv s.1 ∧ Own s.2)
      (Revision.revise source dest root visitor) := by
  unfold Revision.revise
  refine ((hs dest).link_to source).lift.bind fun _ _ => ?_
  refine Keeps.bind (invariant_observe).lift fun bound _ => ?_
  refine (invariant_visit hs hvisitor bound 0 root).bind fun results _ => ?_
  split
  · exact Invariant.pure _
  · exact ((hs dest).fragment _).lift

/-- An invariant that stands revisions and every call is kept over a run. -/
theorem Client.invariant {Call : {α : Type} → Action α → Prop}
    (hs : ∀ a, StandsRevision inv Held a)
    (hcall : ∀ {α : Type} {act : Action α}, Call act → Invariant inv act) {work : Session σ α}
    (hwork : Client Call Held Own work) :
    Invariant (fun s : World × σ => inv s.1 ∧ Own s.2) work := by
  induction hwork with
  | done x => exact Invariant.pure x
  | fail f => exact Keeps.throw f
  | andThen _ _ ihwork ihnext => exact ihwork.bind fun x _ => ihnext x
  | attempt _ _ ihwork ihhandler => exact ihwork.tryCatch ihhandler
  | cleanUp _ _ ihwork ihcleanup => exact ihwork.tryFinally ihcleanup
  | recollect _ ih => exact keeps_recollect.bind ih
  | memorize hown => exact invariant_memorize hown
  | call h => exact (hcall h).lift
  | look hpost _ ih => exact (keeps_observe fun w hw => hpost w ((hs ⟨0⟩).shows w hw)).lift.bind ih
  | revise _ ih => exact invariant_revise hs _ ih

end

end MarkupArena
