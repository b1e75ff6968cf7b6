import MarkupArena.Proofs.StorageOrder
import MarkupArena.Render.Outline
import MarkupArena.Render.Preserialized

/-! Every traversal ends. Each goes from handles to children, which have lower ranks, so none uses
up the bound for its depth: whatever it starts from, it comes to a result or to a handle that does
not resolve. -/
namespace MarkupArena

section
variable {α β : Type}

/-- An outcome other than a bound for the depth that was used up. -/
def Ends (outcome : Except Failure α) : Prop := ∀ f, outcome = .error f → f ≠ .tooDeep

theorem ends_ok (x : α) : Ends (.ok x) := fun _ h => by cases h

theorem ends_error {f : Failure} (h : f ≠ .tooDeep) : Ends (.error f : Except Failure α) :=
  fun _ he => Except.error.inj he ▸ h

theorem Ends.bind {x : Except Failure α} {f : α → Except Failure β} (hx : Ends x)
    (hf : ∀ a, x = .ok a → Ends (f a)) : Ends (x >>= f) := by
  cases x with
  | error e => exact ends_error (hx e rfl)
  | ok a => exact hf a rfl

theorem Ends.mapM {f : α → Except Failure β} {l : List α} (h : ∀ x ∈ l, Ends (f x)) :
    Ends (l.mapM f) := by
  intro e he
  obtain ⟨x, hx, hfx⟩ := mapM_eq_error he
  exact h x hx e hfx

theorem Ends.forM {f : α → Except Failure Unit} {l : List α} (h : ∀ x ∈ l, Ends (f x)) :
    Ends (l.forM f) := by
  intro e he
  obtain ⟨x, hx, hfx⟩ := forM_eq_error he
  exact h x hx e hfx

theorem ends_mapError (outcome : Except Rejection α) (index : Option Nat) :
    Ends (outcome.mapError fun why => Failure.rejected why index) := by
  cases outcome with
  | error why => exact ends_error nofun
  | ok x => exact ends_ok x

end

namespace World

section
variable {w : World} {a : ArenaId} {rank : Handle → Nat}
  (hrank : ∀ child h, w.Under child h → rank child < rank h)

theorem resolve_eq_error {h : Handle} {f : Failure} (hr : w.resolve a h = .error f) :
    ∃ fault b, f = .invalidHandle fault h b := by
  unfold resolve at hr
  split at hr
  next b _ =>
    unfold resolveOwn at hr
    dsimp only at hr
    split at hr
    · exact ⟨_, b, (Except.error.inj hr).symm⟩
    · split at hr
      · cases hr
      · exact ⟨_, b, (Except.error.inj hr).symm⟩
  next => exact ⟨_, a, (Except.error.inj hr).symm⟩

theorem ends_resolve (h : Handle) : Ends (w.resolve a h) := by
  intro f hf
  obtain ⟨_, _, rfl⟩ := resolve_eq_error hf
  exact nofun

include hrank

/-- The children of a node have enough depth left below a bound for the node. -/
theorem rank_child_lt {h child : Handle} {node : Node} (hr : w.resolve a h = .ok node)
    (hchild : child ∈ node.children) {fuel : Nat} (hfuel : rank h < fuel + 1) :
    rank child < fuel :=
  (hrank child h ⟨a, node, hr, hchild⟩).trans_le (Nat.le_of_lt_succ hfuel)

theorem ends_renderNode {fuel : Nat} {h : Handle} (hfuel : rank h < fuel) :
    Ends (w.renderNode a fuel h) := by
  induction fuel generalizing h with
  | zero => cases hfuel
  | succ fuel ih =>
    refine (ends_resolve h).bind fun node hr => ?_
    have hall : Ends (node.children.mapM (w.renderNode a fuel)) :=
      Ends.mapM fun child hchild => ih (rank_child_lt hrank hr hchild hfuel)
    cases node with
    | text value => exact ends_ok _
    | rendered markup => exact ends_ok _
    | fragment children => exact hall.bind fun _ _ => ends_ok _
    | element e => exact hall.bind fun _ _ => ends_ok _

theorem ends_outlineNode {fuel level : Nat} {h : Handle} (hfuel : rank h < fuel) :
    Ends (w.outlineNode a fuel level h) := by
  induction fuel generalizing level h with
  | zero => cases hfuel
  | succ fuel ih =>
    refine (ends_resolve h).bind fun node hr => ?_
    have hall : ∀ level, Ends (node.children.mapM (w.outlineNode a fuel level)) := fun level =>
      Ends.mapM fun child hchild => ih (rank_child_lt hrank hr hchild hfuel)
    cases node with
    | text value => exact ends_ok _
    | rendered markup => exact ends_ok _
    | fragment children => exact (hall _).bind fun _ _ => ends_ok _
    | element e => exact (hall _).bind fun _ _ => ends_ok _

theorem ends_topLevel {fuel : Nat} {h : Handle} (hfuel : rank h < fuel) :
    Ends (w.topLevel a fuel h) := by
  induction fuel generalizing h with
  | zero => cases hfuel
  | succ fuel ih =>
    refine (ends_resolve h).bind fun node hr => ?_
    have hall : Ends (node.children.mapM (w.topLevel a fuel)) :=
      Ends.mapM fun child hchild => ih (rank_child_lt hrank hr hchild hfuel)
    cases node with
    | text value => exact ends_ok _
    | rendered markup => exact ends_ok _
    | fragment children => exact hall.bind fun _ _ => ends_ok _
    | element e => exact ends_ok _

theorem ends_checkMember {info : TagInfo} {index fuel : Nat} {h : Handle} {node : Node}
    (hr : w.resolve a h = .ok node) (hfuel : rank h < fuel) :
    Ends (w.checkMember a info index fuel node) := by
  induction fuel generalizing h node with
  | zero => cases hfuel
  | succ fuel ih =>
    cases node with
    | text value => exact ends_mapError _ _
    | rendered markup => exact ends_mapError _ _
    | element e => exact ends_mapError _ _
    | fragment children =>
      refine Ends.forM fun child hchild => (ends_resolve child).bind fun member hmember => ?_
      exact ih hmember (rank_child_lt hrank hr hchild hfuel)

end

section
variable {w : World} {a : ArenaId} (hw : w.Ordered)
include hw

theorem Ordered.exists_rank_lt : ∃ rank : Handle → Nat,
    (∀ child h, w.Under child h → rank child < rank h) ∧ ∀ h, rank h < w.depthBound := by
  obtain ⟨rank, hrank, hbound⟩ := hw.exists_rank
  exact ⟨rank, hrank, fun h => Nat.lt_succ_of_le (hbound h)⟩

theorem Ordered.ends_render (h : Handle) (withDoctype : Bool) :
    Ends (w.render a h withDoctype) := by
  obtain ⟨rank, hrank, hbound⟩ := hw.exists_rank_lt
  exact (ends_renderNode hrank (hbound h)).bind fun _ _ => ends_ok _

theorem Ordered.ends_outline (h : Handle) : Ends (w.outline a h) := by
  obtain ⟨rank, hrank, hbound⟩ := hw.exists_rank_lt
  exact (ends_outlineNode hrank (hbound h)).bind fun _ _ => ends_ok _

theorem Ordered.ends_preserialize (h : Handle) : Ends (w.preserialize a h) := by
  obtain ⟨rank, hrank, hbound⟩ := hw.exists_rank_lt
  exact (ends_topLevel hrank (hbound h)).bind fun _ _ =>
    (hw.ends_render h false).bind fun _ _ => ends_ok _

theorem Ordered.ends_checkPart (info : TagInfo) (index : Nat) (part : Part) :
    Ends (w.checkPart a info index part) := by
  obtain ⟨rank, hrank, hbound⟩ := hw.exists_rank_lt
  cases part with
  | text value => exact ends_mapError _ _
  | node h => exact (ends_resolve h).bind fun node hr => ends_checkMember hrank hr (hbound h)

theorem Ordered.ends_checkParts (info : TagInfo) (index : Nat) (parts : List Part) :
    Ends (w.checkParts a info index parts) := by
  induction parts generalizing index with
  | nil => exact ends_ok ()
  | cons part rest ih => exact (hw.ends_checkPart info index part).bind fun _ _ => ih (index + 1)

theorem Ordered.ends_accept (tag : String) (input : AttributeInput) (parts : List Part) :
    Ends (w.accept a tag input parts) := by
  have hattributes : ∀ given, Ends (checkAttributes (w.arena a).options.schema tag given) :=
    fun given => Ends.forM fun _ _ => ends_mapError _ _
  unfold accept
  refine Ends.bind (ends_mapError _ none) fun info _ => ?_
  refine Ends.bind (ends_mapError _ none) fun given _ => ?_
  split
  · refine (hattributes given).bind fun _ _ => ?_
    exact (hw.ends_checkParts info 0 parts).bind fun _ _ => ends_ok _
  · exact ends_ok _

end

end World

namespace Cursor

variable {w : World} {a : ArenaId} {rank : Handle → Nat}
  (hrank : ∀ child h, w.Under child h → rank child < rank h)
include hrank

/-- Each pending handle of a cursor has enough depth left, and keeps it from visit to visit. -/
theorem next_of_rank {cursor : Cursor} (hcursor : ∀ p ∈ cursor, rank p.handle < p.bound) :
    Ends (next w a cursor) ∧ ∀ v rest, next w a cursor = .ok (some (v, rest)) →
      ∀ p ∈ rest, rank p.handle < p.bound := by
  match cursor with
  | [] => exact ⟨ends_ok _, fun v rest hrest => by cases hrest⟩
  | ⟨h, depth, 0⟩ :: pending => cases hcursor _ List.mem_cons_self
  | ⟨h, depth, bound + 1⟩ :: pending =>
    obtain ⟨hfirst, hpending⟩ := List.forall_mem_cons.mp hcursor
    cases hr : w.resolve a h with
    | error f =>
      simp only [next, hr]
      exact ⟨ends_error (World.ends_resolve h f hr), fun v rest hrest => by cases hrest⟩
    | ok node =>
      simp only [next, hr]
      refine ⟨ends_ok _, fun v rest hrest p hp => ?_⟩
      obtain ⟨rfl, rfl⟩ := Prod.mk.inj (Option.some.inj (Except.ok.inj hrest))
      rcases List.mem_append.mp hp with hbelow | hp
      · obtain ⟨child, hchild, rfl⟩ := List.mem_map.mp hbelow
        exact World.rank_child_lt hrank hr hchild hfirst
      · exact hpending p hp

theorem ends_take {cursor : Cursor} (hcursor : ∀ p ∈ cursor, rank p.handle < p.bound)
    (limit : Nat) : Ends (take w a limit cursor) := by
  induction limit generalizing cursor with
  | zero => exact ends_ok _
  | succ limit ih =>
    obtain ⟨hends, hnext⟩ := next_of_rank hrank hcursor
    refine hends.bind fun step hstep => ?_
    match step with
    | none => exact ends_ok _
    | some (v, rest) => exact (ih (hnext v rest hstep)).bind fun _ _ => ends_ok _

theorem walk_ne_tooDeep {cursor : Cursor} (hcursor : ∀ p ∈ cursor, rank p.handle < p.bound) :
    (walk w a cursor).2 ≠ some .tooDeep := by
  fun_induction walk w a cursor with
  | case1 cursor failure hnext =>
    intro hf
    exact (next_of_rank hrank hcursor).1 _ hnext (Option.some.inj hf)
  | case2 => exact nofun
  | case3 cursor v rest hnext visited failure hwalk ih =>
    have hrest := ih ((next_of_rank hrank hcursor).2 v rest hnext)
    rwa [hwalk] at hrest

end Cursor

namespace World

variable {w : World} {a : ArenaId} (hw : w.Ordered)
include hw

theorem Ordered.ends_take (h : Handle) (limit : Nat) :
    Ends (Cursor.take w a limit (Cursor.start w h)) := by
  obtain ⟨rank, hrank, hbound⟩ := hw.exists_rank_lt
  exact Cursor.ends_take hrank (List.forall_mem_singleton.mpr (hbound h)) limit

theorem Ordered.ends_walk (h : Handle) : Ends (w.walk a h) := by
  obtain ⟨rank, hrank, hbound⟩ := hw.exists_rank_lt
  have hwalk : (Cursor.walk w a (Cursor.start w h)).2 ≠ some .tooDeep :=
    Cursor.walk_ne_tooDeep hrank (List.forall_mem_singleton.mpr (hbound h))
  unfold walk
  rcases hrun : Cursor.walk w a (Cursor.start w h) with ⟨visited, failure⟩
  rw [hrun] at hwalk
  cases failure with
  | none => exact ends_ok visited
  | some f => exact ends_error fun hf => hwalk (congrArg some hf)

end World

end MarkupArena
