import MarkupArena.Proofs.Mirroring
import MarkupArena.Proofs.Views

/-! Work on an arena lent by a pool comes to the same as on a new one. What an arena was used for
before does not show, as long as clients work on arenas only while they are lent. -/
namespace MarkupArena

variable {σ : Type}

/-- Two programs that make and revise nodes in the same way, one in either of two arenas. The
handles that one uses stand for those that the other uses, so neither can tell more of a handle
than which it was. -/
inductive Paired (t : Twins) (Own : σ → σ → Prop) :
    {α : Type} → (α → α → Prop) → Session σ α → Session σ α → Prop where
  | done {α : Type} {post : α → α → Prop} {x y : α} :
      post x y → Paired t Own post (pure x) (pure y)
  | fail {α : Type} {post : α → α → Prop} {f f' : Failure} :
      f.Alike f' → Paired t Own post (throw f) (throw f')
  | andThen {α β : Type} {post : α → α → Prop} {post' : β → β → Prop} {work work' : Session σ α}
      {next next' : α → Session σ β} :
      Paired t Own post work work' → (∀ x y, post x y → Paired t Own post' (next x) (next' y)) →
      Paired t Own post' (work >>= next) (work' >>= next')
  | attempt {α : Type} {post : α → α → Prop} {work work' : Session σ α}
      {handler handler' : Failure → Session σ α} :
      Paired t Own post work work' →
      (∀ f f', Failure.Alike f f' → Paired t Own post (handler f) (handler' f')) →
      Paired t Own post (tryCatch work handler) (tryCatch work' handler')
  | cleanUp {α β : Type} {post : α → α → Prop} {post' : β → β → Prop} {work work' : Session σ α}
      {cleanup cleanup' : Session σ β} :
      Paired t Own post work work' → Paired t Own post' cleanup cleanup' →
      Paired t Own post (tryFinally work cleanup) (tryFinally work' cleanup')
  | recollect : Paired t Own Own recollect recollect
  | memorize {own own' : σ} : Own own own' → Paired t Own Eq (memorize own) (memorize own')
  | resolve {h h' : Handle} : t.Same h h' →
      Paired t Own (Node.Corresponds t.Same) (monadLift (resolve t.left h))
        (monadLift (resolve t.right h'))
  | render {h h' : Handle} (withDoctype : Bool) : t.Same h h' →
      Paired t Own Eq (monadLift (observe fun w => w.render t.left h withDoctype))
        (monadLift (observe fun w => w.render t.right h' withDoctype))
  | text (value : String) :
      Paired t Own t.Same (monadLift (Build.text t.left value))
        (monadLift (Build.text t.right value))
  | rendered (markup : Rendered) :
      Paired t Own t.Same (monadLift (Build.rendered t.left markup))
        (monadLift (Build.rendered t.right markup))
  | fragment {children children' : List Child} :
      List.Forall₂ t.SamePart (Child.listParts children) (Child.listParts children') →
      Paired t Own t.Same (monadLift (Build.fragment t.left children))
        (monadLift (Build.fragment t.right children'))
  | element (site : CallSite) (tag : String) (input : AttributeInput)
      {children children' : List Child} :
      List.Forall₂ t.SamePart (Child.listParts children) (Child.listParts children') →
      Paired t Own t.Same (monadLift (Build.element t.left site tag input children))
        (monadLift (Build.element t.right site tag input children'))
  | realize {description description' : Description} :
      t.SameDescription description description' →
      Paired t Own t.Same (monadLift (Build.realize t.left description))
        (monadLift (Build.realize t.right description'))
  | withChildren {info : TagInfo} {attributes : List Attribute}
      {old old' children children' : List Handle} : List.Forall₂ t.Same children children' →
      Paired t Own t.Same
        (monadLift (Build.withChildren t.left ⟨info, attributes, old⟩ children))
        (monadLift (Build.withChildren t.right ⟨info, attributes, old'⟩ children'))
  | lines (site : CallSite) (value : String) (tab : Build.Tab) (separator : String) :
      Paired t Own t.Same (monadLift (Build.lines t.left site value tab separator))
        (monadLift (Build.lines t.right site value tab separator))
  | revise {root root' : Handle} {visitor visitor' : Revision.Visitor (Session σ)} :
      t.Same root root' →
      (∀ node node' h h' depth, node.Corresponds t.Same node' → t.Same h h' →
        Paired t Own t.SameChange (visitor node h depth) (visitor' node' h' depth)) →
      Paired t Own t.Same (Revision.revise t.left t.left root visitor)
        (Revision.revise t.right t.right root' visitor')

section
variable {t : Twins} {Own : σ → σ → Prop} {root root' : Handle} (hroot : t.Same root root')
include hroot

theorem Paired.replaceNodes {f f' : Node → Handle → Session σ (Option Replacement)}
    (hf : ∀ node node' h h', node.Corresponds t.Same node' → t.Same h h' →
      Paired t Own (Option.Rel t.SameReplacement) (f node h) (f' node' h')) :
    Paired t Own t.Same (Revision.replaceNodes t.left t.left root f)
      (Revision.replaceNodes t.right t.right root' f') := by
  refine .revise hroot fun node node' h h' _ hnode hsame => ?_
  refine .andThen (hf node node' h h' hnode hsame) fun _ _ hreplacement => ?_
  cases hreplacement with
  | some hreplacement => exact .done (.replace hreplacement)
  | none => exact .done .keep

theorem Paired.filterNodes {accepts accepts' : Node → Handle → Session σ Bool}
    (haccepts : ∀ node node' h h', node.Corresponds t.Same node' → t.Same h h' →
      Paired t Own Eq (accepts node h) (accepts' node' h')) :
    Paired t Own t.Same (Revision.filterNodes t.left t.left root accepts)
      (Revision.filterNodes t.right t.right root' accepts') := by
  refine .revise hroot fun node node' h h' _ hnode hsame => ?_
  refine .andThen (haccepts node node' h h' hnode hsame) fun accepted _ he => .done ?_
  subst he
  cases accepted with
  | true => exact .keep
  | false => exact .remove

theorem Paired.keepAll : Paired t Own t.Same (Revision.keepAll t.left t.left root)
    (Revision.keepAll t.right t.right root') :=
  .revise hroot fun _ _ _ _ _ _ _ => .done .keep

end

namespace World

theorem Blank.lend {w : World} {a : ArenaId} {options : ArenaOptions} (ha : w.Blank a options)
    (p : PoolId) (idle : List ArenaId) (reused : Bool) :
    (w.lend p a idle reused).Blank a options :=
  ha.congr (opened_congr (w.arenas_lend p a idle reused)).mpr
    (arena_congr (w.arenas_lend p a idle reused) a)

end World

/-- Lends the arena of a new pool for a text. -/
def useOnce : Session Unit Handle := do
  let p ← monadLift (openPool {} none)
  withArena p fun a => monadLift (Build.text a "used")

def usedPool : World := (perform useOnce ({}, ())).2.1

end MarkupArena
