import MarkupArena.Proofs.SoundMarkup
import MarkupArena.Proofs.Unchecked

/-! Programs that build and revise trees in arenas of their own, with validation or without. A
program that goes through with it goes through without it, to the same end. -/
namespace MarkupArena

/-- A finite program. Every step may depend on what the steps before it came to; a step that fails
ends the program. -/
inductive Program : Type → Type 1 where
  | done {α : Type} (x : α) : Program α
  | andThen {α β : Type} (first : Program α) (next : α → Program β) : Program β
  | addListener : Program Listener
  | openArena (options : ArenaOptions) (listener : Option Listener) : Program ArenaId
  | resolve (a : ArenaId) (h : Handle) : Program Node
  | render (a : ArenaId) (h : Handle) (withDoctype : Bool) : Program String
  | text (a : ArenaId) (value : String) : Program Handle
  | rendered (a : ArenaId) (markup : Rendered) : Program Handle
  | fragment (a : ArenaId) (children : List Child) : Program Handle
  | element (a : ArenaId) (site : CallSite) (tag : String) (input : AttributeInput)
      (children : List Child) : Program Handle
  | realize (a : ArenaId) (description : Description) : Program Handle
  | withChildren (a : ArenaId) (e : Element) (children : List Handle) : Program Handle
  | lines (a : ArenaId) (site : CallSite) (value : String) (tab : Build.Tab)
      (separator : String) : Program Handle
  | revise (source dest : ArenaId) (root : Handle) (visitor : Node → Handle → Nat → Change) :
      Program Handle
  | replaceNodes (source dest : ArenaId) (root : Handle)
      (f : Node → Handle → Option Replacement) : Program Handle
  | filterNodes (source dest : ArenaId) (root : Handle) (accepts : Node → Handle → Bool) :
      Program Handle
  | link (a source : ArenaId) : Program Unit
  | graft (a source : ArenaId) (h : Handle) : Program Handle
  | reset (a : ArenaId) : Program Unit

namespace Program

/-- The work of a program, whose arenas all validate or all do not. -/
def run (validate : Bool) {α : Type} : Program α → Action α
  | done x => pure x
  | andThen first next => do
    let x ← first.run validate
    (next x).run validate
  | addListener => MarkupArena.addListener
  | openArena options listener => MarkupArena.openArena { options with validate } listener
  | resolve a h => MarkupArena.resolve a h
  | render a h withDoctype => observe fun w => w.render a h withDoctype
  | text a value => Build.text a value
  | rendered a markup => Build.rendered a markup
  | fragment a children => Build.fragment a children
  | element a site tag input children => Build.element a site tag input children
  | realize a description => Build.realize a description
  | withChildren a e children => Build.withChildren a e children
  | lines a site value tab separator => Build.lines a site value tab separator
  | revise source dest root visitor =>
    Revision.revise source dest root fun n h depth => pure (visitor n h depth)
  | replaceNodes source dest root f =>
    Revision.replaceNodes source dest root fun n h => pure (f n h)
  | filterNodes source dest root accepts =>
    Revision.filterNodes source dest root fun n h => pure (accepts n h)
  | link a source => MarkupArena.link a source
  | graft a source h => MarkupArena.graft a source h
  | reset a => MarkupArena.reset a

theorem relaxes_openArena (options : ArenaOptions) (listener : Option Listener) :
    Relaxes (MarkupArena.openArena { options with validate := true } listener)
      (MarkupArena.openArena { options with validate := false } listener) := by
  intro w w' a h
  obtain ⟨ha, rfl⟩ := Prod.mk.inj h
  obtain rfl := Except.ok.inj ha
  have hid : ArenaId.mk w.unchecked.arenas.size = ⟨w.arenas.size⟩ :=
    congrArg ArenaId.mk Array.size_map
  have hopened : w.unchecked.arenas.push
        { options := { options with validate := false }, listener } =
      (w.arenas.push { options := { options with validate := true }, listener }).map
        Arena.unchecked := by
    rw [Array.map_push]
    rfl
  exact congrArg₂ (fun a arenas => (Except.ok a, { w.unchecked with arenas })) hid hopened

/-- Each step that succeeds in arenas that validate comes to the same in arenas that do not. -/
theorem relaxes_run {α : Type} (program : Program α) :
    Relaxes (program.run true) (program.run false) := by
  induction program with
  | done x => exact .pure x
  | andThen first next ihfirst ihnext => exact ihfirst.bind ihnext
  | addListener =>
    intro w w' listener h
    obtain ⟨hlistener, rfl⟩ := Prod.mk.inj h
    obtain rfl := Except.ok.inj hlistener
    rfl
  | openArena options listener => exact relaxes_openArena options listener
  | resolve a h => exact .resolve a h
  | render a h withDoctype => exact .observe fun w => w.render_unchecked a h withDoctype
  | text a value => exact .allocate a (.text value)
  | rendered a markup => exact .allocate a (.rendered markup)
  | fragment a children => exact .fragment a children
  | element a site tag input children => exact .element a site tag input children
  | realize a description => exact .realize a description
  | withChildren a e children => exact .withChildren a e children
  | lines a site value tab separator => exact .lines a site value tab separator
  | revise source dest root visitor => exact Revision.relaxes_revise source dest root visitor
  | replaceNodes source dest root f =>
    rw [run, run, Revision.replaceNodes_eq]
    exact Revision.relaxes_revise source dest root _
  | filterNodes source dest root accepts =>
    rw [run, run, Revision.filterNodes_eq]
    exact Revision.relaxes_revise source dest root _
  | link a source => exact .link a source
  | graft a source h => exact .graft a source h
  | reset a => exact .reset a

/-- Validation only filters. Where every step of a program succeeds in arenas that validate, every
step succeeds in arenas that do not: the program has the same result, in which it may tell of all
handles on its way, and leaves the same nodes, links and generation in every arena. What is rendered
from them is the same. -/
theorem unchecked_of_run {α : Type} {program : Program α} {x : α} {w : World}
    (h : perform (program.run true) {} = (.ok x, w)) :
    ∃ w', perform (program.run false) {} = (.ok x, w') ∧
      (∀ a, (w'.arena a).nodes = (w.arena a).nodes ∧ (w'.arena a).links = (w.arena a).links ∧
        (w'.arena a).generation = (w.arena a).generation) ∧
      ∀ a h withDoctype, w'.render a h withDoctype = w.render a h withDoctype := by
  have hrun : perform (program.run false) {} = (.ok x, w.unchecked) := by
    rw [← World.unchecked_empty]
    exact program.relaxes_run {} w x h
  refine ⟨w.unchecked, hrun, fun a => ?_, w.render_unchecked⟩
  rw [World.arena_unchecked]
  split <;> exact ⟨rfl, rfl, rfl⟩

/-- Writes a paragraph in an arena that takes nothing but paragraphs. -/
def writeParagraph : Program Handle :=
  .andThen (.openArena { schema := prose } none) fun a =>
    .element a ⟨[], []⟩ "p" .empty [.text "line"]

theorem unchecked_of_writeParagraph : ∃ h w,
    perform (writeParagraph.run true) {} = (.ok h, w) ∧ (w.arena ⟨0⟩).options.validate = true ∧
    ∃ w', perform (writeParagraph.run false) {} = (.ok h, w') ∧
      (∀ a, (w'.arena a).nodes = (w.arena a).nodes ∧ (w'.arena a).links = (w.arena a).links ∧
        (w'.arena a).generation = (w.arena a).generation) ∧
      ∀ a h withDoctype, w'.render a h withDoctype = w.render a h withDoctype := by
  have hrun : perform (writeParagraph.run true) {} =
      (.ok (ArenaId.handle ⟨0⟩ 0 1), paragraphBegun.store ⟨0⟩ (.element writtenParagraph)) :=
    perform_element_prosePage
  exact ⟨_, _, hrun, rfl, unchecked_of_run hrun⟩

end Program

end MarkupArena
