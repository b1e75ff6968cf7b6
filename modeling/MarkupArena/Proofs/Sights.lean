import MarkupArena.Proofs.Ending
import MarkupArena.Proofs.Lifetime
import MarkupArena.Proofs.Rewriting
import MarkupArena.Proofs.Unescaping
import MarkupArena.Proofs.Views

/-! What is seen of a stored tree that need not be all there. Whoever goes through it meets the same
nodes in the same order, and whoever fails does so at the first handle that does not resolve. Only
the text of a tree that is all there may be out of reach, since markup that was rendered before has
to be read for it. -/
namespace MarkupArena

section
variable {α β : Type}

/-- The outcome of work that comes to a value unless there is a failure. -/
def outcome (value : α) : Option Failure → Except Failure α
  | none => .ok value
  | some f => .error f

def failureOf : Except Failure α → Option Failure
  | .ok _ => none
  | .error f => some f

/-- The values before the first failure, and that failure, if there is one. -/
def upToFailure : List (Except Failure α) → List α × Option Failure
  | [] => ([], none)
  | .ok x :: rest => (x :: (upToFailure rest).1, (upToFailure rest).2)
  | .error f :: _ => ([], some f)

/-- What is found in one place and then, if nothing failed there, in another. -/
def andThen (first second : List α × Option Failure) : List α × Option Failure :=
  match first.2 with
  | none => (first.1 ++ second.1, second.2)
  | some f => (first.1, some f)

theorem upToFailure_append (first second : List (Except Failure α)) :
    upToFailure (first ++ second) = andThen (upToFailure first) (upToFailure second) := by
  induction first with
  | nil => rfl
  | cons x rest ih =>
    cases x with
    | error f => rfl
    | ok x =>
      rw [List.cons_append, upToFailure, upToFailure, ih, andThen, andThen]
      cases (upToFailure rest).2 <;> rfl

theorem andThen_assoc (first second third : List α × Option Failure) :
    andThen (andThen first second) third = andThen first (andThen second third) := by
  obtain ⟨xs, _ | f⟩ := first
  · obtain ⟨ys, _ | f⟩ := second
    · simp [andThen]
    · rfl
  · rfl

theorem snd_andThen (first second : List α × Option Failure) :
    (andThen first second).2 = first.2.or second.2 := by
  obtain ⟨xs, _ | f⟩ := first <;> rfl

theorem map_outcome (g : α → β) (value : α) (failure : Option Failure) :
    (outcome value failure).map g = outcome (g value) failure := by
  cases failure <;> rfl

theorem failureOf_bind_ok (x : Except Failure α) (g : α → β) :
    failureOf (x >>= fun value => .ok (g value)) = failureOf x := by
  cases x <;> rfl

end

/-- A node with what is seen under it, or a handle that does not resolve. -/
inductive Sight where
  | node (handle : Handle) (stored : Node) (children : List Sight)
  | broken (handle : Handle) (failure : Failure)

namespace Sight

def handle : Sight → Handle
  | node handle _ _ => handle
  | broken handle _ => handle

mutual

/-- What there is to meet, each node before its children, at its depth. -/
def occurrences (depth : Nat) : Sight → List (Except Failure Visited)
  | node handle stored children =>
    .ok ⟨stored, handle, depth⟩ :: occurrencesAll (depth + 1) children
  | broken _ failure => [.error failure]

def occurrencesAll (depth : Nat) : List Sight → List (Except Failure Visited)
  | [] => []
  | sight :: rest => occurrences depth sight ++ occurrencesAll depth rest

end

mutual

/-- The first failure there is to meet. -/
def failure? : Sight → Option Failure
  | node _ _ children => failureAmong? children
  | broken _ failure => some failure

def failureAmong? : List Sight → Option Failure
  | [] => none
  | sight :: rest => sight.failure?.or (failureAmong? rest)

end

mutual

theorem snd_upToFailure (depth : Nat) (sight : Sight) :
    (upToFailure (sight.occurrences depth)).2 = sight.failure? := by
  cases sight with
  | node handle stored children => exact snd_upToFailureAll (depth + 1) children
  | broken handle failure => rfl

theorem snd_upToFailureAll (depth : Nat) (sights : List Sight) :
    (upToFailure (occurrencesAll depth sights)).2 = failureAmong? sights := by
  cases sights with
  | nil => rfl
  | cons sight rest =>
    rw [occurrencesAll, upToFailure_append, snd_andThen, snd_upToFailure depth sight,
      snd_upToFailureAll depth rest, failureAmong?]

end

/-- What an arena sees of a tree. -/
inductive Seen (w : World) (a : ArenaId) : Sight → Prop where
  | node {handle : Handle} {stored : Node} {children : List Sight} :
      w.resolve a handle = .ok stored → children.map Sight.handle = stored.children →
      (∀ child ∈ children, Seen w a child) → Seen w a (.node handle stored children)
  | broken {handle : Handle} {failure : Failure} :
      w.resolve a handle = .error failure → Seen w a (.broken handle failure)

variable {w : World} {a : ArenaId}

theorem exists_of_failureAmong {sights : List Sight} {f : Failure}
    (h : failureAmong? sights = some f) : ∃ sight ∈ sights, sight.failure? = some f := by
  induction sights with
  | nil => cases h
  | cons sight rest ih =>
    rw [failureAmong?, Option.or_eq_some_iff] at h
    rcases h with hfirst | ⟨-, hrest⟩
    · exact ⟨sight, List.mem_cons_self, hfirst⟩
    · obtain ⟨other, hother, hf⟩ := ih hrest
      exact ⟨other, List.mem_cons_of_mem _ hother, hf⟩

/-- The first failure is that of a handle that does not resolve. -/
theorem Seen.exists_of_failure {sight : Sight} (hseen : sight.Seen w a) {f : Failure}
    (hf : sight.failure? = some f) : ∃ h, w.resolve a h = .error f := by
  induction hseen with
  | @broken handle failure hr =>
    obtain rfl := Option.some.inj hf
    exact ⟨handle, hr⟩
  | node _ _ _ ih =>
    obtain ⟨child, hchild, hf⟩ := exists_of_failureAmong hf
    exact ih child hchild hf

section
variable {rank : Handle → Nat} (hrank : ∀ child h, w.Under child h → rank child < rank h)

theorem failureOf_mapM {α : Type} {f : Handle → Except Failure α} {sights : List Sight}
    (h : ∀ sight ∈ sights, failureOf (f sight.handle) = sight.failure?) :
    failureOf ((sights.map Sight.handle).mapM f) = failureAmong? sights := by
  induction sights with
  | nil => rfl
  | cons sight rest ih =>
    obtain ⟨hfirst, hrest⟩ := List.forall_mem_cons.mp h
    rw [List.map_cons, List.mapM_cons, failureAmong?, ← hfirst, ← ih hrest]
    cases f sight.handle with
    | error e => rfl
    | ok x => cases (rest.map Sight.handle).mapM f <;> rfl

include hrank

/-- Children have enough depth left below a bound for their parent. -/
theorem rank_lt_of_mem {handle : Handle} {stored : Node} {children : List Sight}
    (hr : w.resolve a handle = .ok stored) (hhandles : children.map Sight.handle = stored.children)
    {fuel : Nat} (hfuel : rank handle < fuel + 1) {child : Sight} (hchild : child ∈ children) :
    rank child.handle < fuel :=
  World.rank_child_lt hrank hr (hhandles ▸ List.mem_map_of_mem hchild) hfuel

/-- A traversal that fails at a handle that does not resolve, and at one that does where it fails
for the children, fails where the tree does. What it carries along makes no difference. -/
theorem Seen.failureOf_eq {ι α : Type} {f : ι → Nat → Handle → Except Failure α}
    (hbroken : ∀ i fuel h failure, w.resolve a h = .error failure →
      failureOf (f i (fuel + 1) h) = some failure)
    (hnode : ∀ i fuel h node, w.resolve a h = .ok node →
      ∃ j, failureOf (f i (fuel + 1) h) = failureOf (node.children.mapM (f j fuel)))
    {sight : Sight} (hseen : sight.Seen w a) {fuel : Nat} (hfuel : rank sight.handle < fuel)
    (i : ι) :
    failureOf (f i fuel sight.handle) = sight.failure? := by
  induction hseen generalizing fuel i with
  | @broken handle failure hr =>
    cases fuel with
    | zero => cases hfuel
    | succ fuel => exact hbroken i fuel handle failure hr
  | @node handle stored children hr hhandles hchildren ih =>
    cases fuel with
    | zero => cases hfuel
    | succ fuel =>
      obtain ⟨j, hj⟩ := hnode i fuel handle stored hr
      rw [Sight.handle, hj, failure?, ← hhandles]
      exact failureOf_mapM fun child hchild =>
        ih child hchild (rank_lt_of_mem hrank hr hhandles hfuel hchild) j

theorem Seen.failureOf_renderNode {sight : Sight} (hseen : sight.Seen w a) {fuel : Nat}
    (hfuel : rank sight.handle < fuel) :
    failureOf (w.renderNode a fuel sight.handle) = sight.failure? := by
  refine Seen.failureOf_eq hrank (f := fun _ : Unit => w.renderNode a) ?_ ?_ hseen hfuel ()
  · intro _ fuel h failure hr
    rw [World.renderNode_of_error hr]
    rfl
  · intro _ fuel h node hr
    refine ⟨(), ?_⟩
    rw [World.renderNode_of_resolve hr, map_eq_pure_bind]
    exact failureOf_bind_ok _ _

theorem Seen.failureOf_outlineNode {sight : Sight} (hseen : sight.Seen w a) {fuel : Nat}
    (hfuel : rank sight.handle < fuel) (level : Nat) :
    failureOf (w.outlineNode a fuel level sight.handle) = sight.failure? := by
  refine Seen.failureOf_eq hrank (f := fun level fuel => w.outlineNode a fuel level) ?_ ?_ hseen
    hfuel level
  · intro level fuel h failure hr
    rw [World.outlineNode, hr]
    rfl
  · intro level fuel h node hr
    rw [World.outlineNode, hr]
    cases node with
    | element e => exact ⟨level + 1, failureOf_bind_ok _ _⟩
    | fragment handles => exact ⟨level, failureOf_bind_ok _ _⟩
    | text value => exact ⟨level, rfl⟩
    | rendered markup => exact ⟨level, rfl⟩

omit hrank in
theorem perform_mapM_outcome {α : Type} {f : Handle → Action α} {g : Handle → α}
    {sights : List Sight}
    (h : ∀ sight ∈ sights,
      perform (f sight.handle) w = (outcome (g sight.handle) sight.failure?, w)) :
    perform ((sights.map Sight.handle).mapM f) w =
      (outcome ((sights.map Sight.handle).map g) (failureAmong? sights), w) := by
  induction sights with
  | nil => rfl
  | cons sight rest ih =>
    obtain ⟨hfirst, hrest⟩ := List.forall_mem_cons.mp h
    rw [List.map_cons, List.mapM_cons, perform_bind, hfirst, failureAmong?]
    cases sight.failure? with
    | some f => rfl
    | none =>
      simp only [outcome, perform_bind, ih hrest, Option.none_or]
      cases failureAmong? rest <;> rfl

omit hrank in
theorem visit_keep (bound depth : Nat) (h : Handle) :
    Revision.visit (m := Action) a a (fun _ _ _ => pure .keep) (bound + 1) depth h = (do
      let node ← resolve a h
      let results ← node.children.mapM
        (Revision.visit (m := Action) a a (fun _ _ _ => pure .keep) bound (depth + 1))
      let kept ← Revision.settle a node h results
      return [kept]) :=
  Revision.visit_eq a a (fun _ _ _ => .keep) bound depth h

/-- Who keeps every node of a tree ends with its root. -/
theorem Seen.perform_visit {sight : Sight} (hseen : sight.Seen w a) {fuel : Nat}
    (hfuel : rank sight.handle < fuel) (depth : Nat) :
    perform (Revision.visit (m := Action) a a (fun _ _ _ => pure .keep) fuel depth sight.handle) w =
      (outcome [sight.handle] sight.failure?, w) := by
  induction hseen generalizing fuel depth with
  | @broken handle failure hr =>
    cases fuel with
    | zero => cases hfuel
    | succ fuel =>
      rw [visit_keep, Sight.handle, perform_bind, resolve, perform_observe, hr]
      rfl
  | @node handle stored children hr hhandles hchildren ih =>
    cases fuel with
    | zero => cases hfuel
    | succ fuel =>
      have hall := perform_mapM_outcome (g := fun h => [h]) fun child hchild =>
        ih child hchild (rank_lt_of_mem hrank hr hhandles hfuel hchild) (depth + 1)
      rw [hhandles] at hall
      rw [visit_keep, Sight.handle, perform_bind, resolve, perform_observe, hr]
      simp only [perform_bind, hall, failure?]
      cases failureAmong? children with
      | some f => rfl
      | none =>
        simp only [outcome, Revision.settle, if_true]
        rfl

end

/-- The loop goes through what a sight holds before anything else that is pending. -/
theorem walk_pending {sights : List Sight} {depth bound : Nat}
    (h : ∀ sight ∈ sights, ∀ rest, Cursor.walk w a (⟨sight.handle, depth, bound⟩ :: rest) =
      andThen (upToFailure (sight.occurrences depth)) (Cursor.walk w a rest)) (rest : Cursor) :
    Cursor.walk w a (sights.map (fun sight => ⟨sight.handle, depth, bound⟩) ++ rest) =
      andThen (upToFailure (occurrencesAll depth sights)) (Cursor.walk w a rest) := by
  induction sights with
  | nil => rfl
  | cons sight others ih =>
    obtain ⟨hfirst, hothers⟩ := List.forall_mem_cons.mp h
    rw [List.map_cons, List.cons_append, hfirst, ih hothers, occurrencesAll, upToFailure_append,
      andThen_assoc]

theorem walk_cons_of_error {h : Handle} {f : Failure} (hr : w.resolve a h = .error f)
    (depth bound : Nat) (rest : Cursor) :
    Cursor.walk w a (⟨h, depth, bound + 1⟩ :: rest) = ([], some f) := by
  have hnext : Cursor.next w a (⟨h, depth, bound + 1⟩ :: rest) = .error f := by
    simp only [Cursor.next, hr]
  rw [Cursor.walk]
  split
  next hn =>
    rw [hnext] at hn
    obtain rfl := Except.error.inj hn
    rfl
  next hn => simp [hnext] at hn
  next hn => simp [hnext] at hn

theorem Seen.walk_cons {rank : Handle → Nat}
    (hrank : ∀ child h, w.Under child h → rank child < rank h) {sight : Sight}
    (hseen : sight.Seen w a) {bound : Nat} (hbound : rank sight.handle < bound) (depth : Nat)
    (rest : Cursor) : Cursor.walk w a (⟨sight.handle, depth, bound⟩ :: rest) =
      andThen (upToFailure (sight.occurrences depth)) (Cursor.walk w a rest) := by
  -- The children are put before what is pending, so the rest is general.
  induction hseen generalizing bound depth rest with
  | @broken handle failure hr =>
    cases bound with
    | zero => cases hbound
    | succ bound => exact walk_cons_of_error hr depth bound rest
  | @node handle stored children hr hhandles hchildren ih =>
    cases bound with
    | zero => cases hbound
    | succ bound =>
      have hbelow : Cursor.below stored depth bound =
          children.map fun sight => ⟨sight.handle, depth + 1, bound⟩ := by
        rw [Cursor.below, ← hhandles, List.map_map]
        rfl
      have hall := walk_pending (fun child hchild => ih child hchild
        (rank_lt_of_mem hrank hr hhandles hbound hchild) (depth + 1)) rest
      rw [Sight.handle, Cursor.walk_cons_of_resolve hr, hbelow, hall, occurrences, upToFailure]
      unfold andThen
      cases (upToFailure (occurrencesAll (depth + 1) children)).2 <;> rfl

end Sight

namespace World

variable {w : World}

/-- Of every tree something is seen. -/
theorem Ordered.exists_seen (hw : w.Ordered) (a : ArenaId) (root : Handle) :
    ∃ sight : Sight, sight.Seen w a ∧ sight.handle = root := by
  induction root using hw.wellFounded_under.induction with
  | _ h ih =>
    cases hr : w.resolve a h with
    | error f => exact ⟨.broken h f, .broken hr, rfl⟩
    | ok node =>
      obtain ⟨sights, hall, hhandles⟩ := exists_of_forall_mem fun child hchild =>
        ih child ⟨a, node, hr, hchild⟩
      exact ⟨.node h node sights, .node hr hhandles hall, rfl⟩

theorem textContent_of_cursor {a : ArenaId} {root : Handle} {visited : List Visited}
    {failure : Option Failure}
    (hwalk : Cursor.walk w a (Cursor.start w root) = (visited, failure)) :
    w.textContent a root = (do
      let texts ← visited.mapM fun v => ownText v.node
      outcome (String.join texts) failure) := by
  unfold textContent
  rw [hwalk]
  cases failure <;> rfl

/-- Who keeps every node makes nothing and ends with the root, or fails where the tree does. -/
theorem perform_keepAll {a : ArenaId} {rank : Handle → Nat}
    (hrank : ∀ child h, w.Under child h → rank child < rank h) {sight : Sight}
    (hseen : sight.Seen w a) (hbound : rank sight.handle < w.depthBound) :
    perform (Revision.keepAll (m := Action) a a sight.handle) w =
      (outcome sight.handle sight.failure?, w) := by
  have hlink : perform (link a a) w = (.ok ⟨⟩, w) := congrArg (Prod.mk _) (if_pos (.inl rfl))
  have hdepth : perform (observe fun w => .ok w.depthBound) w = (.ok w.depthBound, w) :=
    perform_observe _ w
  unfold Revision.keepAll Revision.revise
  simp only [monadLift_self, perform_bind, hlink, hdepth, hseen.perform_visit hrank hbound 0]
  cases sight.failure? <;> rfl

/-- All traversals agree. What a walk yields is what there is to meet, in order, up to the first
handle that does not resolve; and if there is one, every traversal fails for it, else they all go
through. The text of a tree is that of the nodes that are yielded, provided that the markup among
them that was rendered before can be read; else the first of it that cannot is what stands in the
way. -/
theorem traversals_agree (hw : w.Reachable) (a : ArenaId) (root : Handle) :
    (∃ sight : Sight, sight.Seen w a ∧ sight.handle = root) ∧
    ∀ sight : Sight, sight.Seen w a → sight.handle = root →
    ∀ visited failure, upToFailure (sight.occurrences 0) = (visited, failure) →
      Cursor.walk w a (Cursor.start w root) = (visited, failure) ∧
      (∀ f, failure = some f →
        ∃ fault h b, f = .invalidHandle fault h b ∧ w.resolve a h = .error f) ∧
      w.walk a root = outcome visited failure ∧
      w.walkElements a root = outcome (elementsOf visited) failure ∧
      (∀ tag, w.findAll a root tag = outcome (((elementsOf visited).filter fun (e, _) =>
        e.tag == tag).map fun (_, v) => v.handle) failure) ∧
      w.count a root = outcome visited.length failure ∧
      (∀ withDoctype, failureOf (w.render a root withDoctype) = failure) ∧
      failureOf (w.outline a root) = failure ∧
      perform (Revision.keepAll (m := Action) a a root) w = (outcome root failure, w) ∧
      (∀ text : Visited → String, (∀ v ∈ visited, ownText v.node = .ok (text v)) →
        w.textContent a root = outcome (String.join (visited.map text)) failure) ∧
      ∀ before v after f, visited = before ++ v :: after →
        (∀ u ∈ before, ∃ text, ownText u.node = .ok text) → ownText v.node = .error f →
        w.textContent a root = .error f := by
  have hordered := hw.ordered
  obtain ⟨rank, hrank, hbound⟩ := hordered.exists_rank_lt
  refine ⟨hordered.exists_seen a root, ?_⟩
  rintro sight hseen rfl visited failure hmet
  have hfailure : sight.failure? = failure := by
    rw [← sight.snd_upToFailure 0, hmet]
  have hcursor : Cursor.walk w a (Cursor.start w sight.handle) = (visited, failure) := by
    rw [Cursor.start, hseen.walk_cons hrank (hbound _), hmet, Cursor.walk_nil]
    cases failure <;> simp [andThen]
  have hwalk : w.walk a sight.handle = outcome visited failure := by
    unfold walk
    rw [hcursor]
    cases failure <;> rfl
  have helements : w.walkElements a sight.handle = outcome (elementsOf visited) failure := by
    rw [walkElements, hwalk, map_outcome]
  refine ⟨hcursor, ?_, hwalk, helements, ?_, ?_, ?_, ?_, ?_, ?_, ?_⟩
  · rintro f rfl
    obtain ⟨h, hr⟩ := hseen.exists_of_failure hfailure
    obtain ⟨fault, b, rfl⟩ := resolve_eq_error hr
    exact ⟨fault, h, b, rfl, hr⟩
  · intro tag
    rw [findAll, helements, map_outcome]
  · rw [count, hwalk, map_outcome]
  · intro withDoctype
    rw [← hfailure, ← hseen.failureOf_renderNode hrank (hbound _)]
    exact failureOf_bind_ok _ _
  · rw [← hfailure, ← hseen.failureOf_outlineNode hrank (hbound _) 0]
    exact failureOf_bind_ok _ _
  · rw [perform_keepAll hrank hseen (hbound _), hfailure]
  · intro text htext
    rw [textContent_of_cursor hcursor, mapM_eq_ok htext]
    rfl
  · rintro before v after f rfl hbefore hv
    rw [textContent_of_cursor hcursor, mapM_eq_error_of_split hbefore hv]
    rfl

end World

theorem resolve_cutOff : cutOff.resolve ⟨2⟩ oldText.handle =
    .error (.invalidHandle .foreignArena oldText.handle ⟨2⟩) := by
  apply World.resolve_of_not_inReach
  intro hreach
  rcases inReach_cutOff hreach with heq | heq
  · cases heq
  · cases heq

/-- What is left to see of the tree across the chain. -/
def cutOffSight : Sight :=
  .node acrossText.handle (.fragment [oldText.handle])
    [.broken oldText.handle (.invalidHandle .foreignArena oldText.handle ⟨2⟩)]

theorem seen_cutOffSight : cutOffSight.Seen cutOff ⟨2⟩ :=
  .node (World.Holds.resolve ⟨0, 0, rfl, rfl⟩) rfl
    (List.forall_mem_singleton.mpr (.broken resolve_cutOff))

theorem traversals_agree_of_cutOff :
    cutOff.Reachable ∧ cutOffSight.Seen cutOff ⟨2⟩ ∧ cutOffSight.handle = acrossText.handle ∧
    Cursor.walk cutOff ⟨2⟩ (Cursor.start cutOff acrossText.handle) =
      ([⟨.fragment [oldText.handle], acrossText.handle, 0⟩],
        some (.invalidHandle .foreignArena oldText.handle ⟨2⟩)) ∧
    cutOff.count ⟨2⟩ acrossText.handle =
      .error (.invalidHandle .foreignArena oldText.handle ⟨2⟩) ∧
    cutOff.textContent ⟨2⟩ acrossText.handle =
      .error (.invalidHandle .foreignArena oldText.handle ⟨2⟩) := by
  obtain ⟨-, hall⟩ := World.traversals_agree reachable_cutOff ⟨2⟩ acrossText.handle
  obtain ⟨hcursor, -, -, -, -, hcount, -, -, -, htext, -⟩ := hall _ seen_cutOffSight rfl _ _ rfl
  exact ⟨reachable_cutOff, seen_cutOffSight, rfl, hcursor, hcount,
    htext (fun _ => "") (List.forall_mem_singleton.mpr rfl)⟩

namespace Reading

namespace Builder

theorem readAll_of_fault {b : Builder} (h : b.fault.isSome) (fuel : Nat) (text : List Char) :
    b.readAll fuel text = b := by
  cases fuel with
  | zero => rfl
  | succ fuel => rw [readAll.eq_def]; exact if_pos h

end Builder

/-- A text that starts with a reference of too many digits cannot be read, whatever follows. -/
theorem summarize_overlong {digits : List Char} (hdigits : ∀ c ∈ digits, isHexDigit c)
    (hlong : Radix.hexadecimal.most < digits.length) (rest : List Char) :
    summarize (String.ofList ('&' :: '#' :: 'x' :: digits ++ rest)) =
      .error .overlongReference := by
  have hplain : ∀ c ∈ '&' :: '#' :: 'x' :: digits, c ≠ '\r' ∧ c ≠ '<' := by
    have hdigit : ∀ c, isHexDigit c → c ≠ '\r' ∧ c ≠ '<' := by
      rintro c h
      constructor <;> (rintro rfl; cases h)
    simpa using fun c hc => hdigit c (hdigits c hc)
  have hlines := normalizeNewlines_append (fun hmem => (hplain _ hmem).1 rfl) rest
  have hread (fuel : Nat) (more : List Char) :
      Builder.start.readAll (fuel + 1) ('&' :: '#' :: 'x' :: digits ++ more) =
        Builder.start.fail .overlongReference := by
    show Builder.readAll fuel (Builder.start.takeDecoded _) _ = _
    rw [List.takeWhile_append_of_pos fun c hc => decide_eq_true (hplain c hc).2,
      Builder.takeDecoded, decode?_overlong hdigits hlong]
    exact Builder.readAll_of_fault rfl _ _
  have hunread : read (String.ofList ('&' :: '#' :: 'x' :: digits ++ rest)) =
      .error .overlongReference := by
    unfold read
    rw [String.toList_ofList, hlines]
    exact congrArg Builder.content (hread _ _)
  rw [summarize, hunread]
  rfl

end Reading

/-- Markup with a reference of more digits than any that has a value. -/
def overlongMarkup : Rendered :=
  ⟨String.ofList ('&' :: '#' :: 'x' :: List.replicate 256 '0' ++ ['4', '1', ';']), [], true⟩

theorem summarize_overlongMarkup :
    Reading.summarize overlongMarkup.html = .error .overlongReference := by
  apply Reading.summarize_overlong
  · intro c hc
    obtain rfl := List.eq_of_mem_replicate hc
    rfl
  · rw [List.length_replicate]
    decide

/-- An arena with markup that was said to have been rendered before. -/
def overlongPage : World :=
  { arenas := #[{ options := {}, listener := none, nodes := #[.rendered overlongMarkup] }]
    stored := 1 }

theorem reachable_overlongPage : overlongPage.Reachable :=
  (World.reachable_empty.call (.openArena {} none)).store ⟨0⟩ (.rendered overlongMarkup) rfl
    (List.forall_mem_nil _)

def overlongTree : Tree := .node (ArenaId.handle ⟨0⟩ 0 0) (.rendered overlongMarkup) []

theorem resolve_overlongTree :
    overlongPage.resolve ⟨0⟩ overlongTree.handle = .ok (.rendered overlongMarkup) :=
  World.Holds.resolve ⟨0, 0, rfl, rfl⟩

theorem stored_overlongTree : overlongTree.Stored overlongPage ⟨0⟩ :=
  .node resolve_overlongTree rfl (List.forall_mem_nil _)

/-- Markup that was rendered before may be all there, walked and rendered though its text cannot be
read. -/
theorem unreadable_of_overlongPage :
    overlongPage.Reachable ∧ overlongTree.Stored overlongPage ⟨0⟩ ∧
    overlongPage.walk ⟨0⟩ overlongTree.handle =
      .ok [⟨.rendered overlongMarkup, overlongTree.handle, 0⟩] ∧
    overlongPage.count ⟨0⟩ overlongTree.handle = .ok 1 ∧
    overlongPage.render ⟨0⟩ overlongTree.handle false = .ok overlongMarkup.html ∧
    overlongPage.textContent ⟨0⟩ overlongTree.handle = .error (.unreadable .overlongReference) := by
  have hordered := reachable_overlongPage.ordered
  have hwalk := hordered.walk_eq stored_overlongTree
  refine ⟨reachable_overlongPage, stored_overlongTree, hwalk, ?_,
    hordered.render_eq stored_overlongTree false, ?_⟩
  · rw [World.count, hwalk]
    rfl
  · rw [hordered.textContent_of_leaf resolve_overlongTree rfl, World.ownText,
      summarize_overlongMarkup]

end MarkupArena
