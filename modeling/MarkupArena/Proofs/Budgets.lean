import MarkupArena.Proofs.Ending
import MarkupArena.Proofs.Placing

/-! The node limit of an arena. A node is stored only if there is room for it, so whatever clients
do, and wherever it fails, no arena holds more nodes than its limit allows. -/
namespace MarkupArena

/-- A natural number lies below the same numbers as the count that it is. -/
theorem Number.ltNat_iff_of_nat? {x : Number} {bound : Nat} (hx : x.nat? = some bound) (n : Nat) :
    x.ltNat n = true ↔ bound < n := by
  cases x with
  | infinite negative => cases hx
  | nan => cases hx
  | finite negative mantissa exponent =>
    simp only [nat?] at hx
    split_ifs at hx with hzero hnegative hexp hdvd <;> obtain rfl := Option.some.inj hx
    · simp [ltNat, hzero]
    · simp [ltNat, hzero, hnegative, Int.not_lt.mpr hexp]
    · have hscale : 0 < bit exponent.natAbs := Nat.pow_pos (by decide)
      have hquotient : mantissa / bit exponent.natAbs < n ↔ mantissa < n * bit exponent.natAbs :=
        Nat.div_lt_iff_lt_mul hscale
      simp [ltNat, hzero, hnegative, Int.not_le.mp hexp, hquotient]

/-- An arena whose node limit is a natural number holds no more nodes than that. -/
def Arena.InBudget (x : Arena) : Prop :=
  ∀ limit bound, x.options.maxNodes = some limit → limit.nat? = some bound → x.size ≤ bound

namespace Arena

variable {x : Arena}

/-- The limit refuses one more node exactly if that were one too many. -/
theorem exceededLimit?_of_nat? {limit : Number} {bound : Nat}
    (hlimit : x.options.maxNodes = some limit) (hbound : limit.nat? = some bound) :
    x.exceededLimit? = if bound < x.size + 1 then some limit else none := by
  have hlt := Number.ltNat_iff_of_nat? hbound (x.size + 1)
  unfold exceededLimit?
  rw [hlimit]
  by_cases hfull : bound < x.size + 1
  · rw [if_pos hfull]
    exact Option.filter_some_pos (hlt.mpr hfull)
  · rw [if_neg hfull]
    exact Option.filter_some_neg (Bool.eq_false_iff.mpr (hlt.not.mpr hfull))

theorem InBudget.of_size_le {y : Arena} (hx : x.InBudget) (hoptions : y.options = x.options)
    (hsize : y.size ≤ x.size) : y.InBudget := by
  intro limit bound hlimit hbound
  rw [hoptions] at hlimit
  exact hsize.trans (hx limit bound hlimit hbound)

theorem inBudget_of_empty (hx : x.size = 0) : x.InBudget := fun _ _ _ _ => hx ▸ Nat.zero_le _

theorem inBudget_push (hroom : x.exceededLimit? = none) (node : Node) : (x.push node).InBudget := by
  intro limit bound hlimit hbound
  have hbefore : x.exceededLimit? = if bound < x.size + 1 then some limit else none :=
    exceededLimit?_of_nat? hlimit hbound
  rw [hbefore] at hroom
  have hsize : (x.push node).size = x.size + 1 := Array.size_push node
  split at hroom
  next => cases hroom
  next hfits =>
    rw [hsize]
    exact Nat.not_lt.mp hfits

end Arena

namespace World

/-- No arena holds more nodes than its limit allows. -/
def InBudget (w : World) : Prop := ∀ a, (w.arena a).InBudget

theorem InBudget.modify {w : World} (hw : w.InBudget) (a : ArenaId) {change : Arena → Arena}
    (hchange : ∀ x : Arena, x.InBudget → (change x).InBudget) :
    (w.modifyArena a change).InBudget := by
  intro b
  rw [arena_modifyArena]
  split
  · exact hchange _ (hw b)
  · exact hw b

/-- Budgets endure whatever clients do: only the storing of a node adds to an arena, and it looks at
the limit first. -/
theorem endures_inBudget : Endures InBudget where
  aside w w' harenas _ hw a := by
    rw [arena_congr harenas]
    exact hw a
  opening w options listener hw a := by
    rw [arena_opening]
    split
    · exact Arena.inBudget_of_empty rfl
    · exact hw a
  link w a source hw := hw.modify a fun x hx => hx.of_size_le rfl le_rfl
  reset w a hw := hw.modify a fun x _ => Arena.inBudget_of_empty rfl
  allocate a node w hw := by
    refine ⟨?_, fun _ _ => True.intro⟩
    rw [perform_allocate]
    split
    · exact hw
    next hroom =>
      split
      · intro b
        rw [arena_store]
        split
        next hb => exact hb.1 ▸ Arena.inBudget_push hroom node
        next => exact hw b
      · exact hw

theorem Reachable.inBudget {w : World} (hw : w.Reachable) : w.InBudget :=
  endures_inBudget.leads hw fun _ => Arena.inBudget_of_empty rfl

/-- A row of handles is refused because of the first that does not resolve. -/
theorem resolveAll_eq_error_iff {w : World} {a : ArenaId} {handles : List Handle} {f : Failure} :
    (handles.forM fun h => discard (w.resolve a h)) = .error f ↔
      ∃ before h after, handles = before ++ h :: after ∧
        (∀ other ∈ before, ∃ node, w.resolve a other = .ok node) ∧ w.resolve a h = .error f := by
  rw [forM_eq_error_iff]
  refine exists_congr fun before => exists_congr fun h => exists_congr fun after =>
    and_congr_right fun _ => and_congr ?_ ?_
  · rw [← resolveAll_eq_ok_iff, forM_eq_ok_iff]
  · cases w.resolve a h with
    | error f' =>
      have hsame : discard (.error f' : Except Failure Node) = .error f' := rfl
      rw [hsame, Except.error.injEq, Except.error.injEq]
    | ok node => exact ⟨fun h => (by cases h), fun h => (by cases h)⟩

/-- What becomes of a node under a limit that is a natural number. -/
theorem perform_allocate_of_nat? {w : World} {a : ArenaId} {limit : Number} {bound : Nat}
    (hlimit : (w.arena a).options.maxNodes = some limit) (hbound : limit.nat? = some bound)
    (node : Node) : perform (allocate a node) w =
      if bound < (w.arena a).size + 1 then
        (.error (.budgetExceeded limit ((w.arena a).size + 1)), w)
      else match node.children.forM fun child => discard (w.resolve a child) with
        | .ok _ => (.ok ((w.store a node).lastHandle a), w.store a node)
        | .error f => (.error f, w) := by
  rw [perform_allocate, Arena.exceededLimit?_of_nat? hlimit hbound]
  by_cases hfull : bound < (w.arena a).size + 1
  · rw [if_pos hfull, if_pos hfull]
  · rw [if_neg hfull]
    exact (if_neg hfull).symm

/-- Whatever clients did, an arena whose limit is a natural number holds no more nodes than that. A
node for which there is no room is refused for that reason, else one with a child that does not
resolve, because of the first such child, and none for another reason. What is refused changes
nothing. What is not refused comes to stand in the next slot, and nothing else changes. -/
theorem within_budget {w : World} (hw : w.Reachable) {a : ArenaId} (ha : w.Opened a)
    {limit : Number} {bound : Nat} (hlimit : (w.arena a).options.maxNodes = some limit)
    (hbound : limit.nat? = some bound) :
    (w.arena a).size ≤ bound ∧
    ∀ node outcome w', perform (allocate a node) w = (outcome, w') →
      (outcome = .error (.budgetExceeded limit ((w.arena a).size + 1)) ↔
        bound < (w.arena a).size + 1) ∧
      ((∃ fault h b, outcome = .error (.invalidHandle fault h b)) ↔
        (w.arena a).size + 1 ≤ bound ∧
          ∃ child ∈ node.children, ∀ n, w.resolve a child ≠ .ok n) ∧
      (∀ f, outcome = .error f → w' = w ∧
        (f = .budgetExceeded limit ((w.arena a).size + 1) ∨
          ∃ before h after, node.children = before ++ h :: after ∧
            (∀ other ∈ before, ∃ n, w.resolve a other = .ok n) ∧ w.resolve a h = .error f)) ∧
      ∀ h, outcome = .ok h → h = a.handle (w.arena a).generation (w.arena a).size ∧
        w'.arena a = (w.arena a).push node ∧
        ∀ b, b ≠ a → w'.arena b = w.arena b := by
  refine ⟨hw.inBudget a limit bound hlimit hbound, fun node outcome w' hrun => ?_⟩
  rw [perform_allocate_of_nat? hlimit hbound] at hrun
  by_cases hfull : bound < (w.arena a).size + 1
  · rw [if_pos hfull] at hrun
    obtain ⟨rfl, rfl⟩ := Prod.mk.inj hrun
    refine ⟨iff_of_true rfl hfull, ⟨?_, fun h => absurd h.1 (Nat.not_le.mpr hfull)⟩, ?_, ?_⟩
    · rintro ⟨fault, h, b, hf⟩
      cases hf
    · intro f hf
      exact ⟨rfl, .inl (Except.error.inj hf).symm⟩
    · intro h hh
      cases hh
  rw [if_neg hfull] at hrun
  cases hall : node.children.forM fun child => discard (w.resolve a child) with
  | error f =>
    simp only [hall] at hrun
    obtain ⟨rfl, rfl⟩ := Prod.mk.inj hrun
    obtain ⟨before, h, after, hchildren, hbefore, hresolve⟩ := resolveAll_eq_error_iff.mp hall
    obtain ⟨fault, b, rfl⟩ := resolve_eq_error hresolve
    refine ⟨iff_of_false (fun hf => by cases hf) hfull, ?_, ?_, fun h hh => by cases hh⟩
    · refine iff_of_true ⟨fault, h, b, rfl⟩ ⟨Nat.not_lt.mp hfull, h, ?_, fun n hn => ?_⟩
      · rw [hchildren]
        exact List.mem_append_right _ List.mem_cons_self
      · rw [hn] at hresolve
        cases hresolve
    · intro f hf
      obtain rfl := Except.error.inj hf
      exact ⟨rfl, .inr ⟨before, h, after, hchildren, hbefore, hresolve⟩⟩
  | ok =>
    simp only [hall] at hrun
    obtain ⟨rfl, rfl⟩ := Prod.mk.inj hrun
    refine ⟨iff_of_false (fun hf => by cases hf) hfull, ?_, (fun f hf => by cases hf), ?_⟩
    · refine iff_of_false (fun ⟨_, _, _, hf⟩ => by cases hf) fun ⟨_, child, hchild, hnone⟩ => ?_
      obtain ⟨n, hn⟩ := resolveAll_eq_ok_iff.mp hall child hchild
      exact hnone n hn
    · intro h hh
      obtain rfl := Except.ok.inj hh
      refine ⟨lastHandle_store w a node ha, ?_, fun b hb => ?_⟩
      · rw [arena_store, if_pos ⟨rfl, ha⟩]
      · rw [arena_store, if_neg fun hab => hb hab.1.symm]

end World

/-- Opens an arena for two nodes and asks for a fragment of two texts, which makes three. -/
def overfill : Session Unit Handle := do
  let a ← monadLift (openArena { maxNodes := some (.ofNat 2) } none)
  monadLift (Build.fragment a [.text "first", .text "second"])

def filledArena : World := (perform overfill ({}, ())).2.1

theorem reachable_filledArena : filledArena.Reachable := by
  refine ⟨Unit, Handle, overfill, (), (), _, ?_, rfl⟩
  exact .andThen (.call (.openArena _ _)) fun a => .call (.fragment _ _)

/-- The texts fill the arena, so there is no room for the fragment, nor for any node after it. -/
theorem within_budget_of_filledArena : filledArena.Reachable ∧ filledArena.Opened ⟨0⟩ ∧
    (filledArena.arena ⟨0⟩).nodes = #[.text "first", .text "second"] ∧
    (filledArena.arena ⟨0⟩).options.maxNodes = some (.ofNat 2) ∧
    (Number.ofNat 2).nat? = some 2 ∧ (filledArena.arena ⟨0⟩).size ≤ 2 ∧
    perform (allocate ⟨0⟩ (.text "third")) filledArena =
      (.error (.budgetExceeded (.ofNat 2) 3), filledArena) := by
  have hbound : (Number.ofNat 2).nat? = some 2 := by decide
  obtain ⟨hsize, hallocate⟩ :=
    World.within_budget reachable_filledArena (a := ⟨0⟩) (by decide) rfl hbound
  obtain ⟨hfull, -, hrefused, -⟩ := hallocate (.text "third") _ _ rfl
  have hf := hfull.mpr (by decide)
  have hsame := (hrefused _ hf).1
  exact ⟨reachable_filledArena, by decide, rfl, rfl, hbound, hsize, Prod.ext hf hsame⟩

end MarkupArena
