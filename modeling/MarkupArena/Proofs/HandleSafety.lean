import MarkupArena.Proofs.Runs

/-! A handle names one node for good: what was stored under it as long as the arena is not reset,
and nothing afterwards, no matter how arenas are linked, recycled and filled again. -/
namespace MarkupArena

open World

theorem allocate_handle {w w' : World} {a : ArenaId} {node : Node} {h : Handle} (ha : w.Opened a)
    (hrun : perform (allocate a node) w = (.ok h, w')) :
    h = a.handle (w.arena a).generation (w.arena a).size := by
  rw [(allocate_ok hrun).1, lastHandle_store w a node ha]

/-- The slot of a handle that was given out is taken as long as the generation lasts. -/
theorem node_of_allocate {w w₁ w₂ : World} {a : ArenaId} {node : Node} {h : Handle}
    (ha : w.Opened a) (hrun : perform (allocate a node) w = (.ok h, w₁)) (hages : w₁.Ages w₂)
    (hgen : (w₂.arena a).generation = (w.arena a).generation) :
    (w₂.arena a).nodes[(w.arena a).size]? = some node := by
  obtain ⟨-, rfl, -⟩ := allocate_ok hrun
  have ha₁ : (w.store a node).arena a = (w.arena a).push node := by
    rw [arena_store, if_pos ⟨rfl, ha⟩]
  have harena := hages.arena a (opened_store.mpr ha)
  rw [ha₁] at harena
  apply harena.node hgen
  simp [Arena.push, Arena.size]

end MarkupArena
