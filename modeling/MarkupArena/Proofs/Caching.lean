import MarkupArena.Proofs.Traversal

/-! Markup that was rendered before can stand for the tree that it was rendered from: elements made
with the one or the other pass the same checks and are rendered alike. -/
namespace MarkupArena

section
variable {α β : Type}

/-- Outcomes that differ at most in why the schema refuses a child. -/
def Alike (x y : Except Failure α) : Prop :=
  x = y ∨ ∃ why why' index,
    x = .error (.rejected why (some index)) ∧ y = .error (.rejected why' (some index))

theorem Alike.bind {x y : Except Failure α} (h : Alike x y) (f : α → Except Failure β) :
    Alike (x >>= f) (y >>= f) := by
  rcases h with rfl | ⟨why, why', index, rfl, rfl⟩
  · exact .inl rfl
  · exact .inr ⟨why, why', index, rfl, rfl⟩

end

namespace World

variable {w : World} {b : ArenaId}

theorem checkPart_of_stored {info : TagInfo} (hw : w.Ordered)
    (hinfo : (w.arena b).options.schema.find? info.tagName = some info) (index : Nat) {tree : Tree}
    (hstored : tree.Stored w b) :
    (w.checkPart b info index (.node tree.handle) = .ok () ↔
      PermitsSummary (w.arena b).options.schema info tree.content.summary) ∧
    RefusesChild index (w.checkPart b info index (.node tree.handle)) := by
  have hcheck : w.checkPart b info index (.node tree.handle) =
      w.checkMember b info index w.depthBound tree.root := by
    rw [checkPart, hstored.resolve]
    rfl
  rw [hcheck]
  exact checkMember_of_stored hinfo index hstored (hw.height_le_depthBound hstored)

end World

namespace Build

variable {w : World} {b : ArenaId}

/-- Without a budget all parts can be stored. -/
theorem storeAll_of_unlimited (hb : w.Opened b) (hlimit : (w.arena b).options.maxNodes = none)
    (parts : List Part) :
    ∃ handles w', perform (parts.mapM (store b)) w = (.ok handles, w') := by
  induction parts generalizing w with
  | nil => exact ⟨[], w, rfl⟩
  | cons part rest ih =>
    have hfirst : ∃ h w₁, perform (store b part) w = (.ok h, w₁) := by
      cases part with
      | text value =>
        refine ⟨_, _, allocate_of_resolves ?_ fun child hchild => by cases hchild⟩
        rw [Arena.exceededLimit?, hlimit]
        rfl
      | node h => exact ⟨h, w, rfl⟩
    obtain ⟨h, w₁, hfirst⟩ := hfirst
    obtain ⟨hgrow, -⟩ := yields_store hb part w w₁ h (.refl w) hfirst
    obtain ⟨handles, w', hrest⟩ := ih (hgrow.opened b hb) (hgrow.unlimited hb hlimit)
    exact ⟨h :: handles, w', by
      rw [List.mapM_cons, perform_bind, hfirst]
      simp only [perform_bind, hrest, perform_pure]⟩

/-- Where all nodes among the parts resolve, so do all handles that the parts are placed under. -/
theorem resolves_of_placed {parts : List Part} {handles : List Handle}
    (hplaced : List.Forall₂ (Placed w b) parts handles)
    (hresolves : ∀ handle, .node handle ∈ parts → ∃ n, w.resolve b handle = .ok n) :
    ∀ handle ∈ handles, ∃ n, w.resolve b handle = .ok n := by
  intro handle hmem
  obtain ⟨part, hpart, hp⟩ := placed_of_mem hplaced hmem
  cases part with
  | text value => exact ⟨_, World.Holds.resolve hp⟩
  | node g =>
    obtain rfl : handle = g := hp
    exact hresolves handle hpart

end Build

end MarkupArena
