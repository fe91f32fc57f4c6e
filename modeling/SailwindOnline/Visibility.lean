import SailwindOnline.World

/-!
Who is visible from a cell. The entity index, the distance between cells and
the cells a subscription holds are three ways to say it; all histories of
placements, removals and recentrings leave the three in agreement.
-/

namespace SailwindOnline.World
variable {F : Type}

inductive Change where
  | place (id : EntityId) (cell : Cell)
  | remove (id : EntityId)

def change (world : World F) : Change → World F
  | .place id cell => world.placeInCell id cell
  | .remove id => world.remove id

def history (grid : Grid F) (changes : List Change) : World F := changes.foldl change { grid }

theorem coherent_history (grid : Grid F) (changes : List Change) : Coherent (history grid changes) := by
  have folded : ∀ world : World F, Coherent world → Coherent (changes.foldl change world) := by
    induction changes with
    | nil => exact fun _ coherent => coherent
    | cons head rest ih =>
        intro world coherent
        apply ih
        cases head with
        | place id cell => exact coherent.placeInCell id cell
        | remove id => exact coherent.remove id
  exact folded { grid } (coherent_empty grid)

section Queries
variable {world : World F} (order : SetOrder)

theorem mem_entitiesIn (coherent : Coherent world) (cell : Cell) (id : EntityId) :
    id ∈ entitiesIn order world cell ↔ world.cellOfEntity id = some cell := by
  rw [cellOfEntity, ← coherent.listed_iff]
  unfold entitiesIn Listed
  split
  · rename_i absent
    simp [absent]
  · rename_i members present
    simp [present, order.complete]

theorem nodup_entitiesIn (cell : Cell) : (entitiesIn order world cell).Nodup := by
  unfold entitiesIn
  split
  · exact List.nodup_nil
  · exact order.nodup _

theorem mem_entitiesInRadius (coherent : Coherent world) (center : Cell) (radius : Nat) (id : EntityId) :
    id ∈ entitiesInRadius order world center radius ↔
      ∃ cell, world.cellOfEntity id = some cell ∧ cell.chebyshevDistance center ≤ radius := by
  simp only [entitiesInRadius, List.mem_flatMap, mem_cellsInRadius, mem_entitiesIn order coherent]
  constructor
  · rintro ⟨cell, near, here⟩
    exact ⟨cell, here, near⟩
  · rintro ⟨cell, here, near⟩
    exact ⟨cell, near, here⟩

/-- An entity is in one cell, and the block names each of its cells once. -/
theorem nodup_entitiesInRadius (coherent : Coherent world) (center : Cell) (radius : Nat) :
    (entitiesInRadius order world center radius).Nodup := by
  refine List.nodup_flatMap.mpr ⟨fun cell _ => nodup_entitiesIn order cell, ?_⟩
  refine (nodup_cellsInRadius center radius).imp ?_
  intro cell other apart id left right
  rw [mem_entitiesIn order coherent] at left right
  rw [left, Option.some.injEq] at right
  exact apart right

end Queries

def AoiUpdate.apply (view : Finset Cell) (update : AoiUpdate) : Finset Cell :=
  (view \ update.removed) ∪ update.added

/-- The subscription after recentring on `centers` in turn, with the updates returned. -/
def recenterAll (subscription : Subscription) (centers : List Cell) : Subscription × List AoiUpdate :=
  centers.foldl (fun walk center =>
    ((walk.1.recenter center).1, walk.2 ++ [(walk.1.recenter center).2])) (subscription, [])

theorem recenterAll_append (subscription : Subscription) (centers : List Cell) (center : Cell) :
    recenterAll subscription (centers ++ [center]) =
      (((recenterAll subscription centers).1.recenter center).1,
        (recenterAll subscription centers).2 ++ [((recenterAll subscription centers).1.recenter center).2]) := by
  simp [recenterAll, List.foldl_append]

/-- The cells held are the block around the center, once there is one. -/
structure Subscription.Centered (subscription : Subscription) : Prop where
  unplaced : subscription.center = none → subscription.cells = ∅
  block : ∀ center, subscription.center = some center →
    subscription.cells = (cellsInRadius center subscription.radius).toFinset

section Walks
variable {subscription : Subscription}

theorem radius_recenter (center : Cell) : (subscription.recenter center).1.radius = subscription.radius := by
  unfold Subscription.recenter
  split <;> rfl

theorem cells_recenter (centered : subscription.Centered) (center : Cell) :
    (subscription.recenter center).1.cells = (cellsInRadius center subscription.radius).toFinset := by
  unfold Subscription.recenter
  split
  · rename_i same
    exact centered.block center same
  · rfl

theorem centered_recenter (centered : subscription.Centered) (center : Cell) :
    (subscription.recenter center).1.Centered where
  unplaced := by
    intro gone
    rw [Subscription.center_recenter] at gone
    cases gone
  block := by
    intro found same
    rw [Subscription.center_recenter, Option.some.injEq] at same
    rw [cells_recenter centered, radius_recenter, same]

/-- An update is the exact difference of the cells held after and before it. -/
theorem update_recenter (centered : subscription.Centered) (center : Cell) :
    (subscription.recenter center).2 =
      { added := (subscription.recenter center).1.cells \ subscription.cells
        removed := subscription.cells \ (subscription.recenter center).1.cells } := by
  rw [cells_recenter centered]
  unfold Subscription.recenter
  split
  · rename_i same
    simp [centered.block center same]
  · rfl

theorem apply_difference (view target : Finset Cell) :
    AoiUpdate.apply view { added := target \ view, removed := view \ target } = target := by
  ext cell
  simp only [AoiUpdate.apply, Finset.mem_union, Finset.mem_sdiff]
  tauto

theorem recenterAll_centered (radius : Nat) (centers : List Cell) :
    (recenterAll { radius } centers).1.radius = radius ∧ (recenterAll { radius } centers).1.Centered ∧
      (recenterAll { radius } centers).2.foldl AoiUpdate.apply ∅ = (recenterAll { radius } centers).1.cells ∧
      (recenterAll { radius } centers).1.center = centers.getLast? := by
  induction centers using List.reverseRecOn with
  | nil => exact ⟨rfl, ⟨fun _ => rfl, fun _ same => by cases same⟩, rfl, rfl⟩
  | append_singleton before center ih =>
      obtain ⟨same, centered, replayed, -⟩ := ih
      rw [recenterAll_append]
      refine ⟨(radius_recenter center).trans same, centered_recenter centered center, ?_, ?_⟩
      · rw [List.foldl_append, replayed, update_recenter centered]
        exact apply_difference _ _
      · rw [List.getLast?_concat]
        exact Subscription.center_recenter _ _

end Walks

/-- After every history the index inverts the cells of the entities, a query lists the entities within
its distance, and a subscription holds the block around its center, which its updates add up to. -/
theorem visibility_agrees (grid : Grid F) (changes : List Change) (radius : Nat) (centers : List Cell)
    (order : SetOrder) :
    (∀ cell id, Listed (history grid changes).index cell id ↔
      (history grid changes).cellOf.get? id = some cell) ∧
    (∀ cell members, (history grid changes).index.get? cell = some members → members ≠ ∅) ∧
    (∀ center reach, (entitiesInRadius order (history grid changes) center reach).Nodup ∧
      ∀ id, id ∈ entitiesInRadius order (history grid changes) center reach ↔
        ∃ cell, (history grid changes).cellOfEntity id = some cell ∧
          cell.chebyshevDistance center ≤ reach) ∧
    (∀ center, (cellsInRadius center radius).Nodup ∧
      (cellsInRadius center radius).length = (2 * radius + 1) ^ 2) ∧
    (recenterAll { radius } centers).1.center = centers.getLast? ∧
    (recenterAll { radius } centers).2.foldl AoiUpdate.apply ∅ = (recenterAll { radius } centers).1.cells ∧
    (∀ center, (((recenterAll { radius } centers).1.recenter center).2 =
        { added := ((recenterAll { radius } centers).1.recenter center).1.cells \
            (recenterAll { radius } centers).1.cells
          removed := (recenterAll { radius } centers).1.cells \
            ((recenterAll { radius } centers).1.recenter center).1.cells }) ∧
      Disjoint ((recenterAll { radius } centers).1.recenter center).2.added
        ((recenterAll { radius } centers).1.recenter center).2.removed) ∧
    (∀ center, (recenterAll { radius } centers).1.center = some center →
      (recenterAll { radius } centers).1.cells = (cellsInRadius center radius).toFinset ∧
      (∀ cell, (recenterAll { radius } centers).1.contains cell = true ↔
        cell.chebyshevDistance center ≤ radius) ∧
      ∀ id, id ∈ entitiesInRadius order (history grid changes) center radius ↔
        ∃ cell, (history grid changes).cellOfEntity id = some cell ∧
          (recenterAll { radius } centers).1.contains cell = true) := by
  have coherent := coherent_history grid changes
  obtain ⟨same, centered, replayed, last⟩ := recenterAll_centered radius centers
  have held : ∀ center, (recenterAll { radius } centers).1.center = some center →
      ∀ cell, (recenterAll { radius } centers).1.contains cell = true ↔
        cell.chebyshevDistance center ≤ radius := by
    intro center found cell
    rw [Subscription.contains, decide_eq_true_iff, centered.block center found, same, List.mem_toFinset,
      mem_cellsInRadius]
  refine ⟨coherent.listed_iff, coherent.inhabited, fun center reach =>
    ⟨nodup_entitiesInRadius order coherent center reach, mem_entitiesInRadius order coherent center reach⟩,
    fun center => ⟨nodup_cellsInRadius center radius, ?_⟩, last, replayed, fun center => ?_,
    fun center found => ⟨?_, held center found, fun id => ?_⟩⟩
  · rw [← card_cellsInRadius center radius, List.toFinset_card_of_nodup (nodup_cellsInRadius center radius)]
  · refine ⟨update_recenter centered center, ?_⟩
    rw [update_recenter centered center]
    exact disjoint_sdiff_sdiff
  · rw [centered.block center found, same]
  · rw [mem_entitiesInRadius order coherent]
    simp only [held center found]

end SailwindOnline.World
