import Mathlib.Data.Finset.Lattice.Fold
import Mathlib.Data.Finset.SDiff
import Mathlib.Data.Prod.Lex
import SailwindOnline.FiniteMap

/-!
The spatial grid of `sw-world`: cells, the interest block around a cell, a
player's subscription to such a block, and the index of entities by cell.
Coordinates are unbounded integers; the float division that maps a position to
a cell is an operation of the platform.
-/

namespace SailwindOnline

structure WorldClock (F : Type) where
  day : UInt32
  timeOfDay : F
  moonPhase : F

/-- The floating-point operations the server performs on positions, sizes and clocks. -/
class Platform (F : Type) where
  zero : F
  one : F
  isFinite : F → Bool
  clamp : F → F → F
  maxWorldCoordM : F
  maxVelocityMps : F
  cellIndex : F → F → Int
  cellSizeInRange : F → Bool
  clockFromEpoch : Int64 → Int64 → WorldClock F

/-- The platform restricted to whole metres and whole days, where the floats are exact. -/
instance wholeMetres : Platform Int where
  zero := 0
  one := 1
  isFinite _ := true
  clamp value limit := max (-limit) (min value limit)
  maxWorldCoordM := 10000000
  maxVelocityMps := 10000
  cellIndex position size := position / size
  cellSizeInRange size := decide (1 ≤ size ∧ size ≤ 1000000)
  clockFromEpoch epochMs nowMs :=
    { day := UInt32.ofNat ((nowMs.toInt - epochMs.toInt).toNat / 1200000), timeOfDay := 0, moonPhase := 0 }

namespace World

abbrev EntityId := UInt64

structure Cell where
  cx : Int
  cz : Int
deriving DecidableEq, Repr

namespace Cell

/-- Cells are walked row by row, as the server sorts them. -/
def rowMajor (cell : Cell) : Int ×ₗ Int := toLex (cell.cz, cell.cx)

theorem rowMajor_injective : Function.Injective rowMajor := by
  rintro ⟨x, z⟩ ⟨x', z'⟩ same
  simp only [rowMajor, EmbeddingLike.apply_eq_iff_eq, Prod.mk.injEq] at same
  rw [same.1, same.2]

instance : LinearOrder Cell := LinearOrder.lift' rowMajor rowMajor_injective

def chebyshevDistance (cell other : Cell) : Int :=
  max ((cell.cx - other.cx).natAbs : Int) ((cell.cz - other.cz).natAbs : Int)

end Cell

structure Grid (F : Type) where
  cellSizeM : F

def Grid.cellOf {F : Type} [Platform F] (grid : Grid F) (x z : F) : Cell :=
  { cx := Platform.cellIndex x grid.cellSizeM, cz := Platform.cellIndex z grid.cellSizeM }

def offsets (radius : Nat) : List Int := (List.range (2 * radius + 1)).map fun step : Nat => (step : Int) - radius

def cellsInRadius (center : Cell) (radius : Nat) : List Cell :=
  (offsets radius).flatMap fun dz => (offsets radius).map fun dx =>
    { cx := center.cx + dx, cz := center.cz + dz }

theorem mem_offsets (radius : Nat) (offset : Int) : offset ∈ offsets radius ↔ offset.natAbs ≤ radius := by
  simp only [offsets, List.mem_map, List.mem_range]
  constructor
  · rintro ⟨step, below, rfl⟩
    omega
  · intro near
    exact ⟨(offset + radius).toNat, by omega, by omega⟩

theorem nodup_offsets (radius : Nat) : (offsets radius).Nodup := by
  unfold offsets
  refine List.nodup_range.map ?_
  intro step other same
  simp only at same
  omega

theorem mem_cellsInRadius (center cell : Cell) (radius : Nat) :
    cell ∈ cellsInRadius center radius ↔ cell.chebyshevDistance center ≤ radius := by
  simp only [cellsInRadius, List.mem_flatMap, List.mem_map, mem_offsets, Cell.chebyshevDistance, max_le_iff,
    Int.ofNat_le]
  constructor
  · rintro ⟨dz, tall, dx, wide, rfl⟩
    simp only [add_sub_cancel_left]
    exact ⟨wide, tall⟩
  · rintro ⟨wide, tall⟩
    exact ⟨cell.cz - center.cz, tall, cell.cx - center.cx, wide, by simp⟩

theorem nodup_cellsInRadius (center : Cell) (radius : Nat) : (cellsInRadius center radius).Nodup := by
  refine List.nodup_flatMap.mpr ⟨?_, ?_⟩
  · intro dz _
    refine (nodup_offsets radius).map ?_
    intro dx other same
    simp only [Cell.mk.injEq] at same
    omega
  · refine (nodup_offsets radius).imp ?_
    intro dz other apart cell left right
    simp only [List.mem_map] at left right
    obtain ⟨_, _, rfl⟩ := left
    obtain ⟨_, _, same⟩ := right
    simp only [Cell.mk.injEq] at same
    omega

theorem card_cellsInRadius (center : Cell) (radius : Nat) :
    (cellsInRadius center radius).toFinset.card = (2 * radius + 1) ^ 2 := by
  rw [List.toFinset_card_of_nodup (nodup_cellsInRadius center radius)]
  simp [cellsInRadius, offsets, List.length_flatMap, Function.comp_def, pow_two]

structure AoiUpdate where
  added : Finset Cell := ∅
  removed : Finset Cell := ∅

def AoiUpdate.isEmpty (update : AoiUpdate) : Bool := decide (update.added = ∅ ∧ update.removed = ∅)

structure Subscription where
  radius : Nat
  center : Option Cell := none
  cells : Finset Cell := ∅

namespace Subscription

def contains (subscription : Subscription) (cell : Cell) : Bool := decide (cell ∈ subscription.cells)

def recenter (subscription : Subscription) (center : Cell) : Subscription × AoiUpdate :=
  if subscription.center = some center then (subscription, {})
  else
    let newCells := (cellsInRadius center subscription.radius).toFinset
    ({ subscription with cells := newCells, center := some center },
      { added := newCells \ subscription.cells, removed := subscription.cells \ newCells })

@[simp] theorem center_recenter (subscription : Subscription) (center : Cell) :
    (subscription.recenter center).1.center = some center := by
  unfold recenter
  split <;> simp_all

end Subscription
end World

structure World (F : Type) where
  grid : World.Grid F
  cellOf : FiniteMap World.EntityId World.Cell := FiniteMap.empty
  index : FiniteMap World.Cell (Finset World.EntityId) := FiniteMap.empty

namespace World
variable {F : Type}

def cellOfEntity (world : World F) (id : EntityId) : Option Cell := world.cellOf.get? id

/-- An emptied cell leaves the index. -/
def dropFrom (index : FiniteMap Cell (Finset EntityId)) (cell : Cell) (id : EntityId) :
    FiniteMap Cell (Finset EntityId) :=
  match index.get? cell with
  | none => index
  | some members => if members.erase id = ∅ then index.erase cell else index.insert cell (members.erase id)

def addTo (index : FiniteMap Cell (Finset EntityId)) (cell : Cell) (id : EntityId) :
    FiniteMap Cell (Finset EntityId) :=
  index.insert cell (Insert.insert id ((index.get? cell).getD ∅))

def placeInCell (world : World F) (id : EntityId) (cell : Cell) : World F :=
  match world.cellOf.get? id with
  | some old =>
    if old = cell then world
    else
      { world with
        index := addTo (dropFrom world.index old id) cell id
        cellOf := world.cellOf.insert id cell }
  | none =>
    { world with index := addTo world.index cell id, cellOf := world.cellOf.insert id cell }

def place [Platform F] (world : World F) (id : EntityId) (x z : F) : World F :=
  world.placeInCell id (world.grid.cellOf x z)

def remove (world : World F) (id : EntityId) : World F :=
  match world.cellOf.get? id with
  | none => world
  | some cell => { world with cellOf := world.cellOf.erase id, index := dropFrom world.index cell id }

/-- The order a hash set is iterated in: arbitrary, but each member comes up once. -/
structure SetOrder where
  list : Finset EntityId → List EntityId
  nodup : ∀ members, (list members).Nodup
  complete : ∀ members id, id ∈ list members ↔ id ∈ members

def entitiesIn (order : SetOrder) (world : World F) (cell : Cell) : List EntityId :=
  match world.index.get? cell with
  | none => []
  | some members => order.list members

def entitiesInRadius (order : SetOrder) (world : World F) (center : Cell) (radius : Nat) :
    List EntityId :=
  (cellsInRadius center radius).flatMap (entitiesIn order world)

/-! The index against the cells of its entities. -/

def Listed (index : FiniteMap Cell (Finset EntityId)) (cell : Cell) (id : EntityId) : Prop :=
  ∃ members, index.get? cell = some members ∧ id ∈ members

/-- The two tables are inverse to each other and no cell is kept empty. -/
structure Coherent (world : World F) : Prop where
  listed_iff : ∀ cell id, Listed world.index cell id ↔ world.cellOf.get? id = some cell
  inhabited : ∀ cell members, world.index.get? cell = some members → members ≠ ∅

theorem coherent_empty (grid : Grid F) : Coherent ({ grid } : World F) where
  listed_iff := by simp [Listed]
  inhabited := by simp

theorem listed_dropFrom (index : FiniteMap Cell (Finset EntityId)) (cell other : Cell) (id entity : EntityId) :
    Listed (dropFrom index cell id) other entity ↔
      Listed index other entity ∧ ¬(other = cell ∧ entity = id) := by
  unfold dropFrom
  cases found : index.get? cell with
  | none =>
      constructor
      · intro listed
        refine ⟨listed, ?_⟩
        rintro ⟨rfl, -⟩
        obtain ⟨members, present, -⟩ := listed
        rw [found] at present
        cases present
      · exact And.left
  | some members =>
      simp only
      by_cases here : other = cell
      · subst here
        have before : Listed index other entity ↔ entity ∈ members := by simp [Listed, found]
        rw [before]
        split <;> rename_i emptied
        -- The cell held nobody but the dropped entity, so the whole entry goes.
        · have only : ∀ member, member ∈ members → member = id := by
            intro member inside
            by_contra different
            have kept : member ∈ members.erase id := Finset.mem_erase.mpr ⟨different, inside⟩
            rw [emptied] at kept
            exact absurd kept (Finset.notMem_empty member)
          simp only [Listed, FiniteMap.get?_erase_self]
          constructor
          · rintro ⟨_, impossible, _⟩
            cases impossible
          · rintro ⟨inside, apart⟩
            exact absurd ⟨trivial, only entity inside⟩ apart
        · simp only [Listed, FiniteMap.get?_insert_self, Option.some.injEq, exists_eq_left',
            Finset.mem_erase]
          constructor
          · rintro ⟨different, inside⟩
            exact ⟨inside, fun both => different both.2⟩
          · rintro ⟨inside, apart⟩
            exact ⟨fun same => apart ⟨trivial, same⟩, inside⟩
      · split <;> simp [Listed, FiniteMap.get?_erase, FiniteMap.get?_insert, here]

theorem listed_addTo (index : FiniteMap Cell (Finset EntityId)) (cell other : Cell) (id entity : EntityId) :
    Listed (addTo index cell id) other entity ↔
      Listed index other entity ∨ (other = cell ∧ entity = id) := by
  by_cases here : other = cell
  · subst here
    cases found : index.get? other <;>
      simp [Listed, addTo, found, or_comm]
  · simp [Listed, addTo, FiniteMap.get?_insert, here]

theorem inhabited_dropFrom {index : FiniteMap Cell (Finset EntityId)} (cell : Cell) (id : EntityId)
    (inhabited : ∀ cell members, index.get? cell = some members → members ≠ ∅) :
    ∀ other members, (dropFrom index cell id).get? other = some members → members ≠ ∅ := by
  intro other members present
  unfold dropFrom at present
  split at present
  · exact inhabited other members present
  · split at present <;> rename_i left
    · rw [FiniteMap.get?_erase] at present
      split at present
      · cases present
      · exact inhabited other members present
    · rw [FiniteMap.get?_insert] at present
      split at present
      · cases present
        exact left
      · exact inhabited other members present

theorem inhabited_addTo {index : FiniteMap Cell (Finset EntityId)} (cell : Cell) (id : EntityId)
    (inhabited : ∀ cell members, index.get? cell = some members → members ≠ ∅) :
    ∀ other members, (addTo index cell id).get? other = some members → members ≠ ∅ := by
  intro other members present
  rw [addTo, FiniteMap.get?_insert] at present
  split at present
  · cases present
    exact Finset.insert_ne_empty _ _
  · exact inhabited other members present

theorem cellOf_placeInCell (world : World F) (id other : EntityId) (cell : Cell) :
    (world.placeInCell id cell).cellOf.get? other =
      if other = id then some cell else world.cellOf.get? other := by
  unfold placeInCell
  split <;> rename_i found
  · split <;> rename_i same
    · by_cases own : other = id
      · simp [own, found, same]
      · simp [own]
    · simp [FiniteMap.get?_insert]
  · simp [FiniteMap.get?_insert]

theorem placeInCell_grid (world : World F) (id : EntityId) (cell : Cell) :
    (world.placeInCell id cell).grid = world.grid := by
  unfold placeInCell
  split
  · split <;> rfl
  · rfl

theorem cellOf_remove (world : World F) (id other : EntityId) :
    (world.remove id).cellOf.get? other = if other = id then none else world.cellOf.get? other := by
  unfold remove
  split <;> rename_i found
  · by_cases own : other = id
    · simp [own, found]
    · simp [own]
  · simp [FiniteMap.get?_erase]

theorem Coherent.placeInCell {world : World F} (coherent : Coherent world) (id : EntityId) (cell : Cell) :
    Coherent (world.placeInCell id cell) := by
  have placed := fun other => cellOf_placeInCell world id other cell
  unfold World.placeInCell at placed ⊢
  split <;> rename_i found
  · split <;> rename_i same
    · exact coherent
    · simp only [found, same, if_false] at placed
      refine ⟨?_, inhabited_addTo cell id (inhabited_dropFrom _ id coherent.inhabited)⟩
      intro other entity
      rw [placed, listed_addTo, listed_dropFrom, coherent.listed_iff]
      by_cases own : entity = id
      · subst own
        rw [found]
        simp only [Option.some.injEq, if_true, and_true]
        constructor
        · rintro (⟨here, apart⟩ | here)
          · exact absurd here.symm apart
          · exact here.symm
        · intro here
          exact Or.inr here.symm
      · simp [own]
  · simp only [found] at placed
    refine ⟨?_, inhabited_addTo cell id coherent.inhabited⟩
    intro other entity
    rw [placed, listed_addTo, coherent.listed_iff]
    by_cases own : entity = id
    · subst own
      simp [found, eq_comm]
    · simp [own]

theorem Coherent.remove {world : World F} (coherent : Coherent world) (id : EntityId) :
    Coherent (world.remove id) := by
  have removed := cellOf_remove world id
  unfold World.remove at removed ⊢
  split <;> rename_i found
  · exact coherent
  · simp only [found] at removed
    refine ⟨?_, inhabited_dropFrom _ id coherent.inhabited⟩
    intro other entity
    rw [removed, listed_dropFrom, coherent.listed_iff]
    by_cases own : entity = id
    · subst own
      rw [found]
      simp [eq_comm]
    · simp [own]

end World
end SailwindOnline
