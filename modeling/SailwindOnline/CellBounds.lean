import SailwindOnline.Interest

/-!
The cells a server can hold. A position enters the grid only after it was
clamped to the world, and no cell is smaller than a metre, so every centre of
interest is near the middle of the map and every other cell is within one
interest block of such a centre. All the cell arithmetic of the server then
stays far inside the 32-bit range.
-/

namespace SailwindOnline.CellBounds
open World (Cell Subscription)
open MachineInt Server SessionIndex SessionRuns Effects TickEffects Interest Traces Persistence

/-! Cells within a limit. -/
section Cells

def Within (limit : Nat) (cell : Cell) : Prop := cell.cx.natAbs ≤ limit ∧ cell.cz.natAbs ≤ limit

/-- One cell past the clamped world. -/
def nearLimit : Nat := 10000001

/-- One interest block past a near cell. -/
def wideLimit : Nat := nearLimit + maxAoiRadiusCells

theorem Within.mono {low high : Nat} {cell : Cell} (within : Within low cell) (below : low ≤ high) :
    Within high cell :=
  ⟨within.1.trans below, within.2.trans below⟩

theorem Within.wide {cell : Cell} (near : Within nearLimit cell) : Within wideLimit cell :=
  near.mono (Nat.le_add_right _ _)

theorem within_block {limit radius : Nat} {center cell : Cell} (within : Within limit center)
    (member : cell ∈ World.cellsInRadius center radius) : Within (limit + radius) cell := by
  have close := (World.mem_cellsInRadius center cell radius).mp member
  simp only [Cell.chebyshevDistance, max_le_iff, Int.ofNat_le] at close
  obtain ⟨wide, tall⟩ := within
  constructor <;> omega

/-- `chebyshev_distance`, with each subtraction and each `abs` checked. -/
def checkedChebyshev (cell other : Cell) : Option Int := do
  let dx ← checkedI32 (cell.cx - other.cx)
  let wide ← checkedI32 dx.natAbs
  let dz ← checkedI32 (cell.cz - other.cz)
  let tall ← checkedI32 dz.natAbs
  return max wide tall

/-- The cell at an offset from the centre, with both additions checked. -/
def checkedOffset (center : Cell) (dz dx : Int) : Option Cell := do
  let cx ← checkedI32 (center.cx + dx)
  let cz ← checkedI32 (center.cz + dz)
  return { cx, cz }

/-- `cells_in_radius`, with the size of the block, the first offset and each cell checked. -/
def checkedCellsInRadius (center : Cell) (radius : Nat) : Option (List Cell) := do
  let doubled ← checkedI32 (2 * radius)
  let side ← checkedI32 (doubled + 1)
  let _capacity ← checkedU64 (side.toNat * side.toNat)
  let _first ← checkedI32 (-radius)
  let rows ← (World.offsets radius).mapM fun dz => (World.offsets radius).mapM (checkedOffset center dz)
  return rows.flatten

theorem bind_value {Item Value : Type} {first : Option Item} {item : Item} {next : Item → Option Value}
    (found : first = some item) : (first >>= next) = next item := by
  rw [found]
  rfl

theorem mapM_some {Item Value : Type} {items : List Item} {attempt : Item → Option Value} {value : Item → Value}
    (each : ∀ item ∈ items, attempt item = some (value item)) : items.mapM attempt = some (items.map value) := by
  induction items with
  | nil => rfl
  | cons item rest ih =>
      have first := each item (List.mem_cons_self ..)
      have later := ih fun other member => each other (List.mem_cons_of_mem _ member)
      rw [List.mapM_cons, first, later]
      rfl

theorem checkedChebyshev_exact {cell other : Cell} (here : Within wideLimit cell) (there : Within wideLimit other) :
    checkedChebyshev cell other = some (cell.chebyshevDistance other) := by
  unfold Within wideLimit nearLimit maxAoiRadiusCells at here there
  have dx := checkedI32_some (cell.cx - other.cx) (by omega)
  have wide := checkedI32_some ((cell.cx - other.cx).natAbs : Int) (by omega)
  have dz := checkedI32_some (cell.cz - other.cz) (by omega)
  have tall := checkedI32_some ((cell.cz - other.cz).natAbs : Int) (by omega)
  apply (bind_value dx).trans
  apply (bind_value wide).trans
  apply (bind_value dz).trans
  exact bind_value tall

theorem checkedOffset_exact {center : Cell} {dz dx : Int} (near : Within nearLimit center)
    (down : dz.natAbs ≤ maxAoiRadiusCells) (across : dx.natAbs ≤ maxAoiRadiusCells) :
    checkedOffset center dz dx = some { cx := center.cx + dx, cz := center.cz + dz } := by
  unfold Within nearLimit at near
  unfold maxAoiRadiusCells at down across
  have cx := checkedI32_some (center.cx + dx) (by omega)
  have cz := checkedI32_some (center.cz + dz) (by omega)
  apply (bind_value cx).trans
  exact bind_value cz

theorem checkedRows_exact {center : Cell} {radius : Nat} (near : Within nearLimit center)
    (reach : radius ≤ maxAoiRadiusCells) :
    (World.offsets radius).mapM (fun dz => (World.offsets radius).mapM (checkedOffset center dz)) =
      some ((World.offsets radius).map fun dz => (World.offsets radius).map fun dx =>
        { cx := center.cx + dx, cz := center.cz + dz }) := by
  have close : ∀ offset ∈ World.offsets radius, offset.natAbs ≤ maxAoiRadiusCells := fun offset member =>
    ((World.mem_offsets radius offset).mp member).trans reach
  apply mapM_some
  intro dz down
  apply mapM_some
  intro dx across
  exact checkedOffset_exact near (close dz down) (close dx across)

theorem checkedCellsInRadius_exact {center : Cell} {radius : Nat} (near : Within nearLimit center)
    (reach : radius ≤ maxAoiRadiusCells) :
    checkedCellsInRadius center radius = some (World.cellsInRadius center radius) := by
  have rows := checkedRows_exact near reach
  unfold maxAoiRadiusCells at reach
  have doubled := checkedI32_some (2 * (radius : Int)) (by omega)
  have side := checkedI32_some (2 * (radius : Int) + 1) (by omega)
  have first := checkedI32_some (-(radius : Int)) (by omega)
  have small : (2 * (radius : Int) + 1).toNat ≤ 33 := by omega
  have area := Nat.mul_le_mul small small
  have capacity : checkedU64 ((2 * (radius : Int) + 1).toNat * (2 * (radius : Int) + 1).toNat) =
      some ((2 * (radius : Int) + 1).toNat * (2 * (radius : Int) + 1).toNat) := by
    unfold checkedU64
    rw [if_pos (by omega)]
  rw [World.cellsInRadius, List.flatMap_def]
  apply (bind_value doubled).trans
  apply (bind_value side).trans
  apply (bind_value capacity).trans
  apply (bind_value first).trans
  exact bind_value rows

end Cells

/-! The floats that make cells. -/
section Floats
variable {F : Type} [Platform F]

/-- Assumed of the floats: zero is a position as it stands, and a finite position clamped to the world,
divided by a valid cell size and floored, is near. -/
structure FloatFacts (F : Type) [Platform F] : Prop where
  zero_finite : Platform.isFinite (Platform.zero : F) = true
  zero_clamped : Platform.clamp (Platform.zero : F) Platform.maxWorldCoordM = Platform.zero
  cell_near : ∀ value size : F, Platform.isFinite value = true → Platform.isFinite size = true →
    Platform.cellSizeInRange size = true →
    (Platform.cellIndex (Platform.clamp value Platform.maxWorldCoordM) size).natAbs ≤ nearLimit

/-- A grid whose cell size passed validation. -/
structure ValidGrid (grid : World.Grid F) : Prop where
  finite : Platform.isFinite grid.cellSizeM = true
  sized : Platform.cellSizeInRange grid.cellSizeM = true

theorem valid_grid (cfg : ValidConfig F) : ValidGrid (⟨cfg.cellSizeM⟩ : World.Grid F) := by
  have passed := (requireAll_ok_iff cfg.checks).mp cfg.valid
  simp only [Config.checks, List.forall_mem_cons, Bool.and_eq_true] at passed
  obtain ⟨-, -, -, -, -, -, sized, -⟩ := passed
  exact ⟨sized.1, sized.2⟩

theorem finiteClamped_some {value limit clamped : F} (kept : finiteClamped value limit = some clamped) :
    Platform.isFinite value = true ∧ clamped = Platform.clamp value limit := by
  unfold finiteClamped at kept
  split at kept <;> rename_i finite
  · cases kept
    exact ⟨finite, rfl⟩
  · cases kept

/-- Both coordinates of a sanitized position are clamped finite values. -/
theorem sanitized_position {pos : Vec3 F} {rot : Quat F} {vel : Vec3 F} {motion : Motion F}
    (sanitized : sanitizeMotion pos rot vel = some motion) :
    (∃ x : F, Platform.isFinite x = true ∧ motion.pos.1 = Platform.clamp x Platform.maxWorldCoordM) ∧
      ∃ z : F, Platform.isFinite z = true ∧ motion.pos.2.2 = Platform.clamp z Platform.maxWorldCoordM := by
  simp only [sanitizeMotion, Option.bind_eq_bind, Option.bind_eq_some_iff, Option.pure_def,
    Option.some.injEq] at sanitized
  obtain ⟨position, clamped, -, -, -, -, rfl⟩ := sanitized
  simp only [clampedVec3, Option.bind_eq_bind, Option.bind_eq_some_iff, Option.pure_def,
    Option.some.injEq] at clamped
  obtain ⟨x, first, y, -, z, last, rfl⟩ := clamped
  exact ⟨⟨_, finiteClamped_some first⟩, ⟨_, finiteClamped_some last⟩⟩

theorem sanitized_near (floats : FloatFacts F) {grid : World.Grid F} (valid : ValidGrid grid) {pos : Vec3 F}
    {rot : Quat F} {vel : Vec3 F} {motion : Motion F} (sanitized : sanitizeMotion pos rot vel = some motion) :
    Within nearLimit (grid.cellOf motion.pos.1 motion.pos.2.2) := by
  obtain ⟨⟨x, across, placed⟩, ⟨z, down, lying⟩⟩ := sanitized_position sanitized
  rw [placed, lying]
  constructor
  · exact floats.cell_near x _ across valid.finite valid.sized
  · exact floats.cell_near z _ down valid.finite valid.sized

theorem origin_near (floats : FloatFacts F) {grid : World.Grid F} (valid : ValidGrid grid) :
    Within nearLimit (grid.cellOf Platform.zero Platform.zero) := by
  have near := floats.cell_near Platform.zero _ floats.zero_finite valid.finite valid.sized
  rw [floats.zero_clamped] at near
  exact ⟨near, near⟩

end Floats

/-! The cells of one session. -/
section Sessions
variable {F : Type}

structure Charted (session : Session F) : Prop where
  here : ∀ cell, session.cell = some cell → Within nearLimit cell
  center : ∀ cell, session.sub.center = some cell → Within nearLimit cell
  reach : session.sub.radius ≤ maxAoiRadiusCells
  subscribed : ∀ cell ∈ session.sub.cells, Within wideLimit cell
  published : ∀ cell ∈ session.publishedCells, Within wideLimit cell
  waiting : ∀ cell ∈ session.hydrationCells, Within wideLimit cell
  cursor : ∀ cell, session.hydrationCursor = some cell → Within wideLimit cell
  active : ∀ hydration, session.activeHydration = some hydration → Within wideLimit hydration.cell

/-- A subscription recentred on a near cell covers wide cells only. -/
theorem recentered_wide {sub : Subscription} {center cell : Cell} (near : Within nearLimit center)
    (reach : sub.radius ≤ maxAoiRadiusCells) (subscribed : ∀ cell ∈ sub.cells, Within wideLimit cell)
    (member : cell ∈ (sub.recenter center).1.cells) : Within wideLimit cell := by
  unfold Subscription.recenter at member
  split at member
  · exact subscribed cell member
  · exact (within_block near (List.mem_toFinset.mp member)).mono (Nat.add_le_add_left reach _)

theorem recentered_center {sub : Subscription} {center other : Cell}
    (centered : (sub.recenter center).1.center = some other) : center = other := by
  rw [Subscription.center_recenter, Option.some.injEq] at centered
  exact centered

theorem recentered_radius (sub : Subscription) (center : Cell) :
    (sub.recenter center).1.radius = sub.radius := by
  unfold Subscription.recenter
  split <;> rfl

theorem Charted.moved {session : Session F} {cell : Cell} (charted : Charted session)
    (near : Within nearLimit cell) (motion : Motion F) (state : ClientState F) :
    Charted (movedSession session motion state (session.sub.recenter cell).1 cell) where
  here := by rintro other ⟨⟩; exact near
  center := fun other centered => recentered_center centered ▸ near
  reach := (recentered_radius session.sub cell).trans_le charted.reach
  subscribed := fun other => recentered_wide near charted.reach charted.subscribed
  published := charted.published
  waiting := charted.waiting
  cursor := charted.cursor
  active := charted.active

theorem charted_newSession [Platform F] {origin : Cell} {radius : Nat} (near : Within nearLimit origin)
    (reach : radius ≤ maxAoiRadiusCells) (player : UInt64) (identityHash name : String) :
    Charted (newSession (F := F) player identityHash name
      (({ radius } : Subscription).recenter origin).1 origin) where
  here := by rintro other ⟨⟩; exact near
  center := fun other centered => recentered_center centered ▸ near
  reach := reach
  subscribed := fun other => recentered_wide near reach (by simp)
  published := by simp [newSession]
  waiting := by simp [newSession]
  cursor := by simp [newSession]
  active := by simp [newSession]

/-- What interest delivery and hydration do to a session, one change at a time, keeps `good`. -/
structure KeptByInterest (good : Session F → Prop) : Prop where
  published : ∀ session, good session → good (applyAoiChunk session (aoiChunk session))
  prepared : ∀ session players, good session → good (prepareHydration session players).1
  advanced : ∀ session (change : CellHydration → CellHydration),
    (∀ hydration, (change hydration).cell = hydration.cell) → good session →
    good { session with activeHydration := session.activeHydration.map change }
  finished : ∀ session, good session → good { session with activeHydration := none }

theorem Charted.publishes {session : Session F} (charted : Charted session) :
    Charted (applyAoiChunk session (aoiChunk session)) := by
  have added : ∀ cell ∈ (aoiChunk session).added.toFinset, Within wideLimit cell := by
    intro cell member
    have fresh := (OrderedSet.mem_ascending _ cell).mp (List.mem_of_mem_take (List.mem_toFinset.mp member))
    exact charted.subscribed cell (Finset.mem_sdiff.mp fresh).1
  refine { charted with published := ?_, waiting := ?_, active := ?_ }
  · intro cell member
    rcases Finset.mem_union.mp member with old | new
    · exact charted.published cell (Finset.mem_sdiff.mp old).1
    · exact added cell new
  · intro cell member
    rcases Finset.mem_union.mp member with old | new
    · exact charted.waiting cell (Finset.mem_sdiff.mp old).1
    · exact added cell new
  · intro hydration held
    exact charted.active hydration (Option.filter_eq_some_iff.mp held).1

theorem Charted.prepares {session : Session F} (charted : Charted session) (players : Nat) :
    Charted (prepareHydration session players).1 := by
  unfold prepareHydration
  split <;> rename_i standing
  · refine { charted with active := ?_ }
    rintro hydration ⟨⟩
    exact charted.active _ (Option.filter_eq_some_iff.mp standing).1
  · split <;> rename_i next
    · exact { charted with active := by simp }
    · have wide := charted.waiting _ (nextHydrationCell_mem next)
      refine { charted with waiting := ?_, cursor := ?_, active := ?_ }
      · intro cell member
        exact charted.waiting cell (Finset.mem_of_mem_erase member)
      · rintro cell ⟨⟩
        exact wide
      · rintro hydration ⟨⟩
        exact wide

theorem charted_interest : KeptByInterest (Charted (F := F)) where
  published := fun _ charted => charted.publishes
  prepared := fun _ players charted => charted.prepares players
  advanced := by
    intro session change kept charted
    refine { charted with active := ?_ }
    intro hydration held
    obtain ⟨before, standing, rfl⟩ := Option.map_eq_some_iff.mp held
    rw [kept]
    exact charted.active before standing
  finished := fun _ charted => { charted with active := by simp }

/-- The cells a session holds. -/
inductive SessionCell (session : Session F) : Cell → Prop
  | here {cell : Cell} (here : session.cell = some cell) : SessionCell session cell
  | center {cell : Cell} (center : session.sub.center = some cell) : SessionCell session cell
  | subscribed {cell : Cell} (member : cell ∈ session.sub.cells) : SessionCell session cell
  | published {cell : Cell} (member : cell ∈ session.publishedCells) : SessionCell session cell
  | waiting {cell : Cell} (member : cell ∈ session.hydrationCells) : SessionCell session cell
  | cursor {cell : Cell} (cursor : session.hydrationCursor = some cell) : SessionCell session cell
  | active {hydration : CellHydration} (active : session.activeHydration = some hydration) :
      SessionCell session hydration.cell

theorem Charted.wide {session : Session F} {cell : Cell} (charted : Charted session)
    (held : SessionCell session cell) : Within wideLimit cell := by
  cases held with
  | here here => exact (charted.here cell here).wide
  | center center => exact (charted.center cell center).wide
  | subscribed member => exact charted.subscribed cell member
  | published member => exact charted.published cell member
  | waiting member => exact charted.waiting cell member
  | cursor cursor => exact charted.cursor cell cursor
  | active active => exact charted.active _ active

/-- The part of a session its cells are read from. -/
def cellsOf (session : Session F) :=
  (session.cell, session.sub, session.publishedCells, session.hydrationCells, session.hydrationCursor,
    session.activeHydration)

theorem Charted.congr {session later : Session F} (charted : Charted session)
    (same : cellsOf later = cellsOf session) : Charted later := by
  simp only [cellsOf, Prod.mk.injEq] at same
  obtain ⟨here, sub, published, waiting, cursor, active⟩ := same
  exact ⟨here ▸ charted.here, sub ▸ charted.center, sub ▸ charted.reach, sub ▸ charted.subscribed,
    published ▸ charted.published, waiting ▸ charted.waiting, cursor ▸ charted.cursor, active ▸ charted.active⟩

end Sessions

/-! A property of every session, through the fixed-tick work. -/
section Walks
variable {F : Type} [Platform F] {good : Session F → Prop} {server after : Server F}

def Everyone (good : Session F → Prop) (server : Server F) : Prop :=
  ∀ peer session, server.sessions.get? peer = some session → good session

namespace Everyone

theorem of_sessions (every : Everyone good server) (sessions : after.sessions = server.sessions) :
    Everyone good after := by
  intro peer session found
  rw [sessions] at found
  exact every peer session found

theorem modifySession (every : Everyone good server) {peer : PeerId} {change : Session F → Session F}
    (kept : ∀ session, server.sessions.get? peer = some session → good session → good (change session)) :
    Everyone good (server.modifySession peer change) := by
  intro other session found
  simp only [Server.modifySession, FiniteMap.get?_modify] at found
  split at found
  · obtain ⟨old, present, rfl⟩ := Option.map_eq_some_iff.mp found
    exact kept old present (every peer old present)
  · exact every other session found

theorem touches {rest : Server F → Server F} {view : Session F → Session F} {topics : List Topic}
    (every : Everyone good server) (work : Touches rest view topics server after)
    (seen : ∀ session later, view later = view session → good session → good later) : Everyone good after := by
  intro peer later found
  have same := work.sessions peer
  rw [found, Option.map_some, eq_comm, Option.map_eq_some_iff] at same
  obtain ⟨session, present, viewed⟩ := same
  exact seen session later viewed.symm (every peer session present)

variable [Codec F]

theorem postBounded (every : Everyone good server) (peer : PeerId) (payload : ServerMessage F) :
    Everyone good (server.postBounded peer payload).1 := by
  apply every.of_sessions
  unfold Server.postBounded
  split <;> rfl

theorem sendCellSnapshot (kept : KeptByInterest good) (every : Everyone good server) (peer : PeerId) (cell : Cell)
    (sessions : List (Session F)) (moorings : List (MooringSnap F)) :
    Everyone good (server.sendCellSnapshot peer cell sessions moorings) := by
  have posted := every.postBounded peer (.cellSnapshot cell (playerSnaps sessions) (boatSnaps sessions) moorings)
  unfold Server.sendCellSnapshot
  split <;> rename_i sending <;> rw [sending] at posted
  · exact posted
  · exact posted.modifySession fun session _ => kept.advanced session _ fun _ => rfl

omit [Codec F] in
theorem modifyHydration (kept : KeptByInterest good) (every : Everyone good server) (peer : PeerId)
    (change : CellHydration → CellHydration) (still : ∀ hydration, (change hydration).cell = hydration.cell) :
    Everyone good (server.modifyHydration peer change) :=
  every.modifySession fun session _ => kept.advanced session change still

omit [Codec F] in
theorem nextAoiChunk (kept : KeptByInterest good) (every : Everyone good server) (peer : PeerId) :
    Everyone good (server.nextAoiChunk peer).1 := by
  cases found : server.sessions.get? peer with
  | none =>
      unfold Server.nextAoiChunk
      rw [found]
      exact every
  | some session =>
      rcases nextAoiChunk_cases found with settled | chunking
      · rw [settled]
        exact every
      · rw [chunking]
        exact every.modifySession fun session _ => kept.published session

omit [Codec F] in
theorem prepareCellHydration (kept : KeptByInterest good) (every : Everyone good server) (peer : PeerId) :
    Everyone good (server.prepareCellHydration peer).1 := by
  unfold Server.prepareCellHydration
  split <;> rename_i found
  · exact every
  · refine every.modifySession fun session present held => ?_
    rw [found, Option.some.injEq] at present
    subst present
    exact kept.prepared _ _ held

theorem processOneAoiWork (kept : KeptByInterest good) (every : Everyone good server) (peer : PeerId)
    (fails : Bool) : Everyone good (server.processOneAoiWork peer fails).1 := by
  have chunked := every.nextAoiChunk kept peer
  unfold Server.processOneAoiWork
  split <;> rename_i chunking <;> rw [chunking] at chunked
  · exact chunked.postBounded peer _
  have prepared := chunked.prepareCellHydration kept peer
  split <;> rename_i preparing <;> rw [preparing] at prepared
  · exact prepared
  split
  · unfold hydratePlayers
    simp only
    have recorded := fun scan : PlayerScan F =>
      prepared.modifyHydration kept peer (fun hydration => recordScan hydration scan) fun _ => rfl
    split
    · exact recorded _
    · exact (recorded _).sendCellSnapshot kept _ _ _ _
  split
  · exact prepared
  · unfold completeHydration
    refine Everyone.modifySession ?_ fun session _ => kept.finished session
    split
    · exact prepared
    · exact prepared.postBounded _ _
  · unfold hydrateMooring
    simp only
    have paged := fun boat : Option Int64 =>
      prepared.modifyHydration kept peer (fun hydration => { hydration with mooringCursor := boat }) fun _ => rfl
    split
    · exact (paged _).sendCellSnapshot kept _ _ _ _
    · exact paged _

theorem serveAoiRecipient (kept : KeptByInterest good) (fails : PeerId → Bool) (every : Everyone good server)
    (peer : PeerId) : Everyone good (serveAoiRecipient fails server peer) := by
  have taken : Everyone good { server with aoiRecipients := server.aoiRecipients.erase peer } :=
    every.of_sessions rfl
  have worked := taken.processOneAoiWork kept peer (fails peer)
  unfold Server.serveAoiRecipient
  simp only
  split
  · exact taken
  split
  · apply worked.of_sessions
    unfold scheduleAoi
    split <;> rfl
  · exact worked

theorem processAoiWork (kept : KeptByInterest good) (every : Everyone good server) (fails : PeerId → Bool) :
    Everyone good (server.processAoiWork fails) := by
  have fold : ∀ (recipients : List PeerId) (server : Server F), Everyone good server →
      Everyone good (recipients.foldl (Server.serveAoiRecipient fails) server) := by
    intro recipients
    induction recipients with
    | nil => exact fun server every => every
    | cons peer rest ih => exact fun server every => ih _ (every.serveAoiRecipient kept fails peer)
  exact fold _ _ (every.of_sessions rfl)

end Everyone

theorem charted_tick [Codec F] (tick : Tick) (every : Everyone Charted server) :
    Everyone Charted (tick.run server) := by
  cases tick with
  | aoi fails => exact every.processAoiWork charted_interest fails
  | snapshots =>
      apply every.touches (broadcastSnapshots_effect server)
      intro session later same charted
      exact charted.congr (congrArg cellsOf same :)
  | fanout =>
      have frame := (processFanoutWork_run server).frame
      exact every.of_sessions (congrArg Server.sessions frame :)
  | dirtyFlush fails now =>
      apply every.touches (processDirtyFlushAt_effect server fails now).toTouches
      intro session later same charted
      exact charted.congr (congrArg cellsOf same :)
  | beginFlush => exact every.of_sessions rfl
  | clock clockMs =>
      have frame := broadcastClock_frame server clockMs
      exact every.of_sessions (congrArg Server.sessions frame :)

end Walks

/-! The cell of a session moves to a sanitized position or not at all. -/
section Positions
variable {F : Type} [Platform F] {server : Server F} {pending : List Event} {peer : PeerId}
  {session later : Session F}

/-- A cell that a position of a client can be placed in. -/
def Sanitized (grid : World.Grid F) (cell : Cell) : Prop :=
  ∃ pos rot vel motion, sanitizeMotion pos rot vel = some motion ∧ cell = grid.cellOf motion.pos.1 motion.pos.2.2

theorem onClientState_cell (moment : Moment) (state : ClientState F)
    (found : server.sessions.get? peer = some session)
    (kept : (server.onClientState moment peer state).sessions.get? peer = some later) :
    later.cell = session.cell ∨ ∃ cell, Sanitized server.world.grid cell ∧ later.cell = some cell := by
  unfold onClientState at kept
  simp only [found] at kept
  split at kept
  · rw [found] at kept
    cases kept
    exact Or.inl rfl
  split at kept <;> rename_i sanitized
  · rw [found] at kept
    cases kept
    exact Or.inl rfl
  · right
    refine ⟨_, ⟨_, _, _, _, sanitized, rfl⟩, ?_⟩
    unfold emitAoi scheduleAoi at kept
    have inserted : ∀ moved : Session F, (server.sessions.insert peer moved).get? peer = some later →
        moved = later := by
      intro moved stored
      rwa [FiniteMap.get?_insert_self, Option.some.injEq] at stored
    split at kept
    · rw [← inserted _ kept]
      simp [movedSession, World.cellOfEntity, World.place, World.cellOf_placeInCell]
    · split at kept
      all_goals
        rw [← inserted _ kept]
        simp [movedSession, World.cellOfEntity, World.place, World.cellOf_placeInCell]

theorem onHelloAt_cell (inv : Inv pending server) (moment : Moment) (hello : ClientHello)
    (found : server.sessions.get? peer = some session)
    (kept : (server.onHelloAt moment peer hello).1.sessions.get? peer = some later) : later = session := by
  have effect : HelloEffect server moment peer hello (server.onHelloAt moment peer hello) :=
    onHelloAt_effect inv moment hello
  generalize server.onHelloAt moment peer hello = handled at effect kept
  have still : ∀ after : Server F, after.sessions = server.sessions → after.sessions.get? peer = some later →
      later = session := by
    intro after same present
    rw [same, found, Option.some.injEq] at present
    exact present.symm
  have taken : ∀ {identityHash name : String} {ip : IpAddr},
      Presented server peer hello identityHash name ip → later = session := by
    intro identityHash name ip presented
    rw [presented.vacant] at found
    cases found
  cases effect with
  | silent charges storage => exact still _ (congrArg Server.sessions charges.frame :) kept
  | answered charges other => exact still _ (congrArg Server.sessions charges.frame :) kept
  | full gated unknown crowded => exact taken gated.presented
  | faulted gated admitted fault => exact taken gated.presented
  | repeated holding greets => exact still _ rfl kept
  | joined gated admitted consistent superseded numbering greets => exact taken gated.presented

variable [Codec F]

/-- Whatever a datagram says, its sender stays where it was or goes where a sanitized position lies. -/
theorem handleDataAt_cell (inv : Inv pending server) (moment : Moment) (bytes : WireProtocol.Bytes)
    (found : server.sessions.get? peer = some session)
    (kept : (server.handleDataAt moment peer bytes).1.sessions.get? peer = some later) :
    later.cell = session.cell ∨ ∃ cell, Sanitized server.world.grid cell ∧ later.cell = some cell := by
  have served : ∀ after : Server F, Served server session after → after.sessions.get? peer = some later →
      later.cell = session.cell := by
    intro after served present
    rw [show after.sessions = server.sessions from (congrArg Server.sessions served.frame :), found,
      Option.some.injEq] at present
    rw [present]
  have placed : ∀ after : Server F, KeepsIndex server after → after.sessions.get? peer = some later →
      later.cell = session.cell := by
    intro after keeps present
    obtain ⟨old, before, same⟩ := keeps.session_of present
    rw [found, Option.some.injEq] at before
    rw [before]
    exact (congrArg (fun place => place.2.1) same).symm
  unfold handleDataAt at kept
  split at kept
  · rw [found, Option.some.injEq] at kept
    exact Or.inl (congrArg Session.cell kept.symm)
  · exact Or.inl (congrArg Session.cell (onHelloAt_cell inv moment _ found kept))
  · exact onClientState_cell moment _ found kept
  · exact Or.inl (served _ (onEcon_served moment _ found) kept)
  · exact Or.inl (served _ (onTrade_served moment _ found) kept)
  · exact Or.inl (served _ (onMoor_served moment _ found) kept)
  · exact Or.inl (placed _ (keeps_onChat server moment _) kept)

end Positions

/-! Whole runs. -/
section Runs
variable {F : Type} [Platform F] {server after : Server F} {pending : List Event}

/-- A job was spoken in a near cell, or nowhere. -/
def SpokenNear (job : FanoutJob F) : Prop := ∀ cell, job.senderCell = some cell → Within nearLimit cell

structure OnMap (server : Server F) : Prop where
  grid : server.world.grid = ⟨server.cfg.cellSizeM⟩
  sessions : Everyone Charted server
  jobs : EveryJob SpokenNear server

theorem OnMap.valid (map : OnMap server) : ValidGrid server.world.grid := by
  rw [map.grid]
  exact valid_grid server.cfg

omit [Platform F] in
theorem remove_grid (world : World F) (id : World.EntityId) : (world.remove id).grid = world.grid := by
  unfold World.remove
  split <;> rfl

theorem outcome_grid {moment : Moment} {event : Event} (outcome : Outcome server moment event after) :
    after.world.grid = server.world.grid := by
  cases outcome with
  | calm frame posts kept => exact congrArg World.grid (congrArg Server.world frame :)
  | moved found motion state cell placed => exact World.placeInCell_grid _ _ _
  | spoke found here about captured => rfl
  | @joined peer bytes base middle numbered player identityHash name generation reply vacant frame posts
      superseded numbering =>
      have kept := entered_frame peer (withGeneration generation (firstSession server player identityHash name))
        reply superseded numbering
      have based : base.world.grid = server.world.grid := congrArg World.grid (congrArg Server.world frame :)
      exact (congrArg World.grid (congrArg Server.world kept :) :).trans based
  | left found => exact remove_grid _ _

theorem charted_first (floats : FloatFacts F) (map : OnMap server) (player generation : UInt64)
    (identityHash name : String) :
    Charted (withGeneration generation (firstSession server player identityHash name)) := by
  have charted : Charted (firstSession server player identityHash name) :=
    charted_newSession (origin_near floats map.valid) (min_le_right _ _) player identityHash name
  exact charted.congr rfl

variable [Codec F]

/-- A datagram that moves its sender moves it to a near cell. -/
theorem moved_near (floats : FloatFacts F) (inv : Inv pending server) (map : OnMap server) (moment : Moment)
    {peer : PeerId} (bytes : WireProtocol.Bytes) {session later : Session F} {cell : Cell}
    (found : server.sessions.get? peer = some session)
    (kept : (server.handleDataAt moment peer bytes).1.sessions.get? peer = some later)
    (here : later.cell = some cell) : Within nearLimit cell := by
  rcases handleDataAt_cell inv moment bytes found kept with still | ⟨moved, sanitized, placed⟩
  · exact (map.sessions peer session found).here cell (still ▸ here)
  · rw [placed, Option.some.injEq] at here
    subst here
    obtain ⟨pos, rot, vel, motion, clamped, rfl⟩ := sanitized
    exact sanitized_near floats map.valid clamped

theorem charted_handle (floats : FloatFacts F) (inv : Inv pending server) (map : OnMap server) (moment : Moment)
    (event : Event) : Everyone Charted (server.handleEvent moment event).1 := by
  have outcome := handleEvent_outcome inv moment event
  generalize handled : (server.handleEvent moment event).1 = after at outcome ⊢
  cases outcome with
  | calm frame posts kept => exact map.sessions.of_sessions (congrArg Server.sessions frame :)
  | @moved peer bytes session found motion state cell placed =>
      have kept : (server.handleDataAt moment peer bytes).1.sessions.get? peer =
          some (movedSession session motion state (session.sub.recenter cell).1 cell) := by
        rw [show (server.handleDataAt moment peer bytes).1 = _ from handled]
        exact FiniteMap.get?_insert_self _ _ _
      have near := moved_near floats inv map moment bytes found kept rfl
      intro other later present
      simp only [FiniteMap.get?_insert] at present
      split at present
      · cases present
        exact (map.sessions peer session found).moved near motion state
      · exact map.sessions other later present
  | spoke found here about captured => exact map.sessions.of_sessions rfl
  | @joined peer bytes base middle numbered player identityHash name generation reply vacant frame posts
      superseded numbering =>
      have sessions : base.sessions = server.sessions := (congrArg Server.sessions frame :)
      intro other later present
      -- The newcomer starts in the origin cell; renumbering touches nothing but the generations of the others.
      rcases entered_sessions peer _ reply superseded numbering present with
        ⟨-, rfl⟩ | ⟨-, old, before, -, same⟩
      · exact charted_first floats map player generation identityHash name
      · rw [sessions] at before
        exact (map.sessions other old before).congr (congrArg cellsOf same :)
  | @left peer reason session db flushPlayers dirtyPlayers flushPaused found =>
      intro other later present
      simp only [departed, dropped, FiniteMap.get?_erase] at present
      split at present
      · cases present
      · exact map.sessions other later present

theorem onMap_handle (floats : FloatFacts F) (inv : Inv pending server) (map : OnMap server) (moment : Moment)
    (event : Event) : OnMap (server.handleEvent moment event).1 := by
  have outcome := handleEvent_outcome inv moment event
  refine ⟨?_, charted_handle floats inv map moment event, outcome_everyJob ?_ outcome map.jobs⟩
  · rw [outcome_grid outcome, outcome_cfg outcome]
    exact map.grid
  · rintro peer session cell envelope audience found here - spoken ⟨⟩
    exact (map.sessions peer session found).here _ here

theorem onMap_tick (map : OnMap server) (tick : Tick) : OnMap (tick.run server) := by
  have keeps := keeps_tick server tick
  refine ⟨?_, charted_tick tick map.sessions, everyJob_tick tick ?_ ?_ map.jobs⟩
  · rw [keeps.world, keeps.cfg]
    exact map.grid
  · exact fun _ _ => id
  · rintro envelope audience - cell ⟨⟩

theorem reachable_onMap {db : Db F} (floats : FloatFacts F) (reached : Reachable db server pending) :
    OnMap server := by
  induction reached with
  | start opened =>
      obtain ⟨identityPlayers, -, rfl⟩ := new_opened opened
      exact ⟨rfl, by simp [Everyone, Server.opened], by rintro job ⟨⟩, by rintro job ⟨⟩⟩
  | poll now script _ polled ih => exact ⟨ih.grid, ih.sessions.of_sessions rfl, ih.jobs.of_same rfl rfl⟩
  | handle moment reached ih => exact onMap_handle floats reached.inv ih moment _
  | tick tick _ ih => exact onMap_tick ih tick

omit [Codec F] in
/-- The world places a player where its session is. -/
theorem mapped_near (agree : SessionsAgree noStray server) (map : OnMap server) {player : UInt64} {cell : Cell}
    (mapped : server.world.cellOf.get? player = some cell) : Within nearLimit cell := by
  rcases agree.placed player (by rw [mapped]; rfl) with owned | stray
  · obtain ⟨peer, owner⟩ := Option.isSome_iff_exists.mp owned
    obtain ⟨session, found, rfl⟩ := (agree.owner_iff player peer).mp owner
    obtain ⟨own, here, indexed, -⟩ := agree.cells peer session found
    rw [mapped, Option.some.injEq] at indexed
    subst indexed
    exact (map.sessions peer session found).here cell here
  · exact stray.elim

omit [Codec F] in
theorem indexed_near (agree : SessionsAgree noStray server) (map : OnMap server) {cell : Cell}
    {members : Finset World.EntityId} (indexed : server.world.index.get? cell = some members) :
    Within nearLimit cell := by
  obtain ⟨player, member⟩ := Finset.nonempty_iff_ne_empty.mpr (agree.coherent.inhabited cell members indexed)
  exact mapped_near agree map ((agree.coherent.listed_iff cell player).mp ⟨members, indexed, member⟩)

/-- Every place a server holds a cell in. -/
inductive HeldCell (server : Server F) : Cell → Prop
  | session {peer : PeerId} {session : Session F} {cell : Cell} (found : server.sessions.get? peer = some session)
      (held : SessionCell session cell) : HeldCell server cell
  | mapped {player : UInt64} {cell : Cell} (mapped : server.world.cellOf.get? player = some cell) :
      HeldCell server cell
  | indexed {cell : Cell} {members : Finset World.EntityId} (indexed : server.world.index.get? cell = some members) :
      HeldCell server cell
  | spoken {job : FanoutJob F} {cell : Cell} (queued : job ∈ server.chatFanout ∨ server.clockFanout = some job)
      (spoken : job.senderCell = some cell) : HeldCell server cell

omit [Codec F] in
theorem held_wide (agree : SessionsAgree noStray server) (map : OnMap server) {cell : Cell}
    (held : HeldCell server cell) : Within wideLimit cell := by
  cases held with
  | session found held => exact (map.sessions _ _ found).wide held
  | mapped mapped => exact (mapped_near agree map mapped).wide
  | indexed indexed => exact (indexed_near agree map indexed).wide
  | spoken queued spoken => exact (queued.elim (map.jobs.1 _) (map.jobs.2 _) cell spoken).wide

/-- In every reachable state every held cell is on the map, and so is every cell a client can ask for; distances
between held cells never overflow; and neither does the block around the origin or around a cell asked for. -/
theorem cell_arithmetic_exact {db : Db F} (floats : FloatFacts F) (reached : Reachable db server pending) :
    (∀ cell, HeldCell server cell → cell.cx.natAbs ≤ 10 ^ 7 + 1 + 16 ∧ cell.cz.natAbs ≤ 10 ^ 7 + 1 + 16) ∧
      (∀ cell, Sanitized server.world.grid cell → cell.cx.natAbs ≤ 10 ^ 7 + 1 ∧ cell.cz.natAbs ≤ 10 ^ 7 + 1) ∧
      (∀ cell other, HeldCell server cell → HeldCell server other →
        checkedChebyshev cell other = some (cell.chebyshevDistance other)) ∧
      (∀ cell, Sanitized server.world.grid cell → ∀ peer session, server.sessions.get? peer = some session →
        checkedCellsInRadius cell session.sub.radius = some (World.cellsInRadius cell session.sub.radius)) ∧
      checkedCellsInRadius (originOf server) server.cfg.aoiRadiusI32 =
        some (World.cellsInRadius (originOf server) server.cfg.aoiRadiusI32) := by
  have map := reachable_onMap floats reached
  have wide : ∀ cell, HeldCell server cell → Within wideLimit cell := fun cell => held_wide reached.inv.agree map
  have near : ∀ cell, Sanitized server.world.grid cell → Within nearLimit cell := by
    rintro cell ⟨pos, rot, vel, motion, sanitized, rfl⟩
    exact sanitized_near floats map.valid sanitized
  refine ⟨wide, near, ?_, ?_, ?_⟩
  · intro cell other held heldToo
    exact checkedChebyshev_exact (wide cell held) (wide other heldToo)
  · intro cell asked peer session found
    exact checkedCellsInRadius_exact (near cell asked) (map.sessions peer session found).reach
  · exact checkedCellsInRadius_exact (origin_near floats map.valid) (min_le_right _ _)

end Runs

/-! A client that reports a position far outside the world. -/
section Strays

theorem wholeMetres_floats : FloatFacts Int where
  zero_finite := rfl
  zero_clamped := rfl
  cell_near := by
    intro value size _ _ _
    have divided := Int.natAbs_ediv_le_natAbs (max (-10000000) (min value 10000000)) size
    have clamped : (max (-10000000) (min value 10000000)).natAbs ≤ nearLimit := by
      unfold nearLimit
      omega
    exact divided.trans clamped

local instance strayCodec : Codec Int where
  encode _ := []
  decode bytes :=
    if bytes = [1] then some (.hello (helloOf "first"))
    else if bytes = [2] then some (.hello (helloOf "second"))
    else if bytes = [3] then some (.state ⟨some (10 ^ 30, 0, -10 ^ 30), none, none, 0, 0⟩)
    else none

def strayScript : List SocketTurn := joinScript ++ [datagramFrom 1 [0, 3]]

def strayEvents : List Event := joinEvents ++ [.data 1 [3]]

def strayServer : Server Int := handleAll (scriptedServer strayScript) 1000 strayEvents

theorem strayServer_reached : Reachable emptyDb strayServer [] := by
  have waiting : Run emptyDb _ (scriptedServer strayScript) (strayEvents ++ []) :=
    scripted_run strayScript (by decide +kernel)
  exact (handleAll_run strayEvents 1000 waiting).reachable

theorem cell_arithmetic_exact_stray :
    HeldCell strayServer ⟨9765, -9766⟩ ∧ HeldCell strayServer ⟨0, 0⟩ ∧
      checkedChebyshev ⟨9765, -9766⟩ ⟨0, 0⟩ = some 9766 := by
  have clamped : strayServer.world.cellOf.get? 1 = some ⟨9765, -9766⟩ := by decide +kernel
  have waited : strayServer.world.cellOf.get? 2 = some ⟨0, 0⟩ := by decide +kernel
  have distances := (cell_arithmetic_exact wholeMetres_floats strayServer_reached).2.2.1
  exact ⟨.mapped clamped, .mapped waited, distances _ _ (.mapped clamped) (.mapped waited)⟩

end Strays
end SailwindOnline.CellBounds
