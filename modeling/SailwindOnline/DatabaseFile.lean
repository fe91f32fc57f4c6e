import SailwindOnline.DecimalText
import SailwindOnline.TableWrites

/-!
The database file under a server. Its `user_version` decides which migrations
an open still runs, each in one transaction; the `world` table keeps the clock
epoch and the weather seed of the first boot. An open can fail at every disk
operation and then leaves what it has committed so far.
-/

namespace SailwindOnline.DatabaseFile
open Persistence DecimalText Server

structure V1Tables (F : Type) where
  players : List PlayerRow
  playerSequence : Int64
  moorings : List (MooringRow F)
  ledger : List LedgerRow
  world : FiniteMap String String

structure V2Tables where
  market : FiniteMap (UInt32 × UInt32) (Int64 × Int64)
  marketTrades : List TradeRow

structure DbFile (F : Type) where
  userVersion : Int64
  v1 : Option (V1Tables F)
  v2 : Option V2Tables

inductive BootError where
  | disk
  | tableExists
  | noSuchTable
  | identities (failure : ServerError)
  | bind

def attemptBoot {Result : Type} (fails : Bool) (outcome : Except BootError Result) : Except BootError Result :=
  if fails then .error .disk else outcome

def schemaVersion : Int64 := 2

def clockEpochKey : String := "clock_epoch_ms"

def weatherSeedKey : String := "weather_seed"

namespace DbFile
section Opening
variable {F : Type}

/-- A path that names no file yet. -/
def missing : DbFile F := ⟨0, none, none⟩

/-! Migrations. -/

def migrationV1 (file : DbFile F) : Except BootError (DbFile F) :=
  match file.v1 with
  | some _ => .error .tableExists
  | none => .ok { file with userVersion := 1, v1 := some ⟨[], 0, [], [], FiniteMap.empty⟩ }

def migrationV2 (file : DbFile F) : Except BootError (DbFile F) :=
  match file.v2 with
  | some _ => .error .tableExists
  | none => .ok { file with userVersion := 2, v2 := some ⟨FiniteMap.empty, []⟩ }

/-- `fails n` is the disk failing the n-th operation of the open. -/
def migrate (fails : Nat → Bool) (file : DbFile F) : DbFile F × Except BootError Unit :=
  if fails 1 then (file, .error .disk)
  else
    match if file.userVersion < 1 then attemptBoot (fails 2) file.migrationV1 else .ok file with
    | .error failure => (file, .error failure)
    | .ok file =>
      match if file.userVersion < 2 then attemptBoot (fails 3) file.migrationV2 else .ok file with
      | .error failure => (file, .error failure)
      | .ok file => (file, .ok ())

def openFile (fails : Nat → Bool) (file : DbFile F) : DbFile F × Except BootError Unit :=
  if fails 0 then (file, .error .disk) else file.migrate fails

/-- What the accessors of `sw-persist` see. -/
def tables (file : DbFile F) : Except BootError (Db F) :=
  match file.v1, file.v2 with
  | some first, some second =>
    .ok ⟨first.players, first.playerSequence, first.ledger, second.market, second.marketTrades, first.moorings⟩
  | _, _ => .error .noSuchTable

/-- The file after its tables were written through an open handle. -/
def holding (file : DbFile F) (db : Db F) : DbFile F :=
  { file with
    v1 := file.v1.map fun first => ⟨db.players, db.playerSequence, db.moorings, db.ledger, first.world⟩
    v2 := file.v2.map fun _ => ⟨db.market, db.marketTrades⟩ }

/-! The `world` table. -/

def worldGet (file : DbFile F) (key : String) : Except BootError (Option String) :=
  match file.v1 with
  | none => .error .noSuchTable
  | some first => .ok (first.world.get? key)

def worldSet (file : DbFile F) (key value : String) : Except BootError (DbFile F) :=
  match file.v1 with
  | none => .error .noSuchTable
  | some first => .ok { file with v1 := some { first with world := first.world.insert key value } }

def worldGetOrInit (readFails writeFails : Bool) (file : DbFile F) (key default : String) :
    DbFile F × Except BootError String :=
  match attemptBoot readFails (file.worldGet key) with
  | .error failure => (file, .error failure)
  | .ok (some value) => (file, .ok value)
  | .ok none =>
    match attemptBoot writeFails (file.worldSet key default) with
    | .error failure => (file, .error failure)
    | .ok file => (file, .ok default)

end Opening

/-! The start of a server on a file. -/
section Boot
variable {F : Type} [Platform F]

structure BootMoment where
  nowMs : Int64
  draw : UInt64
  binds : Bool
  fails : Nat → Bool

def readIdentities (fails : Bool) (file : DbFile F) : Except BootError (Db F × FiniteMap String UInt64) :=
  match attemptBoot fails file.tables with
  | .error failure => .error failure
  | .ok db =>
    match loadIdentityPlayers db with
    | .error failure => .error (.identities failure)
    | .ok identityPlayers => .ok (db, identityPlayers)

/-- `Server::new`, with the file it leaves. -/
def boot (cfg : ValidConfig F) (moment : BootMoment) (file : DbFile F) :
    DbFile F × Except BootError (Server F) :=
  match file.openFile moment.fails with
  | (file, .error failure) => (file, .error failure)
  | (file, .ok ()) =>
    match file.readIdentities (moment.fails 4) with
    | .error failure => (file, .error failure)
    | .ok (db, identityPlayers) =>
      match file.worldGetOrInit (moment.fails 5) (moment.fails 6) clockEpochKey (showI64 moment.nowMs) with
      | (file, .error failure) => (file, .error failure)
      | (file, .ok epochText) =>
        match file.worldGetOrInit (moment.fails 7) (moment.fails 8) weatherSeedKey (showU64 moment.draw) with
        | (file, .error failure) => (file, .error failure)
        | (file, .ok seedText) =>
          if moment.binds then
            (file, .ok (Server.opened cfg db identityPlayers ((parseI64 epochText).getD moment.nowMs)
              ((parseU64 seedText).getD 0)))
          else (file, .error .bind)

end Boot

/-! What an open leaves. -/
section Effects
variable {F : Type} {file middle after : DbFile F}

/-- The version names the tables that are there. -/
structure Sound (file : DbFile F) : Prop where
  version : file.userVersion = 0 ∨ file.userVersion = 1 ∨ file.userVersion = schemaVersion
  v1 : file.v1.isSome = true ↔ 1 ≤ file.userVersion
  v2 : file.v2.isSome = true ↔ 2 ≤ file.userVersion

/-- The rows of the file, where a missing table has none. -/
def rows (file : DbFile F) : Db F where
  players := file.v1.elim [] V1Tables.players
  playerSequence := file.v1.elim 0 V1Tables.playerSequence
  ledger := file.v1.elim [] V1Tables.ledger
  market := file.v2.elim FiniteMap.empty V2Tables.market
  marketTrades := file.v2.elim [] V2Tables.marketTrades
  moorings := file.v1.elim [] V1Tables.moorings

def world (file : DbFile F) : FiniteMap String String := file.v1.elim FiniteMap.empty V1Tables.world

/-- What any number of opens can do to a file: tables are added, no row is touched and no key changes. -/
structure Grown (before after : DbFile F) : Prop where
  sound : after.Sound
  forward : before.userVersion ≤ after.userVersion
  rows : after.rows = before.rows
  world : ∀ key value, before.world.get? key = some value → after.world.get? key = some value

theorem not_one_le_zero : ¬ (1 : Int64) ≤ 0 := by decide

theorem not_two_le {version : Int64} (old : version = 0 ∨ version = 1) : ¬ (2 : Int64) ≤ version := by
  rcases old with rfl | rfl <;> decide

theorem sound_missing : (missing : DbFile F).Sound where
  version := .inl rfl
  v1 := ⟨by rintro ⟨⟩, fun reached => absurd reached not_one_le_zero⟩
  v2 := ⟨by rintro ⟨⟩, fun reached => absurd reached (not_two_le (.inl rfl))⟩

theorem Grown.refl (sound : file.Sound) : Grown file file :=
  ⟨sound, le_refl _, rfl, fun _ _ held => held⟩

theorem Grown.trans (first : Grown file middle) (second : Grown middle after) : Grown file after where
  sound := second.sound
  forward := first.forward.trans second.forward
  rows := second.rows.trans first.rows
  world := fun key value held => second.world key value (first.world key value held)

theorem attemptBoot_ok {Result : Type} {fails : Bool} {outcome : Except BootError Result} {result : Result}
    (done : attemptBoot fails outcome = .ok result) : outcome = .ok result := by
  cases fails with
  | true => cases done
  | false => exact done

/-- A sound file below version 1 has no table at all. -/
theorem Sound.bare (sound : file.Sound) (old : file.userVersion < 1) : file = missing := by
  obtain ⟨version, first, second⟩ := sound
  obtain ⟨userVersion, v1, v2⟩ := file
  have zero : userVersion = 0 := by
    rcases version with same | same | same
    · exact same
    · exact absurd old (by rw [same]; decide)
    · exact absurd old (by rw [same]; decide)
  subst zero
  have none1 : v1 = none := by simpa using (not_congr first).mpr not_one_le_zero
  have none2 : v2 = none := by simpa using (not_congr second).mpr (not_two_le (.inl rfl))
  rw [none1, none2]
  rfl

theorem migrationV1_grown (sound : file.Sound) (old : file.userVersion < 1)
    (done : file.migrationV1 = .ok after) : Grown file after ∧ after.userVersion = 1 := by
  cases sound.bare old
  cases done
  have created : Sound (⟨1, some ⟨[], 0, [], [], FiniteMap.empty⟩, none⟩ : DbFile F) :=
    ⟨.inr (.inl rfl), ⟨fun _ => le_refl _, fun _ => rfl⟩,
      ⟨by rintro ⟨⟩, fun reached => absurd reached (not_two_le (.inr rfl))⟩⟩
  have forward : (0 : Int64) ≤ 1 := by decide
  refine ⟨⟨created, forward, rfl, ?_⟩, rfl⟩
  intro key value held
  simp [DbFile.world, missing] at held

theorem migrationV2_grown (sound : file.Sound) (first : 1 ≤ file.userVersion)
    (done : file.migrationV2 = .ok after) : Grown file after ∧ after.userVersion = schemaVersion := by
  unfold migrationV2 at done
  split at done <;> rename_i absent
  · cases done
  · cases done
    have before : file.userVersion ≤ 2 := by
      rcases sound.version with same | same | same <;> rw [same] <;> decide
    refine ⟨⟨⟨.inr (.inr rfl), ?_, by simp⟩, before, ?_, fun _ _ held => held⟩, rfl⟩
    · simp [sound.v1, first]
    · simp [rows, absent]

/-- Whatever fails, an open only moves the file forward; one that succeeds ends at the latest schema. -/
theorem openFile_grown (sound : file.Sound) (fails : Nat → Bool) :
    Grown file (file.openFile fails).1 ∧
      ((file.openFile fails).2 = .ok () → (file.openFile fails).1.userVersion = schemaVersion) := by
  unfold openFile migrate
  split
  · exact ⟨.refl sound, by simp⟩
  split
  · exact ⟨.refl sound, by simp⟩
  split <;> rename_i first
  · exact ⟨.refl sound, by simp⟩
  rename_i middle
  have created : Grown file middle ∧ 1 ≤ middle.userVersion := by
    split at first <;> rename_i old
    · obtain ⟨grown, version⟩ := migrationV1_grown sound old (attemptBoot_ok first)
      exact ⟨grown, by rw [version]⟩
    · cases first
      exact ⟨.refl sound, by simpa using old⟩
  obtain ⟨grown, atLeast⟩ := created
  split <;> rename_i second
  · exact ⟨grown, by simp⟩
  split at second <;> rename_i old
  · obtain ⟨further, version⟩ := migrationV2_grown grown.sound atLeast (attemptBoot_ok second)
    exact ⟨grown.trans further, fun _ => version⟩
  · cases second
    refine ⟨grown, fun _ => ?_⟩
    rcases grown.sound.version with same | same | same
    · exact absurd atLeast (by rw [same]; decide)
    · exact absurd old (by rw [same]; decide)
    · exact same

/-- A sound file at the latest schema has every table. -/
theorem Sound.tables_eq (sound : file.Sound) (latest : file.userVersion = schemaVersion) :
    file.tables = .ok file.rows := by
  obtain ⟨first, held1⟩ := Option.isSome_iff_exists.mp (sound.v1.mpr (by rw [latest]; decide))
  obtain ⟨second, held2⟩ := Option.isSome_iff_exists.mp (sound.v2.mpr (by rw [latest]; decide))
  unfold tables rows
  rw [held1, held2]
  rfl

theorem worldGet_ok {key : String} {found : Option String} (read : file.worldGet key = .ok found) :
    file.world.get? key = found := by
  unfold worldGet at read
  unfold world
  split at read <;> rename_i present
  · cases read
  · rw [present]
    exact Except.ok.inj read

theorem worldSet_ok {key value : String} (sound : file.Sound) (absent : file.world.get? key = none)
    (written : file.worldSet key value = .ok after) :
    Grown file after ∧ after.userVersion = file.userVersion ∧ after.world = file.world.insert key value := by
  unfold worldSet at written
  split at written
  · cases written
  · rename_i first present
    cases written
    have inserted : file.world = first.world := by rw [world, present, Option.elim_some]
    refine ⟨⟨⟨sound.version, ?_, sound.v2⟩, le_refl _, ?_, ?_⟩, rfl, by rw [inserted]; rfl⟩
    · rw [← sound.v1, present]
      rfl
    · simp only [rows, present, Option.elim_some]
    · intro other kept held
      -- The new key was absent, so no other value is lost.
      have apart : other ≠ key := by
        rintro rfl
        rw [absent] at held
        cases held
      show FiniteMap.get? (FiniteMap.insert _ key value) other = some kept
      rw [FiniteMap.get?_insert, if_neg apart, ← inserted]
      exact held

/-- The key is there afterwards unless the disk failed, with the value that is read. -/
theorem worldGetOrInit_grown (sound : file.Sound) (readFails writeFails : Bool) (key default : String) :
    Grown file (file.worldGetOrInit readFails writeFails key default).1 ∧
      (file.worldGetOrInit readFails writeFails key default).1.userVersion = file.userVersion ∧
      ∀ value, (file.worldGetOrInit readFails writeFails key default).2 = .ok value →
        (file.worldGetOrInit readFails writeFails key default).1.world.get? key = some value ∧
          (file.world.get? key = some value ∨ (file.world.get? key = none ∧ value = default)) := by
  unfold worldGetOrInit
  split <;> rename_i reading
  · exact ⟨.refl sound, rfl, by simp⟩
  · -- The value of an earlier boot is kept.
    have held := worldGet_ok (attemptBoot_ok reading)
    refine ⟨.refl sound, rfl, ?_⟩
    rintro value ⟨⟩
    exact ⟨held, .inl held⟩
  · have absent := worldGet_ok (attemptBoot_ok reading)
    split <;> rename_i writing
    · exact ⟨.refl sound, rfl, by simp⟩
    · obtain ⟨grown, version, world⟩ := worldSet_ok sound absent (attemptBoot_ok writing)
      refine ⟨grown, version, ?_⟩
      rintro value ⟨⟩
      refine ⟨?_, .inr ⟨absent, rfl⟩⟩
      rw [world, FiniteMap.get?_insert_self]

end Effects

/-! What a boot leaves. -/
section Boots
variable {F : Type} [Platform F] {file after : DbFile F} {cfg : ValidConfig F} {moment : BootMoment}

/-- The two keys hold numbers that a boot wrote. -/
structure Stamped (file : DbFile F) : Prop where
  clock : ∀ text, file.world.get? clockEpochKey = some text → ∃ epochMs, text = showI64 epochMs
  weather : ∀ text, file.world.get? weatherSeedKey = some text → ∃ seed, text = showU64 seed

/-- A server that started on a file, and what the file says about it. -/
structure Booted (cfg : ValidConfig F) (file : DbFile F) (server : Server F) : Prop where
  sound : file.Sound
  latest : file.userVersion = schemaVersion
  started : Server.new cfg file.rows server.epochMs server.weatherSeed = .ok server
  epoch : file.world.get? clockEpochKey = some (showI64 server.epochMs)
  seed : file.world.get? weatherSeedKey = some (showU64 server.weatherSeed)

omit [Platform F] in
theorem stamped_missing : (missing : DbFile F).Stamped := by
  constructor <;> simp [world, missing]

omit [Platform F] in
/-- Nothing but the missing key is written, and only with its default. -/
theorem worldGetOrInit_from (sound : file.Sound) (readFails writeFails : Bool) {key default other text : String}
    (held : (file.worldGetOrInit readFails writeFails key default).1.world.get? other = some text) :
    file.world.get? other = some text ∨ (other = key ∧ text = default) := by
  unfold worldGetOrInit at held
  split at held
  · exact .inl held
  · exact .inl held
  · rename_i reading
    split at held <;> rename_i writing
    · exact .inl held
    · obtain ⟨-, -, written⟩ := worldSet_ok sound (worldGet_ok (attemptBoot_ok reading)) (attemptBoot_ok writing)
      rw [written, FiniteMap.get?_insert] at held
      split at held <;> rename_i own
      · exact .inr ⟨own, (Option.some.inj held).symm⟩
      · exact .inl held

omit [Platform F] in
theorem Stamped.clockKey (stamped : file.Stamped) (sound : file.Sound) (readFails writeFails : Bool) (nowMs : Int64) :
    (file.worldGetOrInit readFails writeFails clockEpochKey (showI64 nowMs)).1.Stamped := by
  constructor
  · intro text held
    rcases worldGetOrInit_from sound readFails writeFails held with earlier | ⟨-, rfl⟩
    · exact stamped.clock text earlier
    · exact ⟨nowMs, rfl⟩
  · intro text held
    rcases worldGetOrInit_from sound readFails writeFails held with earlier | ⟨same, -⟩
    · exact stamped.weather text earlier
    · exact absurd same (by decide)

omit [Platform F] in
theorem Stamped.weatherKey (stamped : file.Stamped) (sound : file.Sound) (readFails writeFails : Bool) (draw : UInt64) :
    (file.worldGetOrInit readFails writeFails weatherSeedKey (showU64 draw)).1.Stamped := by
  constructor
  · intro text held
    rcases worldGetOrInit_from sound readFails writeFails held with earlier | ⟨same, -⟩
    · exact stamped.clock text earlier
    · exact absurd same (by decide)
  · intro text held
    rcases worldGetOrInit_from sound readFails writeFails held with earlier | ⟨-, rfl⟩
    · exact stamped.weather text earlier
    · exact ⟨draw, rfl⟩

omit [Platform F] in
theorem Stamped.grown (stamped : file.Stamped) (same : after.world = file.world) : after.Stamped := by
  constructor
  · rw [same]
    exact stamped.clock
  · rw [same]
    exact stamped.weather

omit [Platform F] in
/-- Migrations do not reach the `world` table once it is there. -/
theorem openFile_world (sound : file.Sound) (fails : Nat → Bool) :
    (file.openFile fails).1.world = file.world := by
  unfold openFile migrate
  split
  · rfl
  split
  · rfl
  split <;> rename_i first
  · rfl
  rename_i middle
  have created : middle.world = file.world := by
    split at first <;> rename_i old
    · cases sound.bare old
      cases attemptBoot_ok first
      rfl
    · cases first
      rfl
  split <;> rename_i second
  · exact created
  split at second
  · have done := attemptBoot_ok second
    unfold migrationV2 at done
    split at done
    · cases done
    · cases done
      exact created
  · cases second
    exact created

omit [Platform F] in
theorem readIdentities_ok {fails : Bool} {db : Db F} {identityPlayers : FiniteMap String UInt64} (sound : file.Sound)
    (latest : file.userVersion = schemaVersion) (read : file.readIdentities fails = .ok (db, identityPlayers)) :
    db = file.rows ∧ loadIdentityPlayers file.rows = .ok identityPlayers := by
  unfold readIdentities at read
  rw [sound.tables_eq latest] at read
  cases fails with
  | true => cases read
  | false =>
      simp only [attemptBoot, Bool.false_eq_true, if_false] at read
      split at read <;> rename_i loaded
      · cases read
      · cases read
        exact ⟨rfl, loaded⟩

/-- However far a boot gets, the file only grows; a server that starts is the one its file describes. -/
theorem boot_grown (sound : file.Sound) (stamped : file.Stamped) (cfg : ValidConfig F) (moment : BootMoment) :
    Grown file (file.boot cfg moment).1 ∧ (file.boot cfg moment).1.Stamped ∧
      ∀ server, (file.boot cfg moment).2 = .ok server → Booted cfg (file.boot cfg moment).1 server := by
  obtain ⟨opening, migrated⟩ := openFile_grown sound moment.fails
  have stampedOpen := stamped.grown (openFile_world sound moment.fails)
  unfold boot
  split <;> rename_i opened
  · rw [opened] at opening stampedOpen
    exact ⟨opening, stampedOpen, by simp⟩
  rename_i openedFile
  rw [opened] at opening stampedOpen migrated
  have latest := migrated rfl
  split <;> rename_i reading
  · exact ⟨opening, stampedOpen, by simp⟩
  rename_i db identityPlayers
  obtain ⟨clocked, clockVersion, clockValue⟩ := worldGetOrInit_grown opening.sound (moment.fails 5)
    (moment.fails 6) clockEpochKey (showI64 moment.nowMs)
  have stampedClock := stampedOpen.clockKey opening.sound (moment.fails 5) (moment.fails 6) moment.nowMs
  split <;> rename_i clocking
  · rw [clocking] at clocked stampedClock
    exact ⟨opening.trans clocked, stampedClock, by simp⟩
  rename_i clockFile epochText
  rw [clocking] at clocked stampedClock clockVersion clockValue
  obtain ⟨seeded, seedVersion, seedValue⟩ := worldGetOrInit_grown clocked.sound (moment.fails 7)
    (moment.fails 8) weatherSeedKey (showU64 moment.draw)
  have stampedSeed := stampedClock.weatherKey clocked.sound (moment.fails 7) (moment.fails 8) moment.draw
  split <;> rename_i seeding
  · rw [seeding] at seeded stampedSeed
    exact ⟨opening.trans (clocked.trans seeded), stampedSeed, by simp⟩
  rename_i seedFile seedText
  rw [seeding] at seeded stampedSeed seedVersion seedValue
  have grown := opening.trans (clocked.trans seeded)
  split
  · refine ⟨grown, stampedSeed, ?_⟩
    rintro server ⟨⟩
    have clockHeld := seeded.world _ _ (clockValue epochText rfl).1
    have seedHeld := (seedValue seedText rfl).1
    obtain ⟨epochMs, rfl⟩ := stampedSeed.clock epochText clockHeld
    obtain ⟨seed, rfl⟩ := stampedSeed.weather seedText seedHeld
    rw [parseI64_show, parseU64_show]
    obtain ⟨rfl, loaded⟩ := readIdentities_ok opening.sound latest reading
    refine ⟨seeded.sound, seedVersion.trans (clockVersion.trans latest), ?_, clockHeld, seedHeld⟩
    have kept : seedFile.rows = openedFile.rows := seeded.rows.trans clocked.rows
    rw [kept, Server.new, loaded]
    rfl
  · exact ⟨grown, stampedSeed, by simp⟩

/-! What can refuse a boot: no migration meets a table that is there, and no query one that is not. -/

theorem attemptBoot_error {Result : Type} {fails : Bool} {outcome : Except BootError Result} {result : Result}
    {failure : BootError} (sure : outcome = .ok result) (refused : attemptBoot fails outcome = .error failure) :
    failure = .disk ∧ fails = true := by
  cases fails with
  | true =>
      cases refused
      exact ⟨rfl, rfl⟩
  | false =>
      rw [attemptBoot, if_neg (by simp), sure] at refused
      cases refused

omit [Platform F] in
theorem openFile_error {fails : Nat → Bool} {failure : BootError} (sound : file.Sound)
    (refused : (file.openFile fails).2 = .error failure) : failure = .disk ∧ ∃ operation, fails operation = true := by
  unfold openFile migrate at refused
  split at refused <;> rename_i journal
  · cases refused
    exact ⟨rfl, _, journal⟩
  split at refused <;> rename_i version
  · cases refused
    exact ⟨rfl, _, version⟩
  split at refused <;> rename_i first
  · cases refused
    split at first <;> rename_i old
    · cases sound.bare old
      obtain ⟨disk, failed⟩ := attemptBoot_error rfl first
      exact ⟨disk, _, failed⟩
    · cases first
  rename_i middle
  have bare : middle.userVersion < 2 → middle.v2 = none := by
    intro older
    split at first <;> rename_i old
    · cases sound.bare old
      cases attemptBoot_ok first
      rfl
    · cases first
      simpa [not_le.mpr older] using (not_congr sound.v2)
  split at refused <;> rename_i second
  · cases refused
    split at second <;> rename_i old
    · have created : middle.migrationV2 = .ok { middle with userVersion := 2, v2 := some ⟨FiniteMap.empty, []⟩ } := by
        rw [migrationV2, bare old]
      obtain ⟨disk, failed⟩ := attemptBoot_error created second
      exact ⟨disk, _, failed⟩
    · cases second
  · cases refused

omit [Platform F] in
theorem worldGetOrInit_error {readFails writeFails : Bool} {key default : String} {failure : BootError}
    (first : file.v1.isSome = true)
    (refused : (file.worldGetOrInit readFails writeFails key default).2 = .error failure) :
    failure = .disk ∧ (readFails = true ∨ writeFails = true) := by
  obtain ⟨tables, held⟩ := Option.isSome_iff_exists.mp first
  have read : file.worldGet key = .ok (tables.world.get? key) := by rw [worldGet, held]
  have written : file.worldSet key default =
      .ok { file with v1 := some { tables with world := tables.world.insert key default } } := by
    rw [worldSet, held]
  unfold worldGetOrInit at refused
  split at refused <;> rename_i reading
  · cases refused
    obtain ⟨disk, failed⟩ := attemptBoot_error read reading
    exact ⟨disk, .inl failed⟩
  · cases refused
  · split at refused <;> rename_i writing
    · cases refused
      obtain ⟨disk, failed⟩ := attemptBoot_error written writing
      exact ⟨disk, .inr failed⟩
    · cases refused

/-- A file whose identities load is refused by the disk or by the port alone. -/
theorem boot_error {failure : BootError} (sound : file.Sound) {identityPlayers : FiniteMap String UInt64}
    (loads : loadIdentityPlayers file.rows = .ok identityPlayers)
    (refused : (file.boot cfg moment).2 = .error failure) :
    (failure = .disk ∧ ∃ operation, moment.fails operation = true) ∨ (failure = .bind ∧ moment.binds = false) := by
  obtain ⟨opening, migrated⟩ := openFile_grown sound moment.fails
  unfold boot at refused
  split at refused <;> rename_i opened
  · cases refused
    exact .inl (openFile_error sound (congrArg Prod.snd opened))
  rename_i openedFile
  rw [opened] at opening migrated
  have first : ∀ {later : DbFile F}, later.Sound → later.userVersion = schemaVersion → later.v1.isSome = true :=
    fun sound same => sound.v1.mpr (by rw [same]; decide)
  split at refused <;> rename_i reading
  · cases refused
    unfold readIdentities at reading
    split at reading <;> rename_i tables
    · cases reading
      obtain ⟨disk, failed⟩ := attemptBoot_error (opening.sound.tables_eq (migrated rfl)) tables
      exact .inl ⟨disk, _, failed⟩
    · have rows := attemptBoot_ok tables
      rw [opening.sound.tables_eq (migrated rfl)] at rows
      cases rows
      rw [opening.rows, loads] at reading
      cases reading
  obtain ⟨clocked, clockVersion, -⟩ := worldGetOrInit_grown opening.sound (moment.fails 5) (moment.fails 6)
    clockEpochKey (showI64 moment.nowMs)
  split at refused <;> rename_i clocking
  · cases refused
    obtain ⟨disk, failed⟩ := worldGetOrInit_error (first opening.sound (migrated rfl)) (congrArg Prod.snd clocking)
    exact .inl ⟨disk, failed.elim (⟨_, ·⟩) (⟨_, ·⟩)⟩
  rw [clocking] at clocked clockVersion
  split at refused <;> rename_i seeding
  · cases refused
    obtain ⟨disk, failed⟩ := worldGetOrInit_error (first clocked.sound (clockVersion.trans (migrated rfl)))
      (congrArg Prod.snd seeding)
    exact .inl ⟨disk, failed.elim (⟨_, ·⟩) (⟨_, ·⟩)⟩
  split at refused <;> rename_i bound
  · cases refused
  · cases refused
    exact .inr ⟨rfl, by simpa using bound⟩

end Boots
end DbFile
end SailwindOnline.DatabaseFile
