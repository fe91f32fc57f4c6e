import SailwindOnline.DatabaseFile
import SailwindOnline.TableLaws
import SailwindOnline.EconService

/-!
Servers over one database file, one process after another. A process boots on
the file or is refused, runs, and ends with the flush of a shutdown, or dies
between two stages or inside one, with the stage's write committed and nothing
of it told; a boot that dies halfway is one whose later disk operations failed.
Everything a server once committed is there for every later one.
-/

namespace SailwindOnline.Lifetimes
open Persistence PlayerTable Server Traces Effects TickEffects SessionRuns Enrolment TableWrites TableLaws DatabaseFile
  DecimalText

section Histories
variable {F : Type} [Platform F] [Codec F]

/-- One process that got past its boot. -/
structure Life (F : Type) [Platform F] where
  opened : Server F
  trace : List (Stage F)
  last : Server F

/-- The server after its boot and after each stage, and as it ended. -/
def Life.servers (life : Life F) : List (Server F) :=
  life.opened :: (life.trace.map Stage.after ++ [life.last])

/-- The run starts where the boot ended. -/
def Begins (opened : Server F) (trace : List (Stage F)) (server : Server F) : Prop :=
  ((trace.map Stage.before) ++ [server]).head? = some opened

inductive History : List (Life F) → DbFile F → Prop
  | missing : History [] DbFile.missing
  | refused {lives : List (Life F)} {file after : DbFile F} {cfg : ValidConfig F} {moment : DbFile.BootMoment}
      {failure : BootError} (history : History lives file)
      (booted : file.boot cfg moment = (after, .error failure)) : History lives after
  | crashed {lives : List (Life F)} {file after : DbFile F} {cfg : ValidConfig F} {moment : DbFile.BootMoment}
      {opened server : Server F} {trace : List (Stage F)} {pending : List Event} (history : History lives file)
      (booted : file.boot cfg moment = (after, .ok opened)) (run : Run opened.db trace server pending)
      (begins : Begins opened trace server) :
      History (lives ++ [⟨opened, trace, server⟩]) (after.holding server.db)
  | interrupted {lives : List (Life F)} {file after : DbFile F} {cfg : ValidConfig F} {moment : DbFile.BootMoment}
      {opened server : Server F} {trace : List (Stage F)} {stage : Stage F} {pending : List Event}
      (history : History lives file) (booted : file.boot cfg moment = (after, .ok opened))
      (run : Run opened.db (trace ++ [stage]) server pending) (begins : Begins opened (trace ++ [stage]) server) :
      History (lives ++ [⟨opened, trace, stage.before⟩]) (after.holding stage.after.db)
  | stopped {lives : List (Life F)} {file after : DbFile F} {cfg : ValidConfig F} {moment : DbFile.BootMoment}
      {opened server : Server F} {trace : List (Stage F)} {pending : List Event} (fails : Nat → UInt64 → Bool)
      (now : Int64) (history : History lives file) (booted : file.boot cfg moment = (after, .ok opened))
      (run : Run opened.db trace server pending) (begins : Begins opened trace server) :
      History (lives ++ [⟨opened, trace, (server.flushAll fails now).1⟩])
        (after.holding (server.flushAll fails now).1.db)

end Histories

/-! What one run shows of the boot it began with. -/
section Lives
variable {F : Type} [Platform F] [Codec F] {db : Db F} {opened server after : Server F} {trace : List (Stage F)}
  {pending : List Event}

/-- What the file tells a server when it boots. -/
def stampOf (server : Server F) : Int64 × UInt64 × UInt32 :=
  (server.epochMs, server.weatherSeed, server.weatherEpochDay)

omit [Codec F] in
theorem outcome_stamp {moment : Moment} {event : Event} (outcome : Outcome server moment event after) :
    stampOf after = stampOf server := by
  cases outcome with
  | calm frame posts kept => exact (congrArg stampOf frame :)
  | moved found motion state cell placed => rfl
  | spoke found here about captured => rfl
  | @joined peer bytes base middle numbered player identityHash name generation reply vacant frame posts
      superseded numbering =>
      have kept := entered_frame peer (withGeneration generation (firstSession server player identityHash name))
        reply superseded numbering
      exact (congrArg stampOf kept :).trans (congrArg stampOf frame :)
  | left found => rfl

theorem tick_stamp (server : Server F) (tick : Tick) : stampOf (tick.run server) = stampOf server := by
  cases tick with
  | aoi fails => exact (congrArg stampOf (processAoiWork_effect server fails).frame :)
  | snapshots => exact (congrArg stampOf (broadcastSnapshots_effect server).frame :)
  | fanout => exact (congrArg stampOf (processFanoutWork_run server).frame :)
  | dirtyFlush fails now => exact (congrArg stampOf (processDirtyFlushAt_effect server fails now).frame :)
  | beginFlush => rfl
  | clock clockMs => exact (congrArg stampOf (broadcastClock_frame server clockMs) :)

omit [Codec F] in
theorem begins_snoc {stage : Stage F} :
    Begins opened (trace ++ [stage]) server ↔ Begins opened trace stage.before := by
  have filled : trace.map Stage.before ++ [stage.before] ≠ [] := by simp
  obtain ⟨first, rest, whole⟩ := List.exists_cons_of_ne_nil filled
  unfold Begins
  rw [List.map_append, List.map_singleton, whole]
  rfl

omit [Codec F] in
theorem begins_upto {early later : List (Stage F)} {stage : Stage F}
    (begins : Begins opened (early ++ stage :: later) server) : Begins opened early stage.before := by
  cases early with
  | nil => exact begins
  | cons first rest => exact begins

omit [Codec F] in
theorem begins_append {middle : Server F} {early later : List (Stage F)} (first : Begins opened early middle)
    (second : Begins middle later server) : Begins opened (early ++ later) server := by
  cases early with
  | nil =>
      cases Option.some.inj first
      exact second
  | cons stage rest => exact first

/-- The servers of a run that began with `opened`, oldest first. -/
def seen (opened : Server F) (trace : List (Stage F)) : List (Server F) := opened :: trace.map Stage.after

omit [Codec F] in
theorem seen_snoc (opened : Server F) (trace : List (Stage F)) (stage : Stage F) :
    seen opened (trace ++ [stage]) = seen opened trace ++ [stage.after] := by
  simp [seen]

/-- What every stage hands on, a run hands on from each of its servers to each later one. -/
structure Carries (Carried : Server F → Server F → Prop) (servers : List (Server F)) (server : Server F) : Prop where
  ordered : servers.Pairwise Carried
  final : ∀ earlier ∈ servers, Carried earlier server

omit [Codec F] in
theorem Carries.snoc {Carried : Server F → Server F → Prop} {servers : List (Server F)}
    (refl : ∀ server, Carried server server)
    (trans : ∀ {early middle late}, Carried early middle → Carried middle late → Carried early late)
    (carries : Carries Carried servers server) (next : Carried server after) :
    Carries Carried (servers ++ [after]) after := by
  have all : ∀ earlier ∈ servers, Carried earlier after := fun earlier member =>
    trans (carries.final earlier member) next
  constructor
  · rw [List.pairwise_append]
    refine ⟨carries.ordered, List.pairwise_singleton _ _, ?_⟩
    intro earlier member last own
    rw [List.mem_singleton.mp own]
    exact all earlier member
  · intro earlier member
    rcases List.mem_append.mp member with old | own
    · exact all earlier old
    · rw [List.mem_singleton.mp own]
      exact refl after

theorem run_carries (Carried : Server F → Server F → Prop) (refl : ∀ server, Carried server server)
    (trans : ∀ {early middle late}, Carried early middle → Carried middle late → Carried early late)
    (step : ∀ {trace : List (Stage F)} {stage : Stage F} {pending : List Event},
      Run db (trace ++ [stage]) stage.after pending → Carried stage.before stage.after)
    (run : Run db trace server pending) (begins : Begins opened trace server) :
    Carries Carried (seen opened trace) server := by
  induction trace using List.reverseRecOn generalizing server pending with
  | nil =>
      cases Option.some.inj begins
      exact ⟨List.pairwise_singleton _ _, by simp [seen, refl]⟩
  | append_singleton trace stage ih =>
      obtain ⟨⟨waiting, earlier⟩, -, rfl⟩ := run.unsnoc
      rw [seen_snoc]
      exact (ih earlier (begins_snoc.mp begins)).snoc refl trans (step run)

theorem run_nil (run : Run db [] server pending) :
    pending = [] ∧ ∃ cfg epochMs weatherSeed, Server.new cfg db epochMs weatherSeed = .ok server := by
  generalize whole : ([] : List (Stage F)) = trace at run
  cases run with
  | start opened => exact ⟨rfl, _, _, _, opened⟩
  | poll now script run polled => simp at whole
  | handle moment run => simp at whole
  | tick tick run => simp at whole

/-- The start of the run a server was reached by. -/
theorem run_opened (run : Run db trace server pending) (begins : Begins opened trace server) :
    ∃ cfg epochMs weatherSeed, Server.new cfg db epochMs weatherSeed = .ok opened := by
  induction trace using List.reverseRecOn generalizing server pending with
  | nil =>
      cases Option.some.inj begins
      exact (run_nil run).2
  | append_singleton trace stage ih =>
      obtain ⟨⟨waiting, earlier⟩, -, rfl⟩ := run.unsnoc
      exact ih earlier (begins_snoc.mp begins)

/-- Every server that is seen was reached by a part of the run. -/
theorem seen_run (run : Run db trace server pending) (begins : Begins opened trace server) {earlier : Server F}
    (member : earlier ∈ seen opened trace) :
    ∃ trace pending, Run db trace earlier pending ∧ Begins opened trace earlier := by
  induction trace using List.reverseRecOn generalizing server pending with
  | nil =>
      cases List.mem_singleton.mp member
      cases Option.some.inj begins
      exact ⟨[], pending, run, rfl⟩
  | append_singleton trace stage ih =>
      obtain ⟨⟨waiting, shorter⟩, -, rfl⟩ := run.unsnoc
      rw [seen_snoc] at member
      rcases List.mem_append.mp member with old | own
      · exact ih shorter (begins_snoc.mp begins) old
      · rw [List.mem_singleton.mp own]
        exact ⟨_, _, run, begins⟩

theorem run_extends (run : Run db trace server pending) (begins : Begins opened trace server) :
    Carries (fun early late => Extends early.db late.db) (seen opened trace) server :=
  run_carries _ (fun _ => .refl _) .trans (fun whole => (stage_writes whole).extends) run begins

theorem run_stamps (run : Run db trace server pending) (begins : Begins opened trace server) :
    stampOf server = stampOf opened := by
  have kept := run_carries (fun early late => stampOf late = stampOf early) (fun _ => rfl)
    (fun first second => second.trans first) ?_ run begins
  · exact kept.final opened List.mem_cons_self
  · intro trace stage pending whole
    obtain ⟨before, action, after, rfl, move, -⟩ := run_move whole
    cases move with
    | poll => rfl
    | handle outcome => exact outcome_stamp outcome
    | tick tick => exact tick_stamp _ tick

/-- What a server keeps in memory of the file it was opened on. -/
structure Reflects (server : Server F) : Prop where
  day : server.weatherEpochDay = (Platform.clockFromEpoch (F := F) server.epochMs server.epochMs).day
  lawful : Lawful server.db
  books : Books.Kept server.db
  index : server.identityPlayers = indexOf server.db

theorem run_reflects (lawful : Lawful db) (books : Books.Kept db) (run : Run db trace server pending)
    (begins : Begins opened trace server) : Reflects server := by
  obtain ⟨cfg, epochMs, weatherSeed, started⟩ := run_opened run begins
  obtain ⟨identityPlayers, -, rfl⟩ := new_opened started
  have stamps := run_stamps run begins
  simp only [stampOf, Server.opened, Prod.mk.injEq] at stamps
  obtain ⟨epoch, -, day⟩ := stamps
  have writes := run_carries (fun early late => Writes early.db late.db) (fun _ => Relation.ReflTransGen.refl)
    Relation.ReflTransGen.trans stage_writes run begins
  have written : Lawful server.db := Writes.lawful (writes.final _ List.mem_cons_self) lawful
  refine ⟨?_, written, (Books.reachable_booked books run.reachable).kept,
    (reachable_registered lawful.formed run.reachable).index⟩
  rw [day, epoch]

omit [Codec F] in
/-- A flush at shutdown keeps what the server reflects. -/
theorem Reflects.flushAll (reflects : Reflects server) (fails : Nat → UInt64 → Bool) (now : Int64) :
    Reflects (server.flushAll fails now).1 ∧ stampOf (server.flushAll fails now).1 = stampOf server := by
  have frame : ∀ (server : Server F) player, flushFrame (touchedServer now server player) =
      flushFrame { server with dirtyPlayers := server.dirtyPlayers.erase player } := fun server player =>
    (settleFlushed_effect _ player).frame
  refine flushAll_keeps (fun flushed : Server F => Reflects flushed ∧ stampOf flushed = stampOf server) ?_ ?_
    server fails ⟨reflects, rfl⟩
  · rintro flushed player ⟨held, stamp⟩
    have same := frame flushed player
    have rows : SameIdentities flushed.db (touchedServer now flushed player).db := by
      rw [touchedServer_db]
      exact .touchLastSeen _ _ _
    have stamps : stampOf (touchedServer now flushed player) = stampOf flushed := (congrArg stampOf same :)
    refine ⟨⟨?_, ?_, ?_, ?_⟩, stamps.trans stamp⟩
    · simp only [stampOf, Prod.mk.injEq] at stamps
      rw [stamps.1, stamps.2.2]
      exact held.day
    · rw [touchedServer_db]
      exact Write.lawful (.touched _ _) held.lawful
    · rw [touchedServer_db]
      exact held.books.same (.touchLastSeen _ _ _)
    · rw [show (touchedServer now flushed player).identityPlayers = flushed.identityPlayers from
        (congrArg Server.identityPlayers same :), held.index]
      exact (Enrolment.SameIdentities.indexOf rows).symm
  · rintro flushed flushPlayers ⟨held, stamp⟩
    exact ⟨⟨held.day, held.lawful, held.books, held.index⟩, stamp⟩

end Lives

/-! The file between two processes. -/
section Files
variable {F : Type} {file : DbFile F} {db : Db F}

theorem lawful_missing : Lawful (DbFile.missing : DbFile F).rows where
  formed := ⟨List.nodup_nil, List.nodup_nil, by simp [DbFile.rows, DbFile.missing],
    by simp [DbFile.rows, DbFile.missing], le_refl (0 : Int64)⟩
  hex := by simp [DbFile.rows, DbFile.missing]
  few := by simp [DbFile.rows, DbFile.missing]
  txns := List.nodup_nil
  tradeTxns := List.nodup_nil
  market := by simp [DbFile.rows, DbFile.missing, tradesOf]
  stocked := by simp [DbFile.rows, DbFile.missing]

theorem holding_sound (sound : file.Sound) : (file.holding db).Sound :=
  ⟨sound.version, by simpa [DbFile.holding] using sound.v1, by simpa [DbFile.holding] using sound.v2⟩

theorem holding_world (file : DbFile F) (db : Db F) : (file.holding db).world = file.world := by
  unfold DbFile.world DbFile.holding
  cases file.v1 <;> rfl

theorem holding_rows (sound : file.Sound) (latest : file.userVersion = schemaVersion) :
    (file.holding db).rows = db := by
  obtain ⟨first, held1⟩ := Option.isSome_iff_exists.mp (sound.v1.mpr (by rw [latest]; decide))
  obtain ⟨second, held2⟩ := Option.isSome_iff_exists.mp (sound.v2.mpr (by rw [latest]; decide))
  unfold DbFile.rows DbFile.holding
  rw [held1, held2]
  rfl

end Files

/-! The chronicle of a file. -/
section Chronicles
variable {F : Type} [Platform F] [Codec F] {lives : List (Life F)} {file after : DbFile F}

/-- What the file holds of a server that once ran on it. -/
structure Recorded (file : DbFile F) (server : Server F) : Prop where
  reflects : Reflects server
  epoch : file.world.get? clockEpochKey = some (showI64 server.epochMs)
  seed : file.world.get? weatherSeedKey = some (showU64 server.weatherSeed)
  rows : Extends server.db file.rows

structure Chronicle (lives : List (Life F)) (file : DbFile F) : Prop where
  sound : file.Sound
  stamped : file.Stamped
  lawful : Lawful file.rows
  books : Books.Kept file.rows
  ordered : (lives.flatMap Life.servers).Pairwise fun early late => Extends early.db late.db
  recorded : ∀ server ∈ lives.flatMap Life.servers, Recorded file server

omit [Codec F] in
theorem Recorded.grown {server : Server F} (recorded : Recorded file server) (grown : DbFile.Grown file after) :
    Recorded after server where
  reflects := recorded.reflects
  epoch := grown.world _ _ recorded.epoch
  seed := grown.world _ _ recorded.seed
  rows := by
    rw [grown.rows]
    exact recorded.rows

omit [Codec F] in
theorem Chronicle.booted (chronicle : Chronicle lives file) (cfg : ValidConfig F) (moment : DbFile.BootMoment) :
    Chronicle lives (file.boot cfg moment).1 := by
  obtain ⟨grown, stamped, -⟩ := DbFile.boot_grown chronicle.sound chronicle.stamped cfg moment
  refine ⟨grown.sound, stamped, ?_, ?_, chronicle.ordered, fun server member => (chronicle.recorded server member).grown grown⟩
  · rw [grown.rows]
    exact chronicle.lawful
  · rw [grown.rows]
    exact chronicle.books

omit [Codec F] in
/-- A server is opened on the rows of its file. -/
theorem Chronicle.opened_db {cfg : ValidConfig F} {moment : DbFile.BootMoment} {opened : Server F}
    (chronicle : Chronicle lives file) (booted : file.boot cfg moment = (after, .ok opened)) :
    opened.db = file.rows := by
  obtain ⟨grown, -, starts⟩ := DbFile.boot_grown chronicle.sound chronicle.stamped cfg moment
  rw [booted] at grown starts
  obtain ⟨identityPlayers, -, same⟩ := new_opened (starts opened rfl).started
  rw [same, ← grown.rows]
  rfl

/-- A process adds its servers, and leaves the tables of the last of them or what was written from there. -/
theorem Chronicle.lived {cfg : ValidConfig F} {moment : DbFile.BootMoment} {opened server last : Server F}
    {trace : List (Stage F)} {pending : List Event} {written : Db F} (chronicle : Chronicle lives file)
    (booted : file.boot cfg moment = (after, .ok opened)) (run : Run opened.db trace server pending)
    (begins : Begins opened trace server) (ended : Extends server.db last.db)
    (ends : Reflects server → Reflects last ∧ stampOf last = stampOf server) (kept : Extends last.db written)
    (closes : Reflects last → Lawful written ∧ Books.Kept written) :
    Chronicle (lives ++ [⟨opened, trace, last⟩]) (after.holding written) := by
  have own := chronicle.opened_db booted
  obtain ⟨grown, stamped, starts⟩ := DbFile.boot_grown chronicle.sound chronicle.stamped cfg moment
  rw [booted] at grown stamped starts
  have described := starts opened rfl
  have world := holding_world after written
  have rows : (after.holding written).rows = written := holding_rows described.sound described.latest
  rw [own] at run
  have carries := (run_extends run begins).snoc (fun _ => .refl _) .trans ended
  obtain ⟨final, stamp⟩ := ends (run_reflects chronicle.lawful chronicle.books run begins)
  obtain ⟨lawful, books⟩ := closes final
  -- Each server of the run reads the stamps the boot left in the file.
  have stamps : ∀ earlier ∈ seen opened trace ++ [last], Reflects earlier ∧ stampOf earlier = stampOf opened := by
    intro earlier member
    rcases List.mem_append.mp member with old | own
    · obtain ⟨shorter, waiting, earlierRun, earlierBegins⟩ := seen_run run begins old
      exact ⟨run_reflects chronicle.lawful chronicle.books earlierRun earlierBegins,
        run_stamps earlierRun earlierBegins⟩
    · rw [List.mem_singleton.mp own]
      exact ⟨final, stamp.trans (run_stamps run begins)⟩
  have new : ∀ earlier ∈ seen opened trace ++ [last], Recorded (after.holding written) earlier := by
    intro earlier member
    obtain ⟨reflected, same⟩ := stamps earlier member
    simp only [stampOf, Prod.mk.injEq] at same
    refine ⟨reflected, ?_, ?_, ?_⟩
    · rw [world, same.1]
      exact described.epoch
    · rw [world, same.2.1]
      exact described.seed
    · rw [rows]
      exact (carries.final earlier member).trans kept
  have listed : (lives ++ [(⟨opened, trace, last⟩ : Life F)]).flatMap Life.servers =
      lives.flatMap Life.servers ++ (seen opened trace ++ [last]) := by
    simp [Life.servers, seen]
  have before : ∀ earlier ∈ lives.flatMap Life.servers, Extends earlier.db last.db ∧ Extends earlier.db opened.db := by
    intro earlier member
    have reached := (chronicle.recorded earlier member).rows
    rw [← own] at reached
    exact ⟨reached.trans (carries.final opened List.mem_cons_self), reached⟩
  refine ⟨holding_sound described.sound, stamped.grown world, ?_, ?_, ?_, ?_⟩
  · rw [rows]
    exact lawful
  · rw [rows]
    exact books
  · rw [listed, List.pairwise_append]
    refine ⟨chronicle.ordered, carries.ordered, ?_⟩
    intro earlier member later listed
    have start := (before earlier member).2
    rcases List.mem_append.mp listed with old | ended
    · rcases List.mem_cons.mp old with rfl | stage
      · exact start
      · exact start.trans (List.rel_of_pairwise_cons (run_extends run begins).ordered stage)
    · rw [List.mem_singleton.mp ended]
      exact (before earlier member).1
  · rw [listed]
    intro earlier member
    rcases List.mem_append.mp member with old | own
    · obtain ⟨reflected, epoch, seed, -⟩ := chronicle.recorded earlier old
      refine ⟨reflected, ?_, ?_, ?_⟩
      · rw [world]
        exact grown.world _ _ epoch
      · rw [world]
        exact grown.world _ _ seed
      · rw [rows]
        exact (before earlier old).1.trans kept
    · exact new earlier own

theorem history_chronicle (history : History lives file) : Chronicle lives file := by
  induction history with
  | missing =>
      refine ⟨DbFile.sound_missing, DbFile.stamped_missing, lawful_missing, Books.kept_of_no_rows rfl rfl,
        List.Pairwise.nil, ?_⟩
      simp
  | @refused lives file after cfg moment failure history booted ih =>
      have kept := ih.booted cfg moment
      rw [booted] at kept
      exact kept
  | crashed history booted run begins ih =>
      exact ih.lived booted run begins (.refl _) (fun reflects => ⟨reflects, rfl⟩) (.refl _)
        fun reflects => ⟨reflects.lawful, reflects.books⟩
  | @interrupted lives file after cfg moment opened server trace stage pending history booted run begins ih =>
      have opening := ih.opened_db booted
      obtain ⟨⟨waiting, earlier⟩, -, rfl⟩ := run.unsnoc
      have began := begins_snoc.mp begins
      have written := run_reflects (opening ▸ ih.lawful) (opening ▸ ih.books) run begins
      exact ih.lived booted earlier began (.refl _) (fun reflects => ⟨reflects, rfl⟩) (stage_writes run).extends
        fun _ => ⟨written.lawful, written.books⟩
  | @stopped lives file after cfg moment opened server trace pending fails now history booted run begins ih =>
      have flushed : Extends server.db (server.flushAll fails now).1.db :=
        Writes.extends (flushAll_writes server fails now)
      exact ih.lived booted run begins flushed (fun reflects => reflects.flushAll fails now) (.refl _)
        fun reflects => ⟨reflects.lawful, reflects.books⟩

/-- The run of one process. -/
theorem history_run (history : History lives file) (life : Life F) (member : life ∈ lives) :
    ∃ db server pending, Run db life.trace server pending ∧ Begins life.opened life.trace server := by
  induction history with
  | missing => cases member
  | refused history booted ih => exact ih member
  | crashed history booted run begins ih =>
      rcases List.mem_append.mp member with earlier | own
      · exact ih earlier
      · rw [List.mem_singleton.mp own]
        exact ⟨_, _, _, run, begins⟩
  | interrupted history booted run begins ih =>
      rcases List.mem_append.mp member with earlier | own
      · exact ih earlier
      · rw [List.mem_singleton.mp own]
        obtain ⟨⟨waiting, shorter⟩, -, rfl⟩ := run.unsnoc
        exact ⟨_, _, _, shorter, begins_snoc.mp begins⟩
  | stopped fails now history booted run begins ih =>
      rcases List.mem_append.mp member with earlier | own
      · exact ih earlier
      · rw [List.mem_singleton.mp own]
        exact ⟨_, _, _, run, begins⟩

/-- A boot is the start of a run. -/
theorem boot_run {cfg : ValidConfig F} {moment : DbFile.BootMoment} {opened : Server F} (history : History lives file)
    (booted : file.boot cfg moment = (after, .ok opened)) : Run opened.db [] opened [] := by
  have chronicle := history_chronicle history
  obtain ⟨-, -, starts⟩ := DbFile.boot_grown chronicle.sound chronicle.stamped cfg moment
  rw [booted] at starts
  have described := starts opened rfl
  obtain ⟨identityPlayers, -, same⟩ := new_opened described.started
  have tables : opened.db = after.rows := congrArg Server.db same
  have started := described.started
  rw [← tables] at started
  exact .start started

end Chronicles

/-! Two processes on one file: the first dies with two players aboard, the second is shut down. -/
section Relaunch

def quietBoot (nowMs : Int64) (draw : UInt64) : DbFile.BootMoment :=
  { nowMs, draw, binds := true, fails := fun _ => false }

def bootedServer (moment : DbFile.BootMoment) (file : DbFile Int) : Server Int :=
  match (file.boot freshServer.cfg moment).2 with
  | .ok server => server
  | .error _ => freshServer

theorem booted_eq {moment : DbFile.BootMoment} {file : DbFile Int}
    (starts : (file.boot freshServer.cfg moment).2.toBool = true) :
    file.boot freshServer.cfg moment = ((file.boot freshServer.cfg moment).1, .ok (bootedServer moment file)) := by
  unfold bootedServer
  rcases booted : file.boot freshServer.cfg moment with ⟨after, failure | server⟩
  · rw [booted] at starts
    cases starts
  · rfl

def abandonedFile : DbFile Int :=
  (DbFile.missing.boot freshServer.cfg (quietBoot 0 0)).1.holding joinedServer.db

def reopenedServer : Server Int := bootedServer (quietBoot 5000 9) abandonedFile

def closedServer : Server Int := (reopenedServer.flushAll (fun _ _ => false) 6000).1

def relaunchLives : List (Life Int) :=
  [⟨freshServer, joinStages, joinedServer⟩, ⟨reopenedServer, [], closedServer⟩]

def relaunchFile : DbFile Int :=
  (abandonedFile.boot freshServer.cfg (quietBoot 5000 9)).1.holding closedServer.db

theorem abandoned : History [⟨freshServer, joinStages, joinedServer⟩] abandonedFile := by
  have first : DbFile.missing.boot freshServer.cfg (quietBoot 0 0) = (_, .ok freshServer) := rfl
  exact .crashed .missing first joinStages_run rfl

theorem reopened : abandonedFile.boot freshServer.cfg (quietBoot 5000 9) =
    ((abandonedFile.boot freshServer.cfg (quietBoot 5000 9)).1, .ok reopenedServer) :=
  booted_eq (by decide +kernel)

theorem reopened_run : Run reopenedServer.db [] reopenedServer [] := boot_run abandoned reopened

theorem relaunched : History relaunchLives relaunchFile :=
  .stopped (fun _ _ => false) 6000 abandoned reopened reopened_run rfl

end Relaunch

/-! A process that is killed in the stage that writes the second of two credits. -/
section Credit

@[reducible] def creditCodec : Codec Int where
  encode _ := []
  decode bytes :=
    if bytes = [1] then some (.hello (helloOf "first"))
    else if bytes = [2] then some (.hello (helloOf "second"))
    else if bytes = [3] then some (.econ { txnId := 7, amountGold := 50, kind := 0, note := none })
    else if bytes = [4] then some (.trade { txnId := 8, portId := 3, itemId := 4, qty := 10, unitPrice := 5 })
    else if bytes = [5] then some (.econ { txnId := 9, amountGold := 25, kind := 0, note := none })
    else none

local instance : Codec Int := creditCodec

def creditScript : List SocketTurn :=
  joinScript ++ [datagramFrom 1 [0, 3], datagramFrom 2 [0, 4], datagramFrom 1 [0, 5]]

def creditEvents : List Event := joinEvents ++ [.data 1 [3], .data 2 [4]]

def creditBoarded : Server Int := scriptedServer creditScript

def creditServer : Server Int := handleAll creditBoarded 1000 creditEvents

def killedStage : Stage Int :=
  ⟨creditServer, .handle (calmAt 7000) (.data 1 [5]), (creditServer.handleEvent (calmAt 7000) (.data 1 [5])).1⟩

def creditLife : Life Int :=
  ⟨freshServer, ⟨freshServer, .poll 0 creditScript, creditBoarded⟩ :: handling creditBoarded 1000 creditEvents,
    creditServer⟩

def creditFile : DbFile Int := (DbFile.missing.boot freshServer.cfg (quietBoot 0 0)).1.holding killedStage.after.db

theorem credited : History [creditLife] creditFile := by
  have first : DbFile.missing.boot freshServer.cfg (quietBoot 0 0) = (_, .ok freshServer) := rfl
  have waiting : Run emptyDb _ creditBoarded (creditEvents ++ [.data 1 [5]]) := scripted_run _ (by decide +kernel)
  exact .interrupted .missing first (.handle (calmAt 7000) (handleAll_run creditEvents 1000 waiting)) rfl

end Credit

/-! Results over every history. -/
section Results
variable {F : Type} [Platform F] [Codec F] {lives : List (Life F)} {file : DbFile F}

/-- Whatever was committed is there for every later server of every later process, and a token that once had a
player id has it for good. -/
theorem tables_survive (history : History lives file) :
    (lives.flatMap Life.servers).Pairwise (fun early late => Extends early.db late.db ∧
      ∀ hash player, early.identityPlayers.get? hash = some player → late.identityPlayers.get? hash = some player) ∧
    ∀ server ∈ lives.flatMap Life.servers, Extends server.db file.rows := by
  have chronicle := history_chronicle history
  constructor
  · apply chronicle.ordered.imp_of_mem
    intro early late earlyMember lateMember grown
    refine ⟨grown, ?_⟩
    have earlier := (chronicle.recorded early earlyMember).reflects
    have later := (chronicle.recorded late lateMember).reflects
    intro hash player known
    rw [earlier.index, indexOf_get earlier.lawful.formed] at known
    obtain ⟨row, member, own, id⟩ := known
    obtain ⟨kept, present, same⟩ := grown.row member
    simp only [credential, Prod.mk.injEq] at same
    rw [later.index, indexOf_get later.lawful.formed]
    exact ⟨kept, present, same.2.1.trans own, by rw [same.1, id]⟩
  · exact fun server member => (chronicle.recorded server member).rows

/-- The first player's id outlives the process that gave it. -/
theorem tables_survive_relaunched :
    reopenedServer.identityPlayers.get? (tokenHash "first") = some 1 ∧ Extends joinedServer.db relaunchFile.rows := by
  obtain ⟨ordered, final⟩ := tables_survive relaunched
  have known : joinedServer.identityPlayers.get? (tokenHash "first") = some 1 := by decide +kernel
  have later := List.pairwise_iff_getElem.mp ordered 6 7 (by decide) (by decide) (by decide)
  exact ⟨later.2 _ _ known, final joinedServer (by simp [relaunchLives, Life.servers])⟩

/-- However a boot ends, it keeps every row and key of the file and never takes its version back. Only the disk or the
port can refuse it, and one that succeeds serves the rows it found at the latest schema. -/
theorem boots_only_add (history : History lives file) (cfg : ValidConfig F) (moment : DbFile.BootMoment) :
    file.userVersion ≤ (file.boot cfg moment).1.userVersion ∧
    (file.boot cfg moment).1.userVersion ≤ schemaVersion ∧
    (file.boot cfg moment).1.rows = file.rows ∧
    (∀ key value, file.world.get? key = some value → (file.boot cfg moment).1.world.get? key = some value) ∧
    (∀ failure, (file.boot cfg moment).2 = .error failure →
      (failure = .disk ∧ ∃ operation, moment.fails operation = true) ∨ (failure = .bind ∧ moment.binds = false)) ∧
    ∀ server, (file.boot cfg moment).2 = .ok server →
      (file.boot cfg moment).1.userVersion = schemaVersion ∧ (file.boot cfg moment).1.tables = .ok server.db := by
  have chronicle := history_chronicle history
  obtain ⟨grown, -, starts⟩ := DbFile.boot_grown chronicle.sound chronicle.stamped cfg moment
  obtain ⟨identityPlayers, loads⟩ := chronicle.lawful.loads
  refine ⟨grown.forward, ?_, grown.rows, grown.world, fun failure refused => ?_, fun server started => ?_⟩
  · rcases grown.sound.version with same | same | same <;> rw [same] <;> decide
  · exact DbFile.boot_error chronicle.sound loads refused
  · have described := starts server started
    obtain ⟨identityPlayers, -, same⟩ := new_opened described.started
    refine ⟨described.latest, ?_⟩
    rw [described.sound.tables_eq described.latest, same]
    rfl

/-- A third boot that loses its disk while it reads the identities. -/
theorem boots_only_add_relaunched :
    (relaunchFile.boot freshServer.cfg
      { quietBoot 9000 3 with fails := fun operation => operation = 4 }).1.rows = relaunchFile.rows :=
  (boots_only_add relaunched _ _).2.2.1

/-- Balances are sums of ledger rows, no transaction is counted twice, and the market is what trades left. -/
structure Accounts (db : Db F) : Prop where
  gold : ∀ player : UInt64,
    (db.playerBalance player.toInt64).toInt = LedgerRefinement.ledgerGold db.ledger player ∧
      0 ≤ (db.playerBalance player.toInt64).toInt
  txns : (db.ledger.map LedgerRow.txnId).Nodup
  trades : (db.marketTrades.map TradeRow.txnId).Nodup
  market : ∀ key, db.market.get? key =
    (tradesOf db.marketTrades key).getLast?.map fun row => (row.stock, row.price)
  stocked : ∀ key state, db.market.get? key = some state → 0 ≤ state.1 ∧ 0 ≤ state.2

omit [Platform F] [Codec F] in
theorem accounts_of {db : Db F} (lawful : Lawful db) (books : Books.Kept db) : Accounts db where
  gold := by
    intro player
    refine ⟨EconService.gold_of_kept books player, ?_⟩
    rw [books.represents.balances player trivial]
    exact (books.sound.bounded player).1
  txns := lawful.txns
  trades := lawful.tradeTxns
  market := lawful.market
  stocked := by
    intro key state held
    rw [lawful.market key, Option.map_eq_some_iff] at held
    obtain ⟨row, last, rfl⟩ := held
    have traded := List.mem_of_getLast? last
    exact lawful.stocked row (List.mem_of_mem_filter traded)

/-- The accounts hold for every server of every process, and for the file between two of them. -/
theorem accounts_survive (history : History lives file) :
    (∀ server ∈ lives.flatMap Life.servers, Accounts server.db) ∧ Accounts file.rows := by
  have chronicle := history_chronicle history
  constructor
  · intro server member
    have reflected := (chronicle.recorded server member).reflects
    exact accounts_of reflected.lawful reflected.books
  · exact accounts_of chronicle.lawful chronicle.books

/-- The killed process told of a credit and a trade and had just written another credit. -/
theorem accounts_survive_credited :
    (creditFile.rows.playerBalance 1).toInt = 75 ∧ creditFile.rows.market.get? (3, 4) = some (10, 5) := by
  have accounts := (@accounts_survive Int _ creditCodec _ _ credited).2
  constructor
  · refine (accounts.gold 1).1.trans ?_
    decide +kernel
  · rw [accounts.market]
    decide +kernel

end Results
end SailwindOnline.Lifetimes
