import SailwindOnline.ImmediateTransactions
import SailwindOnline.Enrolment

/-!
Connections racing through `admit_player_by_token`. The call is followed one
statement at a time, under the immediate transaction it opens; between any two
statements other connections may begin, work, fail or commit. A disk error, a
busy timeout or a dropped transaction is an abort.
-/

namespace SailwindOnline.AdmissionRace
open MachineInt Persistence PlayerTable ImmediateTransactions SessionRuns

structure AdmitCall where
  tokenHash : String
  name : String
  now : Int64
  maxRows : UInt32

inductive AdmitError where
  | queryReturnedNoRows
  | db (error : DbError)

/-- The statement a call is about to execute. -/
inductive Statement where
  | selectId
  | update (id : Int64)
  | selectRow (id : Int64)
  | count
  | insert
  | commit (admission : PlayerAdmission)

section Program
variable {F : Type}

def execute (call : AdmitCall) : Statement → Db F → Turn Statement (Db F) PlayerAdmission AdmitError
  | .selectId, tx =>
    match tx.players.find? (fun row => row.tokenHash = call.tokenHash) with
    | some existing => .next (.update existing.id) tx
    | none => .next .count tx
  | .update id, tx => .next (.selectRow id) (tx.updatePlayer id (refreshed call.name call.now))
  | .selectRow id, tx =>
    match tx.player id with
    | some player => .next (.commit (.admitted player)) tx
    | none => .fail .queryReturnedNoRows
  | .count, tx =>
    if call.maxRows.toNat ≤ tx.players.length then .next (.commit .capacityReached) tx
    else .next .insert tx
  | .insert, tx =>
    match checkedAdd tx.playerSequence 1 with
    | none => .fail (.db .full)
    | some id =>
      if tx.players.any (fun row => row.tokenHash = call.tokenHash) then .fail (.db .constraint)
      else
        let player : PlayerRow := ⟨id, call.name, call.tokenHash, 0, call.now, call.now⟩
        .next (.commit (.admitted player))
          { tx with players := tx.players ++ [player], playerSequence := id }
  | .commit admission, tx => .commit tx admission

def admitPlayerByToken : Program AdmitCall Statement (Db F) PlayerAdmission AdmitError :=
  ⟨.selectId, execute⟩

/-! One call on its own. -/

variable {call : AdmitCall} {db work after : Db F} {place : Statement} {admission : PlayerAdmission}

/-- What a call that found `db` knows when it comes to a statement. -/
def At (call : AdmitCall) (db : Db F) : Statement → Db F → Prop
  | .selectId, work => work = db
  | .update id, work => work = db ∧ ∃ row ∈ db.players, row.tokenHash = call.tokenHash ∧ row.id = id
  | .selectRow id, work => work = db.updatePlayer id (refreshed call.name call.now) ∧
      ∃ row ∈ db.players, row.tokenHash = call.tokenHash ∧ row.id = id
  | .count, work => work = db ∧ ¬ HasIdentity db call.tokenHash
  | .insert, work => work = db ∧ ¬ HasIdentity db call.tokenHash ∧ db.players.length < call.maxRows.toNat
  | .commit admission, work => Admitted db call.tokenHash call.name call.now call.maxRows admission work

theorem find_own {Row Key : Type} [DecidableEq Key] {rows : List Row} {key : Row → Key}
    (unique : (rows.map key).Nodup) {row : Row} (member : row ∈ rows) :
    rows.find? (fun other => key other = key row) = some row := by
  cases found : rows.find? (fun other => key other = key row) with
  | none =>
      have absent := List.find?_eq_none.mp found row member
      simp at absent
  | some other =>
      have same : key other = key row := by simpa using List.find?_some found
      rw [List.inj_on_of_nodup_map unique (List.mem_of_find?_eq_some found) member same]

theorem player_updated (formed : WellFormed db) {row : PlayerRow} (member : row ∈ db.players)
    (change : PlayerRow → PlayerRow) (kept : ∀ row, identityOf (change row) = identityOf row) :
    (db.updatePlayer row.id change).player row.id = some (change row) := by
  have own : (change row).id = row.id := congrArg Prod.snd (kept row)
  have stays : change row ∈ (db.updatePlayer row.id change).players :=
    List.mem_map.mpr ⟨row, member, if_pos rfl⟩
  have found := find_own ((SameIdentities.updatePlayer db row.id change kept).wellFormed formed).ids stays
  rwa [own] at found

theorem At.next {later : Statement} (formed : WellFormed db) (here : At call db place work)
    (executed : execute call place work = .next later after) : At call db later after := by
  cases place with
  | selectId =>
      simp only [At] at here
      subst here
      simp only [execute] at executed
      split at executed <;> rename_i found <;> cases executed
      · exact ⟨rfl, _, List.mem_of_find?_eq_some found, by simpa using List.find?_some found, rfl⟩
      · exact ⟨rfl, (find_none_iff _ _).mp found⟩
  | update id =>
      obtain ⟨rfl, known⟩ := here
      cases executed
      exact ⟨rfl, known⟩
  | selectRow id =>
      obtain ⟨rfl, row, member, own, rfl⟩ := here
      simp only [execute, player_updated formed member (refreshed call.name call.now) fun _ => rfl] at executed
      cases executed
      exact .returning member own
  | count =>
      obtain ⟨rfl, unknown⟩ := here
      simp only [execute] at executed
      split at executed <;> rename_i crowded <;> cases executed
      · exact .full unknown crowded
      · exact ⟨rfl, unknown, by omega⟩
  | insert =>
      obtain ⟨rfl, unknown, room⟩ := here
      simp only [execute] at executed
      split at executed <;> rename_i next
      · cases executed
      · split at executed <;> cases executed
        exact .newcomer unknown room next
  | commit admission => cases executed

theorem reaches_at (formed : WellFormed db) (reached : Reaches admitPlayerByToken call db place work) :
    At call db place work := by
  induction reached with
  | enter => rfl
  | next before executed ih => exact ih.next formed executed

theorem completes_admitted (formed : WellFormed db)
    (completes : Completes admitPlayerByToken call db after admission) :
    Admitted db call.tokenHash call.name call.now call.maxRows admission after := by
  obtain ⟨place, work, reached, executed⟩ := completes
  have here := reaches_at formed reached
  cases place with
  | commit admission =>
      cases executed
      exact here
  | selectId | count | insert | update id | selectRow id =>
      simp only [admitPlayerByToken, execute] at executed
      repeat' split at executed
      all_goals cases executed

/-- An identity that has a row meets no failing statement. -/
theorem not_fails_known (formed : WellFormed db) (known : HasIdentity db call.tokenHash) (error : AdmitError) :
    ¬ Fails admitPlayerByToken call db error := by
  rintro ⟨place, work, reached, executed⟩
  have here := reaches_at formed reached
  cases place with
  | selectRow id =>
      obtain ⟨rfl, row, member, own, rfl⟩ := here
      simp only [admitPlayerByToken, execute,
        player_updated formed member (refreshed call.name call.now) fun _ => rfl] at executed
      cases executed
  | insert => exact here.2.1 known
  | selectId | count =>
      simp only [admitPlayerByToken, execute] at executed
      split at executed <;> cases executed
  | update id | commit admission => cases executed

/-- Alone, the statements come to what the call is modelled to do in one go. -/
theorem completes_call (formed : WellFormed db)
    (completes : Completes admitPlayerByToken call db after admission) :
    db.admitPlayerByToken call.tokenHash call.name call.now call.maxRows = .ok (admission, after) := by
  have admitted := completes_admitted formed completes
  unfold Db.admitPlayerByToken
  cases admitted with
  | returning member own =>
      have found := find_own formed.hashes member
      rw [own] at found
      simp only [found]
      rfl
  | full unknown crowded => simp only [(find_none_iff _ _).mpr unknown, if_pos crowded]
  | newcomer unknown room next =>
      simp only [(find_none_iff _ _).mpr unknown, if_neg (not_le.mpr room), next]

end Program

/-! Any number of connections. -/
section Racing
variable {F Conn : Type} [DecidableEq Conn]

abbrev Contest (F Conn : Type) := System Conn AdmitCall Statement (Db F) PlayerAdmission AdmitError

/-- What the end of a call does to the table it found. -/
structure Answered (action : Action Conn AdmitCall AdmitError) (before : Db F) (conn : Conn) (call : AdmitCall)
    (result : Except AdmitError PlayerAdmission) (after : Db F) : Prop where
  alone : ∀ admission, result = .ok admission →
    before.admitPlayerByToken call.tokenHash call.name call.now call.maxRows = .ok (admission, after)
  bounded : after.players.length ≤ max before.players.length call.maxRows.toNat
  known : ∀ row ∈ before.players, row.tokenHash = call.tokenHash → ∀ admission, result = .ok admission →
    admission = .admitted (refreshed call.name call.now row) ∧
      after.players = before.players.map
        (fun other => if other.tokenHash = call.tokenHash then refreshed call.name call.now other else other)
  refused : HasIdentity before call.tokenHash → ∀ error, result = .error error → action = .abort conn error
  unchanged : (∀ row, result ≠ .ok (.admitted row)) → after = before

variable {start : Db F} {system after : Contest F Conn} {action : Action Conn AdmitCall AdmitError}

theorem updatePlayer_own {db : Db F} (formed : WellFormed db) {row : PlayerRow} (member : row ∈ db.players)
    (change : PlayerRow → PlayerRow) :
    (db.updatePlayer row.id change).players =
      db.players.map (fun other => if other.tokenHash = row.tokenHash then change other else other) := by
  refine List.map_congr_left fun other present => ?_
  have same : other.id = row.id ↔ other.tokenHash = row.tokenHash :=
    ⟨fun equal => congrArg _ (List.inj_on_of_nodup_map formed.ids present member equal),
      fun equal => congrArg _ (List.inj_on_of_nodup_map formed.hashes present member equal)⟩
  simp only [same]

omit [DecidableEq Conn] in
theorem Answered.committed {db after : Db F} {call : AdmitCall} {admission : PlayerAdmission} {conn : Conn}
    (formed : WellFormed db) (completes : Completes admitPlayerByToken call db after admission) :
    Answered action db conn call (.ok admission) after := by
  have admitted := completes_admitted formed completes
  refine ⟨?_, ?_, ?_, by rintro _ _ ⟨⟩, ?_⟩
  · rintro _ ⟨⟩
    exact completes_call formed completes
  · cases admitted with
    | returning member own => simp [Db.updatePlayer]
    | full unknown crowded => exact le_max_left _ _
    | newcomer unknown room next =>
        rw [List.length_append]
        exact le_max_of_le_right room
  · rintro row member own _ ⟨⟩
    cases admitted with
    | returning present same =>
        have equal := List.inj_on_of_nodup_map formed.hashes present member (same.trans own.symm)
        subst equal
        refine ⟨rfl, ?_⟩
        rw [updatePlayer_own formed present, own]
    | full unknown crowded => exact absurd ⟨row, member, own⟩ unknown
    | newcomer unknown room next => exact absurd ⟨row, member, own⟩ unknown
  · intro other
    cases admitted with
    | returning member own => exact absurd rfl (other _)
    | full unknown crowded => rfl
    | newcomer unknown room next => exact absurd rfl (other _)

omit [DecidableEq Conn] in
theorem Answered.failed {db : Db F} {call : AdmitCall} {error : AdmitError} {conn : Conn} (formed : WellFormed db)
    (cause : action = .abort conn error ∨ Fails admitPlayerByToken call db error) :
    Answered action db conn call (.error error) db := by
  refine ⟨by rintro _ ⟨⟩, le_max_left _ _, by rintro _ _ _ _ ⟨⟩, ?_, fun _ => rfl⟩
  rintro known _ ⟨⟩
  exact cause.resolve_right (not_fails_known formed known error)

/-- Every identity ever admitted is still in the table under the id it was given. -/
structure Sound (system : Contest F Conn) : Prop where
  exclusive : Exclusive admitPlayerByToken system
  formed : WellFormed system.disk
  enrolled : ∀ entry ∈ system.log, ∀ row, entry.result = .ok (.admitted row) →
    (entry.call.tokenHash, row.id) ∈ identities system.disk

theorem admitted_identities {db after : Db F} {call : AdmitCall} {admission : PlayerAdmission}
    (admitted : Admitted db call.tokenHash call.name call.now call.maxRows admission after) :
    identities db ⊆ identities after ∧
      ∀ row, admission = .admitted row → (call.tokenHash, row.id) ∈ identities after := by
  cases admitted with
  | @returning row member own =>
      have same := SameIdentities.updatePlayer db row.id (refreshed call.name call.now) fun _ => rfl
      rw [same.rows]
      refine ⟨fun _ listed => listed, ?_⟩
      rintro _ ⟨⟩
      exact List.mem_map.mpr ⟨row, member, Prod.ext own rfl⟩
  | full unknown crowded => exact ⟨fun _ listed => listed, by rintro _ ⟨⟩⟩
  | newcomer unknown room next =>
      refine ⟨fun _ listed => ?_, ?_⟩
      · rw [identities, List.map_append]
        exact List.mem_append_left _ listed
      · rintro _ ⟨⟩
        rw [identities, List.map_append]
        exact List.mem_append_right _ (List.mem_singleton.mpr rfl)

theorem Sound.step (sound : Sound system) (done : step admitPlayerByToken system action = some after) :
    Sound after ∧ (after.log = system.log ∧ after.disk = system.disk ∨
      ∃ conn call result, after.log = system.log ++ [⟨conn, call, result⟩] ∧
        Answered action system.disk conn call result after.disk) := by
  obtain ⟨exclusive, effect⟩ := step_effect sound.exclusive done
  cases effect with
  | silent disk log =>
      refine ⟨⟨exclusive, disk ▸ sound.formed, ?_⟩, Or.inl ⟨log, disk⟩⟩
      rw [log, disk]
      exact sound.enrolled
  | failed conn call error disk log cause =>
      refine ⟨⟨exclusive, disk ▸ sound.formed, ?_⟩, Or.inr ⟨conn, call, _, log, ?_⟩⟩
      · intro entry listed row result
        rw [log] at listed
        rw [disk]
        rcases List.mem_append.mp listed with earlier | last
        · exact sound.enrolled entry earlier row result
        · cases List.mem_singleton.mp last
          cases result
      · rw [disk]
        exact Answered.failed sound.formed cause
  | committed conn call admission completes log =>
      have admitted := completes_admitted sound.formed completes
      obtain ⟨kept, own⟩ := admitted_identities admitted
      refine ⟨⟨exclusive, admitted.wellFormed sound.formed, ?_⟩,
        Or.inr ⟨conn, call, _, log, Answered.committed sound.formed completes⟩⟩
      intro entry listed row result
      rw [log] at listed
      rcases List.mem_append.mp listed with earlier | last
      · exact kept (sound.enrolled entry earlier row result)
      · cases List.mem_singleton.mp last
        exact own row (Except.ok.inj result)

theorem run_sound (formed : WellFormed start) (run : Run admitPlayerByToken start system) : Sound system := by
  induction run with
  | start => exact ⟨by rintro _ _ _ _ ⟨⟩, formed, by rintro _ ⟨⟩⟩
  | step run action done ih => exact (ih.step done).1

/-- The call a log entry tells of, made on its own; a failed call leaves the tables alone. -/
def replayOne (db : Db F) (entry : Finished Conn AdmitCall PlayerAdmission AdmitError) : Option (Db F) :=
  match entry.result with
  | .error _ => some db
  | .ok admission =>
    match db.admitPlayerByToken entry.call.tokenHash entry.call.name entry.call.now entry.call.maxRows with
    | .error _ => none
    | .ok (told, after) => if told = admission then some after else none

/-- However the connections interleave, the calls made one after another in the order they ended give the
same answers and the same tables. -/
theorem run_replays (formed : WellFormed start) (run : Run admitPlayerByToken start system) :
    system.log.foldlM replayOne start = some system.disk := by
  have replays : ∀ {log : List (Finished Conn AdmitCall PlayerAdmission AdmitError)} {disk : Db F},
      Serial admitPlayerByToken start log disk → log.foldlM replayOne start = some disk ∧ WellFormed disk := by
    intro log disk serial
    induction serial with
    | nil => exact ⟨rfl, formed⟩
    | failed earlier conn call error ih =>
        rw [List.foldlM_append, ih.1]
        exact ⟨rfl, ih.2⟩
    | committed earlier conn completes ih =>
        have alone := completes_call ih.2 completes
        rw [List.foldlM_append, ih.1]
        refine ⟨?_, (completes_admitted ih.2 completes).wellFormed ih.2⟩
        simp [replayOne, alone]
  exact (replays (run_serial run).2).1

theorem filter_own {Row Key : Type} [DecidableEq Key] {rows : List Row} {key : Row → Key}
    (unique : (rows.map key).Nodup) {row : Row} (member : row ∈ rows) :
    rows.filter (fun other => key other = key row) = [row] := by
  induction rows with
  | nil => cases member
  | cons head rest ih =>
      obtain ⟨apart, unique⟩ := List.nodup_cons.mp unique
      rcases List.mem_cons.mp member with rfl | later
      · have others : rest.filter (fun other => key other = key row) = [] := by
          refine List.filter_eq_nil_iff.mpr fun other present => ?_
          simpa using fun equal : key other = key row => apart (equal ▸ List.mem_map_of_mem present)
        simp [others]
      · have distinct : key head ≠ key row := fun equal => apart (equal ▸ List.mem_map_of_mem later)
        simpa [distinct] using ih unique later

omit [DecidableEq Conn] in
/-- One row for each identity ever admitted, under the id every admission of it was given. -/
theorem Sound.one_row (sound : Sound system) {entry : Finished Conn AdmitCall PlayerAdmission AdmitError}
    (listed : entry ∈ system.log) {row : PlayerRow} (result : entry.result = .ok (.admitted row)) :
    (system.disk.players.filter (fun stored => stored.tokenHash = entry.call.tokenHash)).map PlayerRow.id =
      [row.id] := by
  obtain ⟨stored, member, equal⟩ := List.mem_map.mp (sound.enrolled entry listed row result)
  obtain ⟨own, same⟩ := Prod.ext_iff.mp equal
  replace own : stored.tokenHash = entry.call.tokenHash := own
  replace same : stored.id = row.id := same
  rw [← own, filter_own sound.formed.hashes member, ← same]
  rfl

theorem admissions_serialize (formed : WellFormed start) (run : Run admitPlayerByToken start system) :
    (system.disk.players.map PlayerRow.tokenHash).Nodup ∧
      (∀ action after, ImmediateTransactions.step admitPlayerByToken system action = some after →
        after.log = system.log ∧ after.disk = system.disk ∨
          ∃ conn call result, after.log = system.log ++ [⟨conn, call, result⟩] ∧
            Answered action system.disk conn call result after.disk) ∧
      ∀ first ∈ system.log, ∀ second ∈ system.log, first.call.tokenHash = second.call.tokenHash →
        ∀ one other, first.result = .ok (.admitted one) → second.result = .ok (.admitted other) →
          one.id = other.id ∧
            (system.disk.players.filter (fun row => row.tokenHash = first.call.tokenHash)).map PlayerRow.id =
              [one.id] := by
  have sound := run_sound formed run
  refine ⟨sound.formed.hashes, fun action after done => (sound.step done).2, ?_⟩
  intro first earlier second later same one other created joined
  have row := sound.one_row earlier created
  have again := sound.one_row later joined
  rw [← same, row] at again
  exact ⟨List.head_eq_of_cons_eq again, row⟩

/-- Both connections call before either has begun; the loser of the lock finds the winner's row. -/
def raced : Option (Contest Int Bool) :=
  steps admitPlayerByToken { disk := emptyDb }
    ([.submit false ⟨"hash", "Ada", 10, 1⟩, .submit true ⟨"hash", "Bo", 20, 1⟩] ++
      List.replicate 5 (.advance true) ++ List.replicate 5 (.advance false))

theorem raced_once : raced.map (fun system => (system.disk.players, system.log.map (·.conn))) =
    some ([⟨1, "Ada", "hash", 0, 20, 10⟩], [true, false]) := by
  decide +kernel

theorem admissions_serialize_raced : ∃ system, raced = some system ∧
    system.disk.players.map PlayerRow.id = [1] ∧ (system.disk.players.map PlayerRow.tokenHash).Nodup ∧
      ∀ first ∈ system.log, ∀ second ∈ system.log, first.call.tokenHash = second.call.tokenHash →
        ∀ one other, first.result = .ok (.admitted one) → second.result = .ok (.admitted other) →
          one.id = other.id := by
  obtain ⟨system, done, seen⟩ := Option.map_eq_some_iff.mp raced_once
  have serial := admissions_serialize Enrolment.wellFormed_emptyDb (run_steps .start _ done)
  refine ⟨system, done, ?_, serial.1, fun first earlier second later same one other created joined =>
    (serial.2.2 first earlier second later same one other created joined).1⟩
  have players : system.disk.players = [⟨1, "Ada", "hash", 0, 20, 10⟩] := congrArg Prod.fst seen
  rw [players]
  rfl

end Racing
end SailwindOnline.AdmissionRace
