import SailwindOnline.FlushQueue
import SailwindOnline.Throttles

/-!
Identities in memory and on disk. The server reads the `players` table once and
keeps `identity_players` in step with it afterwards: the index is always the one
a restart would load, so no admission can contradict it, and the reconnect
throttle, which is sized once at the start, always has room for another row.
-/

namespace SailwindOnline.Enrolment
open Server SessionIndex SessionRuns Effects TickEffects Traces PlayerTable Persistence RateLimiting FlushQueue
  Throttles

/-! The index of a table. -/
section Index
variable {F : Type}

def addIdentity (index : FiniteMap String UInt64) (identity : String × Int64) : FiniteMap String UInt64 :=
  index.insert identity.1 identity.2.toUInt64

/-- What `load_identity_players` reads from the table. -/
def indexOf (db : Db F) : FiniteMap String UInt64 := (identities db).foldl addIdentity FiniteMap.empty

theorem foldl_addIdentity_get (rows : List (String × Int64)) (unique : (rows.map Prod.fst).Nodup)
    (index : FiniteMap String UInt64) (hash : String) (player : UInt64) :
    (rows.foldl addIdentity index).get? hash = some player ↔
      (∃ id, (hash, id) ∈ rows ∧ id.toUInt64 = player) ∨
        (hash ∉ rows.map Prod.fst ∧ index.get? hash = some player) := by
  induction rows generalizing index with
  | nil => simp
  | cons row rest ih =>
      obtain ⟨own, id⟩ := row
      simp only [List.map_cons, List.nodup_cons] at unique
      rw [List.foldl_cons, ih unique.2, addIdentity, FiniteMap.get?_insert]
      by_cases same : hash = own
      · subst same
        have later : ∀ other, (hash, other) ∉ rest := fun other member =>
          unique.1 (List.mem_map.mpr ⟨_, member, rfl⟩)
        simp [later, unique.1]
      · simp [same]

theorem foldl_addIdentity_size (rows : List (String × Int64)) (unique : (rows.map Prod.fst).Nodup)
    (index : FiniteMap String UInt64) (fresh : ∀ row ∈ rows, index.get? row.1 = none) :
    (rows.foldl addIdentity index).size = index.size + rows.length := by
  induction rows generalizing index with
  | nil => simp
  | cons row rest ih =>
      simp only [List.map_cons, List.nodup_cons] at unique
      have first := fresh row (List.mem_cons_self ..)
      rw [List.foldl_cons, ih unique.2, addIdentity, FiniteMap.size_insert_fresh _ _ _ first, List.length_cons]
      · omega
      · intro other member
        rw [addIdentity, FiniteMap.get?_insert, if_neg]
        · exact fresh other (List.mem_cons_of_mem _ member)
        · intro same
          exact unique.1 (List.mem_map.mpr ⟨other, member, same⟩)

theorem hashes_nodup {db : Db F} (formed : WellFormed db) : ((identities db).map Prod.fst).Nodup := by
  simpa [identities, identityOf, Function.comp_def] using formed.hashes

theorem indexOf_get {db : Db F} (formed : WellFormed db) (hash : String) (player : UInt64) :
    (indexOf db).get? hash = some player ↔
      ∃ row ∈ db.players, row.tokenHash = hash ∧ row.id.toUInt64 = player := by
  rw [indexOf, foldl_addIdentity_get _ (hashes_nodup formed)]
  simp only [FiniteMap.get?_empty, reduceCtorEq, and_false, or_false, identities, List.mem_map, identityOf,
    Prod.mk.injEq]
  constructor
  · rintro ⟨id, ⟨row, member, own, rfl⟩, same⟩
    exact ⟨row, member, own, same⟩
  · rintro ⟨row, member, own, same⟩
    exact ⟨row.id, ⟨row, member, own, rfl⟩, same⟩

theorem indexOf_none {db : Db F} (formed : WellFormed db) (hash : String) :
    (indexOf db).get? hash = none ↔ ¬ HasIdentity db hash := by
  rw [Option.eq_none_iff_forall_ne_some]
  constructor
  · rintro absent ⟨row, member, own⟩
    exact absent row.id.toUInt64 ((indexOf_get formed hash _).mpr ⟨row, member, own, rfl⟩)
  · intro unknown player found
    obtain ⟨row, member, own, -⟩ := (indexOf_get formed hash player).mp found
    exact unknown ⟨row, member, own⟩

theorem indexOf_size {db : Db F} (formed : WellFormed db) : (indexOf db).size = db.players.length := by
  rw [indexOf, foldl_addIdentity_size _ (hashes_nodup formed) _ (by simp)]
  simp [identities]

theorem SameIdentities.indexOf {db later : Db F} (same : SameIdentities db later) :
    Enrolment.indexOf later = Enrolment.indexOf db := by
  rw [Enrolment.indexOf, same.rows, Enrolment.indexOf]

theorem mapM_identityEntry {rows : List (String × Int64)} {entries : List (String × UInt64)}
    (read : rows.mapM identityEntry = .ok entries) :
    entries = rows.map fun row => (row.1, row.2.toUInt64) := by
  induction rows generalizing entries with
  | nil =>
      cases read
      rfl
  | cons row rest ih =>
      rw [List.mapM_cons] at read
      cases entry : identityEntry row with
      | error failure =>
          rw [entry] at read
          cases read
      | ok first =>
          have shape : first = (row.1, row.2.toUInt64) := by
            unfold identityEntry at entry
            split at entry
            · cases entry
            · split at entry
              · cases entry
              · exact (Except.ok.inj entry).symm
          cases later : rest.mapM identityEntry with
          | error failure =>
              rw [entry, later] at read
              cases read
          | ok others =>
              rw [entry, later] at read
              cases read
              rw [ih later, shape]
              rfl

/-- A table that loads is loaded whole. -/
theorem loadIdentityPlayers_eq {db : Db F} {index : FiniteMap String UInt64}
    (loaded : loadIdentityPlayers db = .ok index) :
    index = indexOf db ∧ db.players.length ≤ maxPlayerRowsCeiling := by
  unfold loadIdentityPlayers loadIdentityPlayersUpTo at loaded
  have limit : (UInt32.ofNat (maxPlayerRowsCeiling + 1)).toNat = maxPlayerRowsCeiling + 1 := by decide
  simp only [Db.playerIdentities, limit, List.length_map, List.length_take] at loaded
  split at loaded <;> rename_i crowded
  · cases loaded
  · have few : db.players.length ≤ maxPlayerRowsCeiling := by omega
    rw [List.take_of_length_le (by omega)] at loaded
    refine ⟨?_, few⟩
    cases read : (db.players.map fun row => (row.tokenHash, row.id)).mapM identityEntry with
    | error failure =>
        simp only [read] at loaded
        cases loaded
    | ok entries =>
        simp only [read] at loaded
        cases loaded
        rw [mapM_identityEntry read, List.foldl_map]
        rfl

end Index

/-! The invariant. -/
section Registration
variable {F : Type} [Platform F] {boot : Nat} {server after : Server F} {peer : PeerId} {moment : Moment}
  {identityHash name : String} {ip : IpAddr} {row : PlayerRow} {db : Db F}

/-- The server's memory of the table, which held `boot` rows when the server started. -/
structure Registered (boot : Nat) (server : Server F) : Prop where
  formed : WellFormed server.db
  index : server.identityPlayers = indexOf server.db
  rows : server.db.players.length ≤ max boot server.cfg.maxPlayerRowsU32.toNat
  budget : server.reconnectLimiter.maxKeys = max boot server.cfg.maxPlayerRowsU32.toNat
  keys : ∀ player ∈ server.reconnectLimiter.last.keys, HasRow server.db player

theorem Registered.of_same (registered : Registered boot server) (same : SameIdentities server.db after.db)
    (index : after.identityPlayers = server.identityPlayers)
    (limiter : after.reconnectLimiter = server.reconnectLimiter) (cfg : after.cfg = server.cfg) :
    Registered boot after where
  formed := same.wellFormed registered.formed
  index := by rw [index, registered.index, SameIdentities.indexOf same]
  rows := by
    rw [same.length_eq, cfg]
    exact registered.rows
  budget := by
    rw [limiter, cfg]
    exact registered.budget
  keys := by
    rw [limiter]
    exact fun player member => SameIdentities.hasRow same (registered.keys player member)

/-- Charging a player that has a row. -/
theorem Registered.recharged (registered : Registered boot server) {player : UInt64}
    (known : HasRow server.db player) (now : Int64) :
    Registered boot { server with reconnectLimiter := (server.reconnectLimiter.allow player now).1 } := by
  obtain ⟨keys, budget⟩ := bounded_keys_allow server.reconnectLimiter player now
  refine ⟨registered.formed, registered.index, registered.rows, budget.trans registered.budget, ?_⟩
  intro other member
  rcases keys other member with rfl | earlier
  · exact known
  · exact registered.keys other earlier

theorem Registered.hasRow (registered : Registered boot server) {hash : String} {player : UInt64}
    (known : server.identityPlayers.get? hash = some player) : HasRow server.db player := by
  rw [registered.index] at known
  obtain ⟨row, member, -, rfl⟩ := (indexOf_get registered.formed hash player).mp known
  exact ⟨row, member, (Int64.toInt64_toUInt64 row.id).symm⟩

theorem Registered.charged (registered : Registered boot server) (moment : Moment) (peer : PeerId) (ip : IpAddr)
    (identityHash : String) : Registered boot (identityCharged server moment peer ip identityHash) := by
  have sourced : Registered boot (sourceCharged server moment peer ip) :=
    registered.of_same (.refl _) rfl rfl rfl
  unfold identityCharged
  split <;> rename_i known
  · exact sourced.recharged (registered.hasRow known) moment.admissionMs
  · exact sourced.of_same (.refl _) rfl rfl rfl

theorem Registered.charges (registered : Registered boot server) {hello : ClientHello} {charged : Server F}
    (charges : Charges server moment peer hello charged) : Registered boot charged := by
  cases charges with
  | hello => exact registered.of_same (.refl _) rfl rfl rfl
  | source presented => exact registered.of_same (.refl _) rfl rfl rfl
  | identity presented fresh => exact registered.charged moment _ _ _

/-- What the table did with an admitted hello, read through the index. -/
inductive Recorded (server : Server F) (identityHash : String) (row : PlayerRow) (db : Db F) : Prop
  | returning (known : server.identityPlayers.get? identityHash = some row.id.toUInt64)
      (same : SameIdentities server.db db)
  | newcomer (unknown : server.identityPlayers.get? identityHash = none)
      (grown : identities db = identities server.db ++ [(identityHash, row.id)])
      (room : server.db.players.length < server.cfg.maxPlayerRowsU32.toNat)

theorem Registered.recorded (registered : Registered boot server)
    (admitted : Admitted server.db identityHash name moment.persistenceMs server.cfg.maxPlayerRowsU32
      (.admitted row) db) : Recorded server identityHash row db ∧ 0 < row.id := by
  have formed := registered.formed
  cases admitted with
  | @returning old member own =>
      refine ⟨.returning ?_ (.updatePlayer _ _ _ fun _ => rfl), formed.positive old member⟩
      rw [registered.index]
      exact (indexOf_get formed _ _).mpr ⟨old, member, own, rfl⟩
  | @newcomer id unknown room next =>
      refine ⟨.newcomer ?_ ?_ room, (next_id formed next).1⟩
      · rw [registered.index]
        exact (indexOf_none formed _).mpr unknown
      · simp [identities, identityOf]

omit [Platform F] in
theorem maxPlayerRowsU32_le (cfg : Config F) : cfg.maxPlayerRowsU32.toNat ≤ maxPlayerRowsCeiling := by
  simp only [Config.maxPlayerRowsU32, clampNat, maxPlayerRowsCeiling, UInt32.toNat_ofNat']
  omega

/-- The index never contradicts the table. -/
theorem Registered.no_fault (registered : Registered boot server) {failure : ServerError}
    (admitted : Admitted server.db identityHash name moment.persistenceMs server.cfg.maxPlayerRowsU32
      (.admitted row) db) : ¬ Fault server identityHash row failure := by
  obtain ⟨recorded, positive⟩ := registered.recorded admitted
  intro fault
  cases fault with
  | negative below => exact lt_asymm below positive
  | disagrees known other =>
      cases recorded with
      | returning own same =>
          rw [own, Option.some.injEq] at known
          exact other known
      | newcomer unknown grown room =>
          rw [unknown] at known
          cases known
  | full unknown crowded =>
      cases recorded with
      | returning own same =>
          rw [unknown] at own
          cases own
      | newcomer _ grown room =>
          rw [registered.index, indexOf_size registered.formed] at crowded
          have ceiling := maxPlayerRowsU32_le server.cfg.toConfig
          omega

theorem Registered.enrolled (registered : Registered boot server)
    (admitted : Admitted server.db identityHash name moment.persistenceMs server.cfg.maxPlayerRowsU32
      (.admitted row) db) :
    Registered boot (enrolled server moment peer ip identityHash row.id.toUInt64 db) := by
  have charged := registered.charged moment peer ip identityHash
  have frame := identityCharged_frame server moment peer ip identityHash
  have tables : (identityCharged server moment peer ip identityHash).db = server.db := (congrArg Server.db frame :)
  have settings : (identityCharged server moment peer ip identityHash).cfg = server.cfg :=
    (congrArg Server.cfg frame :)
  obtain ⟨recorded, -⟩ := registered.recorded admitted
  have formed : WellFormed db := admitted.wellFormed registered.formed
  unfold Effects.enrolled
  cases recorded with
  | returning known same =>
      simp only [known]
      exact charged.of_same (tables ▸ same) rfl rfl rfl
  | newcomer unknown grown room =>
      simp only [unknown]
      obtain ⟨keys, budget⟩ := bounded_keys_allow server.reconnectLimiter row.id.toUInt64 moment.admissionMs
      have longer : db.players.length = server.db.players.length + 1 := by
        simpa [identities] using congrArg List.length grown
      refine ⟨formed, ?_, ?_, budget.trans ?_, ?_⟩
      · rw [registered.index, indexOf, indexOf, grown, List.foldl_append]
        rfl
      · show db.players.length ≤
          max boot (identityCharged server moment peer ip identityHash).cfg.maxPlayerRowsU32.toNat
        rw [settings]
        omega
      · show _ = max boot (identityCharged server moment peer ip identityHash).cfg.maxPlayerRowsU32.toNat
        rw [settings]
        exact registered.budget
      · intro player member
        rcases keys player member with rfl | earlier
        · exact (Admitted.hasRow admitted).2
        · exact (Admitted.hasRow admitted).1 player (registered.keys player earlier)

/-- `allow` finds the key or a free place for it, so it neither evicts nor refuses for lack of room. -/
def HasRoom (limiter : BoundedRateLimiter UInt64) (key : UInt64) : Prop :=
  key ∈ limiter.last.keys ∨ limiter.last.size < limiter.maxKeys

theorem Registered.keys_ids (registered : Registered boot server) :
    server.reconnectLimiter.last.keys ⊆ (server.db.players.map fun row => row.id.toUInt64).toFinset := by
  intro player member
  obtain ⟨row, present, own⟩ := registered.keys player member
  exact List.mem_toFinset.mpr (List.mem_map.mpr ⟨row, present, by rw [own, UInt64.toUInt64_toInt64]⟩)

theorem Registered.room_known (registered : Registered boot server) {player : UInt64}
    (known : HasRow server.db player) : HasRoom server.reconnectLimiter player := by
  by_cases held : player ∈ server.reconnectLimiter.last.keys
  · exact Or.inl held
  · right
    obtain ⟨row, present, own⟩ := known
    have listed : player ∈ (server.db.players.map fun row => row.id.toUInt64).toFinset :=
      List.mem_toFinset.mpr (List.mem_map.mpr ⟨row, present, by rw [own, UInt64.toUInt64_toInt64]⟩)
    have counted := Finset.card_le_card (Finset.insert_subset listed registered.keys_ids)
    rw [Finset.card_insert_of_notMem held] at counted
    have few : (server.db.players.map fun row => row.id.toUInt64).toFinset.card ≤ server.db.players.length :=
      (List.toFinset_card_le _).trans (List.length_map _).le
    rw [registered.budget]
    exact lt_of_lt_of_le (Nat.lt_of_succ_le counted) (few.trans registered.rows)

theorem Registered.room_new (registered : Registered boot server)
    (room : server.db.players.length < server.cfg.maxPlayerRowsU32.toNat) (player : UInt64) :
    HasRoom server.reconnectLimiter player := by
  right
  have few : (server.db.players.map fun row => row.id.toUInt64).toFinset.card ≤ server.db.players.length :=
    (List.toFinset_card_le _).trans (List.length_map _).le
  have counted := (Finset.card_le_card registered.keys_ids).trans few
  rw [registered.budget]
  exact lt_of_le_of_lt counted (lt_of_lt_of_le room (le_max_right _ _))

theorem Registered.hello (registered : Registered boot server) {hello : ClientHello}
    {result : Except ServerError Unit} (effect : HelloEffect server moment peer hello (after, result)) :
    Registered boot after := by
  cases effect with
  | silent charges storage => exact registered.charges charges
  | answered charges other => exact (registered.charges charges).of_same (.refl _) rfl rfl rfl
  | full gated unknown crowded => exact (registered.charged moment _ _ _).of_same (.refl _) rfl rfl rfl
  | faulted gated admitted fault => exact absurd fault (registered.no_fault admitted)
  | repeated found greets => exact registered.of_same (.refl _) rfl rfl rfl
  | @joined identityHash name ip row db middle numbered generation reply gated admitted consistent superseded
      numbering greets =>
      have frame := entered_frame peer
        (withGeneration generation (firstSession server row.id.toUInt64 identityHash name)) reply superseded numbering
      have tables := (congrArg Server.db frame :)
      refine (registered.enrolled admitted).of_same ?_ (congrArg Server.identityPlayers frame :)
        (congrArg Server.reconnectLimiter frame :) (congrArg Server.cfg frame :)
      exact ⟨congrArg identities tables, congrArg Db.playerSequence tables⟩

theorem Registered.effect [Codec F] (registered : Registered boot server) {event : Event}
    (effect : Effect server moment event after) : Registered boot after := by
  cases effect with
  | ignored other => exact registered
  | request found effect =>
      cases effect with
      | served served =>
          exact registered.of_same served.identities (congrArg Server.identityPlayers served.frame :)
            (congrArg Server.reconnectLimiter served.frame :) (congrArg Server.cfg served.frame :)
      | moved motion state cell placed => exact registered.of_same (.refl _) rfl rfl rfl
      | spoke here about captured => exact registered.of_same (.refl _) rfl rfl rfl
  | hello decoded effect => exact registered.hello effect
  | absent vacant => exact registered.of_same (.refl _) rfl rfl rfl
  | persisted found stored => exact registered.of_same (.touchLastSeen _ _ _) rfl rfl rfl
  | unpersisted found failing => exact registered.of_same (.refl _) rfl rfl rfl

end Registration

/-! Runs. -/
section Runs
variable {F : Type} [Platform F] [Codec F] {db : Db F} {server : Server F} {pending : List Event}

/-- The fields that decide admissions and throttles, none of which the ticks touch. -/
def gateView (server : Server F) :=
  (server.cfg, server.host, server.identityPlayers, server.helloLimiter, server.sourceSessionLimiter,
    server.reconnectLimiter, server.newSessionLimiter, playerKeys server)

theorem tick_gates (server : Server F) (tick : Tick) :
    gateView (tick.run server) = gateView server ∧ SameIdentities server.db (tick.run server).db := by
  have kept : ∀ {after : Server F}, after.db = server.db → SameIdentities server.db after.db := by
    intro after same
    rw [same]
    exact .refl _
  cases tick with
  | aoi fails =>
      have frame := (processAoiWork_effect server fails).frame
      exact ⟨(congrArg gateView frame :), kept (congrArg Server.db frame :)⟩
  | snapshots =>
      have frame := (broadcastSnapshots_effect server).frame
      exact ⟨(congrArg gateView frame :), kept (congrArg Server.db frame :)⟩
  | fanout =>
      have frame := (processFanoutWork_run server).frame
      exact ⟨(congrArg gateView frame :), kept (congrArg Server.db frame :)⟩
  | dirtyFlush fails now =>
      have effect := processDirtyFlushAt_effect server fails now
      exact ⟨(congrArg gateView effect.frame :), effect.identities⟩
  | beginFlush => exact ⟨rfl, .refl _⟩
  | clock clockMs =>
      have frame := broadcastClock_frame server clockMs
      exact ⟨(congrArg gateView frame :), kept (congrArg Server.db frame :)⟩

theorem reachable_registered (formed : WellFormed db) (reached : Reachable db server pending) :
    Registered db.players.length server := by
  induction reached with
  | start opened =>
      obtain ⟨identityPlayers, loaded, rfl⟩ := new_opened opened
      obtain ⟨rfl, -⟩ := loadIdentityPlayers_eq loaded
      refine ⟨formed, rfl, le_max_left _ _, ?_, ?_⟩
      · show max (indexOf db).size _ = _
        rw [indexOf_size formed]
        rfl
      · simp [Server.opened]
  | poll now script _ polled ih => exact ih.of_same (.refl _) rfl rfl rfl
  | handle moment reached ih => exact ih.effect (handleEvent_effect reached.inv moment _)
  | @tick server pending tick _ ih =>
      obtain ⟨gates, identities⟩ := tick_gates server tick
      simp only [gateView, Prod.mk.injEq] at gates
      exact ih.of_same identities gates.2.2.1 gates.2.2.2.2.2.1 gates.1

end Runs

/-! What a hello of a known identity can meet. -/
section Answers
variable {F : Type} [Platform F] {boot : Nat} {server after : Server F} {peer : PeerId} {moment : Moment}
  {hello : ClientHello} {result : Except ServerError Unit} {token name : String}

def Refuses (reason : String) (message : ServerMessage F) : Prop :=
  ∃ reply, message = .serverHello reply ∧ reply.accepted = false ∧ reply.reason = reason

/-- A hello's strings name its identity. -/
theorem Presented.hash_eq {identityHash other : String} {ip : IpAddr}
    (presented : Presented server peer hello identityHash other ip)
    (read : validateHello server.cfg.maxWireStringLenUsize hello = .ok (token, name)) :
    identityHash = tokenHash token := by
  obtain ⟨same, again, rfl⟩ := presented.read
  rw [read, Except.ok.injEq, Prod.mk.injEq] at again
  rw [again.1]

theorem identityCharged_known {identityHash : String} {ip : IpAddr} {player : UInt64}
    (known : server.identityPlayers.get? identityHash = some player) :
    (identityCharged server moment peer ip identityHash).newSessionLimiter = server.newSessionLimiter := by
  unfold identityCharged
  rw [known]
  rfl

theorem enrolled_known {identityHash : String} {ip : IpAddr} {player id : UInt64} {db : Db F}
    (known : server.identityPlayers.get? identityHash = some player) :
    (Effects.enrolled server moment peer ip identityHash id db).newSessionLimiter = server.newSessionLimiter := by
  unfold Effects.enrolled
  simp only [known]
  exact identityCharged_known known

theorem Charges.newSessionLimiter {charged : Server F} (charges : Charges server moment peer hello charged)
    (read : validateHello server.cfg.maxWireStringLenUsize hello = .ok (token, name)) {player : UInt64}
    (known : server.identityPlayers.get? (tokenHash token) = some player) :
    charged.newSessionLimiter = server.newSessionLimiter := by
  cases charges with
  | hello => rfl
  | source presented => rfl
  | identity presented fresh =>
      rw [Presented.hash_eq presented read]
      exact identityCharged_known known

theorem charges_sent {charged : Server F} (charges : Charges server moment peer hello charged) :
    charged.sent = server.sent := (charged_calm charges).2

/-- An identity with a row is held to the reconnect gate alone and never told that the server is full. -/
theorem Registered.known_served (registered : Registered boot server)
    (read : validateHello server.cfg.maxWireStringLenUsize hello = .ok (token, name))
    (present : HasIdentity server.db (tokenHash token))
    (effect : HelloEffect server moment peer hello (after, result)) :
    after.newSessionLimiter = server.newSessionLimiter ∧
      ∃ posts, after.sent = server.sent ++ posts ∧ ∀ post ∈ posts, ¬ Refuses capacityReason post.2.payload := by
  obtain ⟨row, member, own⟩ := present
  have known : server.identityPlayers.get? (tokenHash token) = some row.id.toUInt64 := by
    rw [registered.index]
    exact (indexOf_get registered.formed _ _).mpr ⟨row, member, own, rfl⟩
  cases effect with
  | silent charges storage =>
      exact ⟨Charges.newSessionLimiter charges read known, [], by simpa using charges_sent charges, by simp⟩
  | @answered charged reason charges other =>
      have gate := Charges.newSessionLimiter charges read known
      refine ⟨gate, _, congrArg (· ++ _) (charges_sent charges), ?_⟩
      rintro post same ⟨reply, shown, -, told⟩
      cases List.mem_singleton.mp same
      cases shown
      exact other told
  | full gated unknown crowded =>
      rw [Presented.hash_eq gated.presented read] at unknown
      exact absurd ⟨row, member, own⟩ unknown
  | faulted gated admitted fault => exact absurd fault (registered.no_fault admitted)
  | @repeated session reply found greets =>
      refine ⟨rfl, _, rfl, ?_⟩
      rintro post same ⟨told, shown, refused, -⟩
      cases List.mem_singleton.mp same
      cases shown
      rw [greets.accepted] at refused
      cases refused
  | @joined identityHash name ip row db middle numbered generation reply gated admitted consistent superseded
      numbering greets =>
      have hash := Presented.hash_eq gated.presented read
      subst hash
      have frame := entered_frame peer (withGeneration generation
        (firstSession server row.id.toUInt64 (tokenHash token) name)) reply superseded numbering
      have sent := entered_sent peer (withGeneration generation
        (firstSession server row.id.toUInt64 (tokenHash token) name)) reply superseded numbering
      rw [(enrolled_calm server moment peer ip (tokenHash token) row.id.toUInt64 db).2] at sent
      refine ⟨(congrArg Server.newSessionLimiter frame :).trans (enrolled_known known), _, sent, ?_⟩
      · rintro post same ⟨told, shown, refused, -⟩
        cases List.mem_singleton.mp same
        cases shown
        rw [greets.accepted] at refused
        cases refused

variable [Codec F] {db : Db F} {pending : List Event}

/-- Memory and disk stay in step: the index is the table's, the table stays within its bounds, no
admission contradicts the index, known identities never meet the gate or the ceiling for newcomers,
and the reconnect throttle never runs out of room. -/
theorem identity_index_in_step (formed : WellFormed db) (reached : Reachable db server pending) :
    (∀ hash player, server.identityPlayers.get? hash = some player ↔
      ∃ row ∈ server.db.players, row.tokenHash = hash ∧ row.id.toUInt64 = player) ∧
    server.db.players.length ≤ max db.players.length server.cfg.maxPlayerRowsU32.toNat ∧
    (∀ moment peer hello, (server.onHelloAt moment peer hello).2 ≠ .error .identityIndexDisagrees ∧
      (server.onHelloAt moment peer hello).2 ≠ .error .identityIndexFull) ∧
    (∀ moment peer hello token name,
      validateHello server.cfg.maxWireStringLenUsize hello = .ok (token, name) →
      HasIdentity server.db (tokenHash token) →
      (server.onHelloAt moment peer hello).1.newSessionLimiter = server.newSessionLimiter ∧
        ∃ posts, (server.onHelloAt moment peer hello).1.sent = server.sent ++ posts ∧
          ∀ post ∈ posts, ¬ Refuses capacityReason post.2.payload) ∧
    (∀ hash player, server.identityPlayers.get? hash = some player → HasRoom server.reconnectLimiter player) ∧
    (∀ hash name now row after, server.identityPlayers.get? hash = none →
      server.db.admitPlayerByToken hash name now server.cfg.maxPlayerRowsU32 = .ok (.admitted row, after) →
      HasRoom server.reconnectLimiter row.id.toUInt64) := by
  have registered := reachable_registered formed reached
  refine ⟨?_, registered.rows, ?_, ?_, ?_, ?_⟩
  · intro hash player
    rw [registered.index]
    exact indexOf_get registered.formed hash player
  · intro moment peer hello
    have effect : HelloEffect server moment peer hello _ := onHelloAt_effect reached.inv moment hello
    generalize server.onHelloAt moment peer hello = handled at effect
    cases effect with
    | silent charges storage =>
        constructor <;> intro failed
        all_goals
          obtain ⟨cause, impossible⟩ := storage _ failed
          cases impossible
    | faulted gated admitted fault => exact absurd fault (registered.no_fault admitted)
    | _ => simp
  · intro moment peer hello token name read present
    exact registered.known_served read present (onHelloAt_effect reached.inv moment hello)
  · intro hash player known
    exact registered.room_known (registered.hasRow known)
  · intro hash name now row after unknown done
    rw [registered.index, indexOf_none registered.formed] at unknown
    cases admitPlayerByToken_spec done with
    | returning member own => exact absurd ⟨_, member, own⟩ unknown
    | newcomer _ room next => exact registered.room_new room _

end Answers

theorem wellFormed_emptyDb : WellFormed emptyDb :=
  ⟨List.nodup_nil, List.nodup_nil, by simp [emptyDb], by simp [emptyDb], by decide⟩

/-- The first of two newcomers to an empty table. -/
theorem identity_index_in_step_joined :
    (∃ row ∈ joinedServer.db.players, row.tokenHash = tokenHash "first" ∧ row.id.toUInt64 = 1) ∧
      joinedServer.db.players.length ≤ 10000 ∧ HasRoom joinedServer.reconnectLimiter 1 := by
  obtain ⟨index, rows, -, -, room, -⟩ := identity_index_in_step wellFormed_emptyDb joinedServer_reached
  have listed : joinedServer.identityPlayers.get? (tokenHash "first") = some 1 := by decide +kernel
  have ceiling : joinedServer.cfg.maxPlayerRowsU32 = 10000 := by decide +kernel
  rw [ceiling] at rows
  exact ⟨(index _ _).mp listed, rows, room _ _ listed⟩

end SailwindOnline.Enrolment
