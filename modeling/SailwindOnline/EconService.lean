import SailwindOnline.Books
import SailwindOnline.MarketRefinement

/-!
The economy as clients see it: ledger transactions and market trades handled in
any order, from any peers, at any times and with any disk failures. A reply is
what one handler call hands to the transport, without its sequence number.
-/

namespace SailwindOnline.EconService
open MachineInt Persistence Ledger EconStore Server SessionRuns Books LedgerRefinement

inductive Message where
  | econ (txn : EconTxn)
  | trade (request : MarketTradeRequest)
deriving DecidableEq

structure Request where
  peer : PeerId
  moment : Moment
  message : Message

section Service
variable {F : Type} [Platform F]

def handle (server : Server F) (request : Request) : Handled F :=
  match request.message with
  | .econ txn => server.onEcon request.moment request.peer txn
  | .trade trade => server.onTrade request.moment request.peer trade

def replies (before after : Server F) : List (PeerId × ServerMessage F) :=
  (after.sent.drop before.sent.length).map fun datagram => (datagram.1, datagram.2.payload)

def serve (server : Server F) (request : Request) : List (PeerId × ServerMessage F) × Server F :=
  (replies server (handle server request).1, (handle server request).1)

theorem replies_of_sent_eq {before after : Server F} (same : after.sent = before.sent) :
    replies before after = [] := by
  simp [replies, same]

theorem replies_post {before middle : Server F} (same : middle.sent = before.sent) (peer : PeerId)
    (payload : ServerMessage F) : replies before (middle.post peer payload) = [(peer, payload)] := by
  simp [replies, post, same]

def txnOf (txn : EconTxn) : Txn :=
  { txnId := txn.txnId, amountGold := txn.amountGold, kind := txn.kind, note := txn.note.getD "" }

/-- The sender has a session, the note passes its check and the disk answers both lookups. -/
structure Heard (server : Server F) (peer : PeerId) (moment : Moment) (txn : EconTxn)
    (session : Session F) : Prop where
  session : server.sessions.get? peer = some session
  note : stringWithinLimit (txnOf txn).note server.cfg.maxWireStringLenUsize = true
  looked : moment.fails 0 = false
  reread : moment.fails 1 = false

/-- A ledger application either fails without a trace or is the application over a healthy disk. -/
theorem applyEcon_cases (server : Server F) (moment : Moment) (peer : PeerId) (player : UInt64) (txn : Txn) :
    ((server.applyEcon moment peer player txn).1 = server) ∨
    ∃ ack db, moment.fails 1 = false ∧
      dbServe server.db ⟨player, txn, moment.persistenceMs⟩ = (.ok ack, db) ∧
      (server.applyEcon moment peer player txn).1 = ({ server with db }).post peer (.ledgerAck ack) := by
  unfold applyEcon
  cases applied : ledgerApply (storeFaults moment) moment.persistenceMs server.db player txn with
  | mk result db =>
    cases result with
    | error failure =>
        left
        have kept : db = server.db := by
          unfold ledgerApply at applied
          split at applied
          · cases applied
          · exact (congrArg Prod.snd applied).symm
        rw [kept]
    | ok ack =>
        right
        refine ⟨ack, db, ?_, ?_, rfl⟩
        · by_contra broken
          have failing : moment.fails 1 = true := by simpa using broken
          simp [ledgerApply, Ledger.apply, LedgerStore.lookupTxn, storeFaults, failing, attempt] at applied
        · rcases ledgerApply_faults (storeFaults moment) moment.persistenceMs server.db player txn with
            failed | served
          · rw [failed] at applied
            cases applied
          · rw [served] at applied
            exact applied

/-- What one ledger request can do: nothing is answered and no table changes, or it is heard
and answered as the ledger over a healthy disk answers it. -/
theorem onEcon_cases (server : Server F) (moment : Moment) (peer : PeerId) (txn : EconTxn) :
    (replies server (server.onEcon moment peer txn).1 = [] ∧
      (server.onEcon moment peer txn).1.db = server.db) ∨
    ∃ session ack, Heard server peer moment txn session ∧
      dbServe server.db ⟨session.playerId, txnOf txn, moment.persistenceMs⟩ =
        (.ok ack, (server.onEcon moment peer txn).1.db) ∧
      replies server (server.onEcon moment peer txn).1 = [(peer, .ledgerAck ack)] := by
  unfold onEcon
  cases found : server.sessions.get? peer with
  | none => exact Or.inl ⟨replies_of_sent_eq rfl, rfl⟩
  | some session =>
      simp only
      by_cases fits : stringWithinLimit (txn.note.getD "") server.cfg.maxWireStringLenUsize = true
      swap
      · rw [if_pos (by simpa using fits)]
        exact Or.inl ⟨replies_of_sent_eq rfl, rfl⟩
      rw [if_neg (by simpa using fits)]
      cases broken : moment.fails 0 with
      | true => exact Or.inl ⟨replies_of_sent_eq rfl, rfl⟩
      | false =>
          -- Admitted or exempt from the limiter, the request is applied in the same way.
          have applied : ∀ limiter,
              let charged : Server F := { server with econLimiter := limiter }
              let after := (charged.applyEcon moment peer session.playerId (txnOf txn)).1
              (replies server after = [] ∧ after.db = server.db) ∨
              ∃ session ack, Heard server peer moment txn session ∧
                dbServe server.db ⟨session.playerId, txnOf txn, moment.persistenceMs⟩ = (.ok ack, after.db) ∧
                replies server after = [(peer, .ledgerAck ack)] := by
            intro limiter
            simp only
            rcases applyEcon_cases { server with econLimiter := limiter } moment peer session.playerId
              (txnOf txn) with kept | ⟨ack, db, reread, served, after⟩
            · rw [kept]
              exact Or.inl ⟨replies_of_sent_eq rfl, rfl⟩
            · rw [after]
              exact Or.inr ⟨session, ack, ⟨found, fits, broken, reread⟩, served, replies_post rfl peer _⟩
          simp only [attempt, Bool.false_eq_true, if_false]
          split
          · rename_i impossible
            cases impossible
          · exact applied server.econLimiter
          · split
            · exact applied _
            · exact Or.inl ⟨replies_of_sent_eq rfl, rfl⟩

omit [Platform F] in
theorem lookup_committed {db : Db F} (kept : Kept db) {txnId : UInt64}
    (committed : ∃ row ∈ db.ledger, row.txnId = txnId.toInt64) :
    ∃ recorded, db.lookupTxn txnId.toInt64 = some recorded := by
  rcases lookup_represents _ db _ kept.represents txnId with ⟨fresh, -⟩ | ⟨entry, -, -, found⟩
  · obtain ⟨row, member, same⟩ := committed
    have absent := (Journal.not_recorded_iff _ _).mp fresh (rowEntry row) (List.mem_map_of_mem member)
    exact absurd ((toUInt64_eq_iff _ _).mpr same) absent
  · exact ⟨_, found⟩

def replayReason : String := "duplicate (idempotent replay)"

/-- A committed transaction is answered without touching a table or a limiter. -/
theorem onEcon_committed (server : Server F) (kept : Kept server.db) (moment : Moment) (peer : PeerId)
    (txn : EconTxn) (committed : ∃ row ∈ server.db.ledger, row.txnId = txn.txnId.toInt64) :
    ((server.onEcon moment peer txn).1 = server ∧ ∀ session, ¬ Heard server peer moment txn session) ∨
    ∃ session ack, Heard server peer moment txn session ∧ ack.accepted = true ∧
      ack.reason = replayReason ∧ (server.onEcon moment peer txn).1 = server.post peer (.ledgerAck ack) := by
  obtain ⟨recorded, found⟩ := lookup_committed kept committed
  unfold onEcon
  cases known : server.sessions.get? peer with
  | none =>
      refine Or.inl ⟨rfl, fun session heard => ?_⟩
      have impossible := heard.session
      rw [known] at impossible
      cases impossible
  | some session =>
      simp only
      by_cases fits : stringWithinLimit (txn.note.getD "") server.cfg.maxWireStringLenUsize = true
      swap
      · rw [if_pos (by simpa using fits)]
        exact Or.inl ⟨rfl, fun _ heard => fits heard.note⟩
      rw [if_neg (by simpa using fits), found]
      cases first : moment.fails 0 with
      | true => exact Or.inl ⟨rfl, fun _ heard => absurd heard.looked (by simp [first])⟩
      | false =>
          cases second : moment.fails 1 with
          | true =>
              refine Or.inl ⟨?_, fun _ heard => absurd heard.reread (by simp [second])⟩
              simp [attempt, applyEcon, ledgerApply, Ledger.apply, LedgerStore.lookupTxn, storeFaults, second]
          | false =>
              refine Or.inr ⟨session, ⟨txn.txnId, true, recorded.2, replayReason⟩,
                ⟨known, fits, first, second⟩, rfl, rfl, ?_⟩
              simp [attempt, applyEcon, ledgerApply, Ledger.apply, LedgerStore.lookupTxn, storeFaults,
                second, found, replayReason]

theorem handle_booked {server : Server F} (booked : Booked server) (request : Request) :
    Booked (serve server request).2 := by
  rcases request with ⟨peer, moment, txn | trade⟩
  · exact booked_onEcon booked moment peer txn
  · exact booked_onTrade booked moment peer trade

theorem run_booked {server : Server F} (booked : Booked server) (requests : List Request) :
    Booked (Runs.final serve server requests) :=
  Runs.invariant_always serve Booked (fun _ request holds => handle_booked holds request) requests server booked

end Service

/-! Whose transaction an answer is about. -/
section Ownership
variable {F : Type}

def ledgerAcks (replied : List (PeerId × ServerMessage F)) : List (PeerId × LedgerAck) :=
  replied.filterMap fun reply =>
    match reply.2 with
    | .ledgerAck ack => some (reply.1, ack)
    | _ => none

theorem ledgerAcks_single (peer : PeerId) (ack : LedgerAck) :
    ledgerAcks [(peer, (.ledgerAck ack : ServerMessage F))] = [(peer, ack)] := rfl

variable [Platform F]

/-- An accepted transaction is in the log under its sender, and the balance is the sender's. -/
def AnswersOwner (server : Server F) (request : Request) : Prop :=
  ∀ txn session ack, request.message = .econ txn → server.sessions.get? request.peer = some session →
    (request.peer, ack) ∈ ledgerAcks (serve server request).1 → ack.accepted = true →
    (∃ row ∈ (serve server request).2.db.ledger,
      row.txnId = txn.txnId.toInt64 ∧ row.playerId = session.playerId.toInt64) ∧
    ack.newBalance.toInt = ledgerGold (serve server request).2.db.ledger session.playerId

def Request.txn (request : Request) : Option EconTxn :=
  match request.message with
  | .econ txn => some txn
  | .trade _ => none

/-- A heard request does not carry the id of another player's committed transaction. -/
def Unclaimed (server : Server F) (request : Request) : Prop :=
  ∀ txn session, request.message = .econ txn →
    Heard server request.peer request.moment txn session →
    ∀ row ∈ server.db.ledger, row.txnId = txn.txnId.toInt64 → row.playerId = session.playerId.toInt64

omit [Platform F] in
theorem gold_of_kept {db : Db F} (kept : Kept db) (player : PlayerId) :
    (db.playerBalance player.toInt64).toInt = ledgerGold db.ledger player :=
  (kept.represents.balances player trivial).trans (db_total _ _ _ kept.represents player)

theorem answersOwner_of_unclaimed {server : Server F} (booked : Booked server) {request : Request}
    (unclaimed : Unclaimed server request) : AnswersOwner server request := by
  rcases request with ⟨peer, moment, txn | trade⟩
  swap
  · rintro txn session ack ⟨⟩
  rintro txn session ack ⟨⟩ found answered accepted
  have kept : Kept (serve server ⟨peer, moment, .econ txn⟩).2.db := (handle_booked booked _).kept
  simp only [serve, handle] at answered kept ⊢
  rcases onEcon_cases server moment peer txn with ⟨silent, -⟩ | ⟨sender, given, heard, served, replied⟩
  · rw [silent] at answered
    simp [ledgerAcks] at answered
  rw [replied, ledgerAcks_single, List.mem_singleton, Prod.mk.injEq] at answered
  obtain ⟨-, rfl⟩ := answered
  have same : session = sender := Option.some.inj (found.symm.trans heard.session)
  subst same
  rcases dbServe_cases _ server.db _ ⟨session.playerId, txnOf txn, moment.persistenceMs⟩
      booked.kept.represents booked.kept.sound trivial with
    ⟨entry, member, id, -, answer⟩ | ⟨newBalance, -, -, -, verdict, answer⟩ | ⟨-, -, refused, answer⟩
  -- A replay answers the owner of the recorded row, and the condition makes that the sender.
  all_goals rw [served] at answer
  · obtain ⟨row, inside, rfl⟩ := List.mem_map.mp member
    have key : row.txnId = txn.txnId.toInt64 := (toUInt64_eq_iff _ _).mp id
    have owner := unclaimed txn session rfl heard row inside key
    obtain ⟨answer, tables⟩ := Prod.mk.inj answer
    rw [tables] at kept ⊢
    refine ⟨⟨row, inside, key, owner⟩, ?_⟩
    rw [← gold_of_kept kept, Except.ok.inj answer]
    show (server.db.playerBalance row.playerId).toInt = _
    rw [owner]
  · obtain ⟨answer, tables⟩ := Prod.mk.inj answer
    rw [tables] at kept ⊢
    refine ⟨⟨ledgerRow session.playerId (txnOf txn) moment.persistenceMs, by simp [committedDb], rfl, rfl⟩, ?_⟩
    rw [← gold_of_kept kept, Except.ok.inj answer, verdict]
    rw [balance_committedDb server.db (ledgerRow session.playerId (txnOf txn) moment.persistenceMs) newBalance
      _ (booked.rows peer session found)]
    simp [ledgerRow]
  · rw [Except.ok.inj (Prod.mk.inj answer).1, refused] at accepted
    cases accepted

theorem unclaimed_of_answersOwner {server : Server F} (booked : Booked server) {request : Request}
    (answers : AnswersOwner server request) : Unclaimed server request := by
  rcases request with ⟨peer, moment, txn | trade⟩
  swap
  · rintro txn session ⟨⟩
  rintro txn session ⟨⟩ heard row inside key
  rcases onEcon_committed server booked.kept moment peer txn ⟨row, inside, key⟩ with
    ⟨-, unheard⟩ | ⟨_, ack, -, accepted, -, after⟩
  · exact absurd heard (unheard session)
  have replied : (serve server ⟨peer, moment, .econ txn⟩).1 = [(peer, .ledgerAck ack)] := by
    simp only [serve, handle, after]
    exact replies_post rfl peer _
  have listed : (peer, ack) ∈ ledgerAcks (serve server ⟨peer, moment, .econ txn⟩).1 := by
    rw [replied, ledgerAcks_single]
    exact List.mem_singleton_self _
  obtain ⟨⟨own, member, id, owner⟩, -⟩ := answers txn session ack rfl heard.session listed accepted
  simp only [serve, handle, after] at member
  -- Ids are unique, so the sender's row is the row of the id.
  have twin : rowEntry own = rowEntry row := by
    refine List.inj_on_of_nodup_map booked.kept.sound.unique (List.mem_map_of_mem member)
      (List.mem_map_of_mem inside) ?_
    simp only [rowEntry, id, key]
  have players : own.playerId = row.playerId :=
    (toUInt64_eq_iff _ _).mp (congrArg Journal.Entry.account twin)
  exact players.symm.trans owner

/-- In every run of requests on a reachable server, each accepted answer is about its sender's own
transaction and balance exactly when no heard request reuses another player's committed id. -/
theorem econ_answers_owner_iff [Codec F] {db : Db F} {server : Server F} {pending : List Event}
    (kept : Kept db) (reached : Reachable db server pending) (requests : List Request) :
    (∀ before request after, requests = before ++ request :: after →
      AnswersOwner (Runs.final serve server before) request) ↔
    ∀ before request after, requests = before ++ request :: after →
      Unclaimed (Runs.final serve server before) request := by
  have booked := fun before => run_booked (reachable_booked kept reached) before
  constructor
  · intro answers before request after split
    exact unclaimed_of_answersOwner (booked before) (answers before request after split)
  · intro unclaimed before request after split
    exact answersOwner_of_unclaimed (booked before) (unclaimed before request after split)

/-- Two players, and one transaction id. -/
def creditFrom (peer : PeerId) (now : Int64) (txnId : UInt64) (amount : Int64) : Request :=
  ⟨peer, calmAt now, .econ ⟨txnId, amount, 0, none⟩⟩

theorem kept_emptyDb : Kept emptyDb := kept_of_no_rows rfl rfl

/-- Every row of the request's id belongs to its sender. -/
def Rightful (server : Server F) (request : Request) : Prop :=
  ∀ txn ∈ request.txn, ∀ session ∈ server.sessions.get? request.peer, ∀ row ∈ server.db.ledger,
    row.txnId = txn.txnId.toInt64 → row.playerId = session.playerId.toInt64

theorem Rightful.unclaimed {server : Server F} {request : Request} (rightful : Rightful server request) :
    Unclaimed server request := by
  intro txn session kind heard row member own
  exact rightful txn (by simp [Request.txn, kind]) session heard.session row member own

/-- Credits of both players, one of them sent twice, and a debit. -/
def ownIds : List Request :=
  [creditFrom 1 3000 7 100, creditFrom 2 3000 8 30, creditFrom 1 3010 7 100, creditFrom 1 4000 9 (-40),
    creditFrom 2 4000 10 5]

theorem econ_answers_owner_iff_own_ids :
    (∀ before request after, ownIds = before ++ request :: after →
      AnswersOwner (Runs.final serve joinedServer before) request) ∧
    ((Runs.outputs serve joinedServer ownIds).flatMap ledgerAcks).map (fun answer => (answer.1, answer.2.newBalance)) =
      [(1, 100), (2, 30), (1, 100), (1, 60), (2, 35)] := by
  have rightful : ∀ n < ownIds.length, ∀ request ∈ ownIds[n]?,
      Rightful (Runs.final serve joinedServer (ownIds.take n)) request := by
    unfold Rightful
    decide +kernel
  refine ⟨(econ_answers_owner_iff kept_emptyDb joinedServer_reached ownIds).mpr ?_, by decide +kernel⟩
  intro before request after split
  have here := rightful before.length (by simp [split]) request (by simp [split])
  rw [split, List.take_left] at here
  exact here.unclaimed

/-- The second player is told its credit was accepted, with the first player's balance; the log
holds nothing of the second player. -/
theorem shared_id_swallowed :
    Kept emptyDb ∧ Reachable emptyDb joinedServer [] ∧
      ¬ ∀ before request after,
        [creditFrom 1 3000 7 100, creditFrom 2 3000 7 50] = before ++ request :: after →
          AnswersOwner (Runs.final serve joinedServer before) request := by
  refine ⟨kept_emptyDb, joinedServer_reached, fun answers => ?_⟩
  have second := answers [creditFrom 1 3000 7 100] (creditFrom 2 3000 7 50) [] rfl
  have present : ((Runs.final serve joinedServer [creditFrom 1 3000 7 100]).sessions.get? 2).map
      Session.playerId = some 2 := by decide +kernel
  obtain ⟨session, found, own⟩ := Option.map_eq_some_iff.mp present
  have acked : (2, ⟨7, true, 100, replayReason⟩) ∈ ledgerAcks
      (serve (Runs.final serve joinedServer [creditFrom 1 3000 7 100]) (creditFrom 2 3000 7 50)).1 := by
    decide +kernel
  have logged : ∀ row ∈ (serve (Runs.final serve joinedServer [creditFrom 1 3000 7 100])
      (creditFrom 2 3000 7 50)).2.db.ledger, row.playerId = 1 := by decide +kernel
  obtain ⟨⟨row, member, -, owner⟩, -⟩ := second _ session _ rfl found acked rfl
  rw [logged row member, own] at owner
  exact absurd owner (by decide)

end Ownership

/-! Retransmission. -/
section Retransmission
variable {F : Type} [Platform F]

/-- Everything but the outgoing datagrams and their numbering. -/
def inner (server : Server F) : Server F := { server with seq := 0, sent := [] }

def SameEffect (left right : Server F) (leftAfter rightAfter : Server F) : Prop :=
  inner leftAfter = inner rightAfter ∧ replies left leftAfter = replies right rightAfter

theorem sameEffect_quiet {left right leftAfter rightAfter : Server F} (same : inner leftAfter = inner rightAfter)
    (leftSent : leftAfter.sent = left.sent) (rightSent : rightAfter.sent = right.sent) :
    SameEffect left right leftAfter rightAfter :=
  ⟨same, by rw [replies_of_sent_eq leftSent, replies_of_sent_eq rightSent]⟩

theorem sameEffect_post {left right leftAfter rightAfter : Server F} (same : inner leftAfter = inner rightAfter)
    (leftSent : leftAfter.sent = left.sent) (rightSent : rightAfter.sent = right.sent) (peer : PeerId)
    (payload : ServerMessage F) :
    SameEffect left right (leftAfter.post peer payload) (rightAfter.post peer payload) :=
  ⟨same, by rw [replies_post leftSent, replies_post rightSent]⟩

/-- No handler reads the datagrams sent so far or their numbering. -/
theorem onEcon_inner (server : Server F) (moment : Moment) (peer : PeerId) (txn : EconTxn) :
    SameEffect server (inner server) (server.onEcon moment peer txn).1 ((inner server).onEcon moment peer txn).1 := by
  have fields : (inner server).sessions = server.sessions ∧ (inner server).cfg = server.cfg ∧
      (inner server).db = server.db ∧ (inner server).econLimiter = server.econLimiter :=
    ⟨rfl, rfl, rfl, rfl⟩
  have applied : ∀ limiter player txn, SameEffect server (inner server)
      (({ server with econLimiter := limiter } : Server F).applyEcon moment peer player txn).1
      (({ inner server with econLimiter := limiter } : Server F).applyEcon moment peer player txn).1 := by
    intro limiter player txn
    simp only [applyEcon, inner]
    cases ledgerApply (storeFaults moment) moment.persistenceMs server.db player txn with
    | mk result db =>
      cases result with
      | error failure => exact sameEffect_quiet rfl rfl rfl
      | ok ack => refine sameEffect_post ?_ ?_ ?_ peer (.ledgerAck ack) <;> rfl
  simp only [onEcon, fields]
  cases server.sessions.get? peer with
  | none => exact sameEffect_quiet rfl rfl rfl
  | some session =>
      simp only
      split
      · exact sameEffect_quiet rfl rfl rfl
      split
      · exact sameEffect_quiet rfl rfl rfl
      · exact applied server.econLimiter _ _
      split
      · exact applied _ _ _
      · exact sameEffect_quiet rfl rfl rfl

theorem onTrade_inner (server : Server F) (moment : Moment) (peer : PeerId) (trade : MarketTradeRequest) :
    SameEffect server (inner server) (server.onTrade moment peer trade).1
      ((inner server).onTrade moment peer trade).1 := by
  have fields : (inner server).sessions = server.sessions ∧ (inner server).db = server.db ∧
      (inner server).tradeLimiter = server.tradeLimiter := ⟨rfl, rfl, rfl⟩
  have applied : ∀ limiter trade, SameEffect server (inner server)
      (({ server with tradeLimiter := limiter } : Server F).applyTrade moment peer trade).1
      (({ inner server with tradeLimiter := limiter } : Server F).applyTrade moment peer trade).1 := by
    intro limiter trade
    simp only [applyTrade, inner]
    cases marketApply (storeFaults moment) moment.persistenceMs server.db trade with
    | mk result db =>
      cases result with
      | error failure => exact sameEffect_quiet rfl rfl rfl
      | ok ack => refine sameEffect_post ?_ ?_ ?_ peer (.marketStateAck ack) <;> rfl
  -- A throttled trade still reads the market, so it answers with the same state on both sides.
  have throttled : ∀ limiter trade, SameEffect server (inner server)
      (({ server with tradeLimiter := limiter } : Server F).throttleTrade moment peer trade).1
      (({ inner server with tradeLimiter := limiter } : Server F).throttleTrade moment peer trade).1 := by
    intro limiter trade
    simp only [throttleTrade, inner]
    cases attempt (moment.fails 1) (.ok (server.db.marketState trade.portId trade.itemId)) with
    | error failure => exact sameEffect_quiet rfl rfl rfl
    | ok state => refine sameEffect_post ?_ ?_ ?_ peer (.marketStateAck _) <;> rfl
  simp only [onTrade, fields]
  cases server.sessions.get? peer with
  | none => exact sameEffect_quiet rfl rfl rfl
  | some session =>
      simp only
      split
      · exact sameEffect_quiet rfl rfl rfl
      · exact applied server.tradeLimiter _
      split
      · exact applied _ _
      · exact throttled _ _

theorem handle_inner (server : Server F) (request : Request) :
    SameEffect server (inner server) (handle server request).1 (handle (inner server) request).1 := by
  rcases request with ⟨peer, moment, txn | trade⟩
  · exact onEcon_inner server moment peer txn
  · exact onTrade_inner server moment peer trade

theorem serve_inner {left right : Server F} (same : inner left = inner right) (request : Request) :
    inner (serve left request).2 = inner (serve right request).2 ∧
      (serve left request).1 = (serve right request).1 := by
  have first := handle_inner left request
  have second := handle_inner right request
  rw [← same] at second
  exact ⟨first.1.trans second.1.symm, first.2.trans second.2.symm⟩

inductive Delivery where
  | original (request : Request)
  | duplicate (request : Request)

def Delivery.request : Delivery → Request
  | .original request => request
  | .duplicate request => request

def originals (trace : List Delivery) : List Request :=
  trace.filterMap fun
    | .original request => some request
    | .duplicate _ => none

/-- The replies to the originals, in a run that also serves the duplicates. -/
def originalReplies : Server F → List Delivery → List (List (PeerId × ServerMessage F))
  | _, [] => []
  | server, .original request :: rest =>
      (serve server request).1 :: originalReplies (serve server request).2 rest
  | server, .duplicate request :: rest => originalReplies (serve server request).2 rest

def Committed (db : Db F) : Message → Prop
  | .econ txn => ∃ row ∈ db.ledger, row.txnId = txn.txnId.toInt64
  | .trade request => ∃ row ∈ db.marketTrades, tryI64 request.txnId = some row.txnId

/-- A duplicate may come from anyone; all that counts is that its transaction is committed by then. -/
def Retransmits (server : Server F) (trace : List Delivery) : Prop :=
  ∀ before request after, trace = before ++ .duplicate request :: after →
    Committed (Runs.final serve server (before.map Delivery.request)).db request.message

/-- Nothing but the rate limiter could refuse the request. -/
def Served (server : Server F) (request : Request) : Prop :=
  (server.sessions.get? request.peer).isSome = true ∧
  request.moment.fails 0 = false ∧ request.moment.fails 1 = false ∧
  match request.message with
  | .econ txn => stringWithinLimit (txnOf txn).note server.cfg.maxWireStringLenUsize = true
  | .trade _ => True

def Accepts : ServerMessage F → Prop
  | .ledgerAck ack => ack.accepted = true ∧ ack.reason = replayReason
  | .marketStateAck ack => ack.accepted = true ∧ ack.reason = replayReason
  | _ => False

theorem onTrade_committed (server : Server F) (moment : Moment) (peer : PeerId) (request : MarketTradeRequest)
    (committed : Committed server.db (.trade request)) :
    ((server.onTrade moment peer request).1 = server ∧
      ¬ Served server ⟨peer, moment, .trade request⟩) ∨
    ∃ ack, Accepts (.marketStateAck ack : ServerMessage F) ∧
      (server.onTrade moment peer request).1 = server.post peer (.marketStateAck ack) := by
  obtain ⟨row, member, bound⟩ := committed
  have recorded : ∃ found, server.db.lookupTrade request.txnId = .ok (some found) := by
    have present : (server.db.marketTrades.find? (fun prior => prior.txnId = row.txnId)).isSome = true := by
      rw [List.find?_isSome]
      exact ⟨row, member, by simp⟩
    obtain ⟨found, lookup⟩ := Option.isSome_iff_exists.mp present
    exact ⟨found, by simp [Db.lookupTrade, bound, lookup]⟩
  obtain ⟨found, lookup⟩ := recorded
  unfold onTrade
  cases known : server.sessions.get? peer with
  | none => exact Or.inl ⟨rfl, fun served => by simp [Served, known] at served⟩
  | some session =>
      simp only [tradeOf, lookup]
      cases first : moment.fails 0 with
      | true => exact Or.inl ⟨rfl, fun served => by simp [Served, first] at served⟩
      | false =>
          cases second : moment.fails 1 with
          | true =>
              refine Or.inl ⟨?_, fun served => by simp [Served, second] at served⟩
              simp [attempt, applyTrade, marketApply, Market.apply, Market.MarketStore.lookupTrade,
                storeFaults, second]
          | false =>
              refine Or.inr ⟨⟨request.txnId, true, found.portId, found.itemId, found.stock, found.price,
                replayReason⟩, ⟨rfl, rfl⟩, ?_⟩
              simp [attempt, applyTrade, marketApply, Market.apply, Market.MarketStore.lookupTrade,
                storeFaults, second, lookup, Except.map, replayReason]

/-- A duplicate leaves no trace but its own reply, and the limiter never refuses it. -/
theorem duplicate_invisible {server : Server F} (booked : Booked server) (request : Request)
    (committed : Committed server.db request.message) :
    inner (serve server request).2 = inner server ∧
      ((¬ Served server request ∧ (serve server request).1 = []) ∨
        ∃ payload, Accepts payload ∧ (serve server request).1 = [(request.peer, payload)]) := by
  rcases request with ⟨peer, moment, txn | trade⟩
  · simp only [serve, handle]
    rcases onEcon_committed server booked.kept moment peer txn committed with
      ⟨idle, unheard⟩ | ⟨_, ack, -, accepted, reason, after⟩
    · rw [idle]
      refine ⟨rfl, Or.inl ⟨fun served => ?_, replies_of_sent_eq rfl⟩⟩
      obtain ⟨session, found⟩ := Option.isSome_iff_exists.mp served.1
      exact absurd ⟨found, served.2.2.2, served.2.1, served.2.2.1⟩ (unheard session)
    · rw [after]
      exact ⟨rfl, Or.inr ⟨.ledgerAck ack, ⟨accepted, reason⟩, replies_post rfl peer _⟩⟩
  · simp only [serve, handle]
    rcases onTrade_committed server moment peer trade committed with ⟨idle, unserved⟩ | ⟨ack, accepts, after⟩
    · rw [idle]
      exact ⟨rfl, Or.inl ⟨unserved, replies_of_sent_eq rfl⟩⟩
    · rw [after]
      exact ⟨rfl, Or.inr ⟨_, accepts, replies_post rfl peer _⟩⟩

theorem retransmits_tail {server : Server F} {head : Delivery} {trace : List Delivery}
    (retransmits : Retransmits server (head :: trace)) :
    Retransmits (serve server head.request).2 trace := by
  intro before request after split
  exact retransmits (head :: before) request after (by rw [split]; rfl)

/-- The run with duplicates simulates the run without them, datagrams aside. -/
theorem retransmission_simulates (trace : List Delivery) (full plain : Server F)
    (same : inner full = inner plain) (booked : Booked full) (retransmits : Retransmits full trace) :
    inner (Runs.final serve full (trace.map Delivery.request)) =
        inner (Runs.final serve plain (originals trace)) ∧
      originalReplies full trace = Runs.outputs serve plain (originals trace) := by
  induction trace generalizing full plain with
  | nil => exact ⟨same, rfl⟩
  | cons head trace ih =>
      have later := retransmits_tail retransmits
      have kept := handle_booked booked head.request
      cases head with
      | original request =>
          obtain ⟨state, reply⟩ := serve_inner same request
          obtain ⟨final, replied⟩ := ih _ (serve plain request).2 state kept later
          refine ⟨final, ?_⟩
          show (serve full request).1 :: originalReplies _ trace = (serve plain request).1 :: _
          rw [reply, replied]
          rfl
      | duplicate request =>
          have unseen := (duplicate_invisible booked request (retransmits [] request trace rfl)).1
          exact ih _ plain (unseen.trans same) kept later

/-- Retransmission is invisible: duplicates of committed transactions change no table and no
limiter, the originals are answered alike, and no duplicate is refused as rate limited. -/
theorem retransmission_invisible [Codec F] {db : Db F} {server : Server F} {pending : List Event}
    (kept : Kept db) (reached : Reachable db server pending) (trace : List Delivery)
    (retransmits : Retransmits server trace) :
    (let full := Runs.final serve server (trace.map Delivery.request)
     let plain := Runs.final serve server (originals trace)
     full.db = plain.db ∧ full.econLimiter = plain.econLimiter ∧ full.tradeLimiter = plain.tradeLimiter) ∧
    originalReplies server trace = Runs.outputs serve server (originals trace) ∧
    ∀ before request after, trace = before ++ .duplicate request :: after →
      let reached := Runs.final serve server (before.map Delivery.request)
      (¬ Served reached request ∧ (serve reached request).1 = []) ∨
        ∃ payload, Accepts payload ∧ (serve reached request).1 = [(request.peer, payload)] := by
  have booked := reachable_booked kept reached
  obtain ⟨state, replied⟩ := retransmission_simulates trace server server rfl booked retransmits
  refine ⟨?_, replied, ?_⟩
  · have tables := congrArg Server.db state
    have econ := congrArg Server.econLimiter state
    have trade := congrArg Server.tradeLimiter state
    exact ⟨tables, econ, trade⟩
  · intro before request after split
    exact (duplicate_invisible (run_booked booked _) request (retransmits before request after split)).2

/-- A credit, its resend inside the throttle window, and a later credit. -/
def resentTrace : List Delivery :=
  [.original (creditFrom 1 3000 7 100), .duplicate (creditFrom 1 3010 7 100),
    .original (creditFrom 1 3200 8 50)]

theorem retransmission_invisible_resent :
    (Runs.final serve joinedServer (resentTrace.map Delivery.request)).db =
      (Runs.final serve joinedServer [creditFrom 1 3000 7 100, creditFrom 1 3200 8 50]).db := by
  have committed : ∃ row ∈ (Runs.final serve joinedServer [creditFrom 1 3000 7 100]).db.ledger,
      row.txnId = (7 : UInt64).toInt64 := by decide +kernel
  refine (retransmission_invisible kept_emptyDb joinedServer_reached resentTrace ?_).1.1
  intro before request after split
  rcases before with _ | ⟨first, _ | ⟨second, _ | ⟨third, rest⟩⟩⟩
  · cases split
  · cases split
    exact committed
  · cases split
  · have short := congrArg List.length split
    simp [resentTrace] at short

end Retransmission

/-! One answer for every trade. -/
section Trades
open MarketRefinement
variable {F : Type} [Platform F]

theorem storeFaults_healthy {moment : Moment} (healthy : ∀ operation, moment.fails operation = false) :
    storeFaults moment = noFaults := by
  simp [storeFaults, noFaults, healthy]

theorem onTrade_bindable (server : Server F) {moment : Moment} {peer : PeerId} {request : MarketTradeRequest}
    (session : (server.sessions.get? peer).isSome = true)
    (healthy : ∀ operation, moment.fails operation = false) (small : Bindable request.txnId) :
    ∃ ack, replies server (server.onTrade moment peer request).1 = [(peer, .marketStateAck ack)] := by
  obtain ⟨held, found⟩ := Option.isSome_iff_exists.mp session
  have applied : ∀ limiter, ∃ ack, replies server
      (({ server with tradeLimiter := limiter } : Server F).applyTrade moment peer (tradeOf request)).1 =
        [(peer, .marketStateAck ack)] := by
    intro limiter
    obtain ⟨ack, db, answered⟩ := dbTrade_answers server.db ⟨tradeOf request, moment.persistenceMs⟩ small
    refine ⟨ack, ?_⟩
    simp only [dbTrade] at answered
    simp only [applyTrade, storeFaults_healthy healthy, answered]
    exact replies_post rfl peer _
  have lookup : ∃ row, server.db.lookupTrade request.txnId = .ok row :=
    ⟨_, by rw [Db.lookupTrade, bindable_key _ small]⟩
  obtain ⟨row, looked⟩ := lookup
  simp only [onTrade, found, tradeOf, looked, attempt, healthy, Bool.false_eq_true, if_false]
  cases row with
  | some recorded => exact applied server.tradeLimiter
  | none =>
      simp only
      split
      · exact applied _
      · simp only [throttleTrade, attempt, healthy, Bool.false_eq_true, if_false]
        exact ⟨_, replies_post rfl peer _⟩

theorem onTrade_unbindable (server : Server F) {moment : Moment} {peer : PeerId}
    {request : MarketTradeRequest} (large : ¬ Bindable request.txnId) :
    replies server (server.onTrade moment peer request).1 = [] := by
  have refused : server.db.lookupTrade request.txnId = .error .conversion := by
    rw [Db.lookupTrade, (tryI64_none_iff _).mpr (by unfold Bindable at large; omega)]
  unfold onTrade
  cases server.sessions.get? peer with
  | none => exact replies_of_sent_eq rfl
  | some session =>
      simp only [tradeOf, refused]
      cases moment.fails 0 <;> exact replies_of_sent_eq rfl

theorem serve_sessions (server : Server F) (request : Request) :
    (serve server request).2.sessions = server.sessions := by
  rcases request with ⟨peer, moment, txn | trade⟩
  · simp only [serve, handle, onEcon, applyEcon]
    repeat' split
    all_goals rfl
  · simp only [serve, handle, onTrade, applyTrade, throttleTrade]
    repeat' split
    all_goals rfl

theorem run_sessions (server : Server F) (requests : List Request) :
    (Runs.final serve server requests).sessions = server.sessions :=
  Runs.invariant_always serve (fun after => after.sessions = server.sessions)
    (fun _ request held => (serve_sessions _ request).trans held) requests server rfl

/-- Every trade request of the run is answered by exactly one `MarketStateAck`. -/
def AnswersTrades (server : Server F) (requests : List Request) : Prop :=
  ∀ before request after trade, requests = before ++ request :: after → request.message = .trade trade →
    ∃ ack, (serve (Runs.final serve server before) request).1 = [(request.peer, .marketStateAck ack)]

theorem answersTrades_iff (server : Server F) (requests : List Request)
    (sessions : ∀ request ∈ requests, (server.sessions.get? request.peer).isSome = true)
    (healthy : ∀ request ∈ requests, ∀ operation, request.moment.fails operation = false) :
    AnswersTrades server requests ↔
      ∀ request ∈ requests, ∀ trade, request.message = .trade trade → Bindable trade.txnId := by
  constructor
  · intro answers request member trade kind
    obtain ⟨before, after, split⟩ := List.append_of_mem member
    obtain ⟨ack, replied⟩ := answers before request after trade split kind
    by_contra large
    rw [serve, handle, kind] at replied
    simp only [onTrade_unbindable _ large] at replied
    cases replied
  · intro small before request after trade split kind
    have member : request ∈ requests := by simp [split]
    have session := sessions request member
    rw [← run_sessions server before] at session
    obtain ⟨ack, replied⟩ := onTrade_bindable (Runs.final serve server before) session
      (healthy request member) (small request member trade kind)
    refine ⟨ack, ?_⟩
    rw [serve, handle, kind]
    exact replied

/-- Over a healthy disk the SQLite market answers like the in-memory one, and every trade of a
session gets its one answer, exactly on the runs whose ids all fit a signed 64-bit integer. -/
theorem market_refines_iff (db : Db F) (calls : List TradeCall) (unstocked : db.market = FiniteMap.empty)
    (untraded : db.marketTrades = []) (server : Server F) (requests : List Request)
    (sessions : ∀ request ∈ requests, (server.sessions.get? request.peer).isSome = true)
    (healthy : ∀ request ∈ requests, ∀ operation, request.moment.fails operation = false) :
    ((Runs.outputs dbTrade db calls = Runs.outputs memTrade Market.MemMarketStore.new calls ∧
      ∀ port item, ((Runs.final dbTrade db calls).marketState port item).getD (0, 0) =
        (Runs.final memTrade Market.MemMarketStore.new calls).state port item) ↔
      ∀ call ∈ calls, Bindable call.trade.txnId) ∧
    (AnswersTrades server requests ↔
      ∀ request ∈ requests, ∀ trade, request.message = .trade trade → Bindable trade.txnId) :=
  ⟨market_runs_agree_iff db calls unstocked untraded, answersTrades_iff server requests sessions healthy⟩

def buyFrom (peer : PeerId) (txnId : UInt64) : Request :=
  ⟨peer, calmAt 3000, .trade ⟨txnId, 4, 2, 10, 5⟩⟩

/-- Two trades of one item, the first of them sent again, and one that the stock does not cover. -/
def smallTrades : List TradeCall :=
  [⟨⟨7, 4, 2, 10, 5⟩, 0⟩, ⟨⟨8, 4, 2, -3, 6⟩, 1⟩, ⟨⟨7, 4, 2, 10, 5⟩, 2⟩, ⟨⟨9, 4, 2, -50, 6⟩, 3⟩]

/-- A second trade comes too early and is refused; it is answered all the same. -/
theorem market_refines_iff_small_ids :
    (Runs.outputs dbTrade (emptyDb : Db Int) smallTrades =
        Runs.outputs memTrade Market.MemMarketStore.new smallTrades ∧
      (Runs.final memTrade Market.MemMarketStore.new smallTrades).state 4 2 = (7, 6)) ∧
    AnswersTrades joinedServer [buyFrom 1 7, buyFrom 1 8, buyFrom 2 9, buyFrom 1 7] := by
  have first : (joinedServer.sessions.get? 1).isSome = true := by decide +kernel
  have second : (joinedServer.sessions.get? 2).isSome = true := by decide +kernel
  obtain ⟨store, service⟩ := market_refines_iff emptyDb smallTrades rfl rfl joinedServer
    [buyFrom 1 7, buyFrom 1 8, buyFrom 2 9, buyFrom 1 7] (by simp [buyFrom, first, second]) (by simp [buyFrom, calmAt])
  refine ⟨⟨(store.mpr ?_).1, by decide +kernel⟩, service.mpr ?_⟩
  · simp [smallTrades, Bindable]
  · simp [buyFrom, Bindable]

/-- The smallest id the binding refuses: in memory the trade is accepted, over the tables it errs
and the client hears nothing. -/
theorem large_id_unanswered :
    Runs.outputs dbTrade emptyDb [⟨⟨9223372036854775808, 4, 2, 10, 5⟩, 0⟩] ≠
        Runs.outputs memTrade Market.MemMarketStore.new [⟨⟨9223372036854775808, 4, 2, 10, 5⟩, 0⟩] ∧
      (joinedServer.sessions.get? 1).isSome = true ∧
      ¬ AnswersTrades joinedServer [buyFrom 1 9223372036854775808] := by
  refine ⟨by decide, by decide +kernel, fun answers => ?_⟩
  obtain ⟨ack, replied⟩ := answers [] _ [] _ rfl rfl
  have silent : (serve joinedServer (buyFrom 1 9223372036854775808)).1.length = 0 := by decide +kernel
  rw [Runs.final_nil] at replied
  rw [replied] at silent
  cases silent

end Trades
end SailwindOnline.EconService
