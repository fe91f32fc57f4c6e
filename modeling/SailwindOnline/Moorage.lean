import SailwindOnline.TickEffects

/-!
Moorings as rows of their table. A row is keyed by the boat its owner asserted
or, on foot, by the owner itself; a repeated mooring replaces every column but
the first date. What a mooring is acknowledged with and whose row it replaces
are both read off one upsert.
-/

namespace SailwindOnline.Moorage
open Server Persistence Traces Effects SessionRuns

section Table
variable {F : Type}

/-- The table's primary-key order. -/
def Keyed (rows : List (MooringRow F)) : Prop :=
  rows.Pairwise fun early late => early.boatId < late.boatId

def mooringAt (db : Db F) (boatId : Int64) : Option (MooringRow F) :=
  db.moorings.find? fun row => row.boatId = boatId

/-- The row an upsert leaves under its key. -/
def merged (row : MooringRow F) : Option (MooringRow F) → MooringRow F
  | none => row
  | some prior => { row with createdAt := prior.createdAt }

@[simp] theorem merged_boatId (row : MooringRow F) (prior : Option (MooringRow F)) :
    (merged row prior).boatId = row.boatId := by
  cases prior <;> rfl

@[simp] theorem merged_owner (row : MooringRow F) (prior : Option (MooringRow F)) :
    (merged row prior).owner = row.owner := by
  cases prior <;> rfl

variable {row : MooringRow F} {rows : List (MooringRow F)}

theorem find_above {boatId : Int64} (above : ∀ other ∈ rows, boatId < other.boatId) :
    (rows.find? fun other => other.boatId = boatId) = none := by
  apply List.find?_eq_none.mpr
  intro other member same
  have less := above other member
  rw [of_decide_eq_true same] at less
  exact Int64.lt_irrefl less

theorem find_upsertMooringRow (keyed : Keyed rows) (boatId : Int64) :
    ((Db.upsertMooringRow row rows).find? fun other => other.boatId = boatId) =
      if boatId = row.boatId then some (merged row (rows.find? fun other => other.boatId = row.boatId))
      else rows.find? fun other => other.boatId = boatId := by
  induction rows with
  | nil =>
      by_cases same : boatId = row.boatId <;> simp [Db.upsertMooringRow, merged, same, eq_comm]
  | cons head rest ih =>
      obtain ⟨least, tail⟩ := List.pairwise_cons.mp keyed
      unfold Db.upsertMooringRow
      split
      · rename_i here
        by_cases same : boatId = row.boatId
        · simp [same, here, merged]
        · have apart : ¬ row.boatId = boatId := fun equal => same equal.symm
          simp [same, apart, here]
      · rename_i elsewhere
        split
        · rename_i before
          -- The new row comes first, and nothing after it has its key.
          have absent : ((head :: rest).find? fun other => other.boatId = row.boatId) = none := by
            apply find_above
            intro other member
            rcases List.mem_cons.mp member with rfl | later
            · exact before
            · exact Int64.lt_trans before (least other later)
          by_cases same : boatId = row.boatId
          · rw [absent]
            simp [same, merged]
          · have apart : ¬ row.boatId = boatId := fun equal => same equal.symm
            simp [same, apart]
        · by_cases same : boatId = row.boatId
          · have apart : ¬ head.boatId = boatId := fun equal => elsewhere (equal.trans same)
            simp only [same, if_true, List.find?_cons, elsewhere, decide_false] at ih ⊢
            exact (ih tail).trans (by simp)
          · simp only [List.find?_cons, ih tail, if_neg same]

theorem mem_upsertMooringRow (keyed : Keyed rows) (other : MooringRow F) :
    other ∈ Db.upsertMooringRow row rows ↔
      other = merged row (rows.find? fun prior => prior.boatId = row.boatId) ∨
        other ∈ rows ∧ other.boatId ≠ row.boatId := by
  -- The rows ascend by boat, so an insertion that stops early meets no later row of its own boat.
  induction rows with
  | nil => simp [Db.upsertMooringRow, merged]
  | cons head rest ih =>
      obtain ⟨least, tail⟩ := List.pairwise_cons.mp keyed
      unfold Db.upsertMooringRow
      split
      · rename_i here
        have apart : ∀ later ∈ rest, later.boatId ≠ row.boatId := by
          intro later member same
          have less := least later member
          rw [here, same] at less
          exact Int64.lt_irrefl less
        simp only [List.find?_cons, here, decide_true, merged, List.mem_cons]
        constructor
        · rintro (rfl | member)
          · exact Or.inl rfl
          · exact Or.inr ⟨Or.inr member, apart other member⟩
        · rintro (rfl | ⟨rfl | member, differs⟩)
          · exact Or.inl rfl
          · exact absurd here differs
          · exact Or.inr member
      · rename_i elsewhere
        split
        · rename_i before
          have above : ∀ later ∈ head :: rest, row.boatId < later.boatId := by
            intro later member
            rcases List.mem_cons.mp member with rfl | further
            · exact before
            · exact Int64.lt_trans before (least later further)
          rw [find_above above, merged, List.mem_cons]
          constructor
          · rintro (rfl | member)
            · exact Or.inl rfl
            · refine Or.inr ⟨member, fun same => ?_⟩
              have less := above other member
              rw [same] at less
              exact Int64.lt_irrefl less
          · rintro (rfl | ⟨member, -⟩)
            · exact Or.inl rfl
            · exact Or.inr member
        · simp only [List.mem_cons, ih tail, List.find?_cons, elsewhere, decide_false]
          constructor
          · rintro (rfl | rfl | ⟨member, differs⟩)
            · exact Or.inr ⟨Or.inl rfl, elsewhere⟩
            · exact Or.inl rfl
            · exact Or.inr ⟨Or.inr member, differs⟩
          · rintro (rfl | ⟨rfl | member, differs⟩)
            · exact Or.inr (Or.inl rfl)
            · exact Or.inl rfl
            · exact Or.inr (Or.inr ⟨member, differs⟩)

theorem keyed_upsertMooringRow (keyed : Keyed rows) : Keyed (Db.upsertMooringRow row rows) := by
  induction rows with
  | nil => exact List.pairwise_singleton _ _
  | cons head rest ih =>
      obtain ⟨least, tail⟩ := List.pairwise_cons.mp keyed
      unfold Db.upsertMooringRow
      split
      · rename_i here
        exact List.pairwise_cons.mpr ⟨fun later member => here ▸ least later member, tail⟩
      · rename_i elsewhere
        split
        · rename_i before
          refine List.pairwise_cons.mpr ⟨fun later member => ?_, keyed⟩
          rcases List.mem_cons.mp member with rfl | further
          · exact before
          · exact Int64.lt_trans before (least later further)
        · rename_i after
          refine List.pairwise_cons.mpr ⟨fun later member => ?_, ih tail⟩
          rcases (mem_upsertMooringRow tail later).mp member with rfl | ⟨older, -⟩
          · rw [merged_boatId]
            exact lt_of_le_of_ne (le_of_not_gt after) elsewhere
          · exact least later older

theorem filter_after {before after : List (MooringRow F)} {admits : MooringRow F → Bool}
    (refused : ∀ other ∈ before, admits other = false) (admitted : admits row = true) :
    ((before ++ row :: after).filter admits).take 1 = [row] := by
  have dropped : before.filter admits = [] := by
    apply List.filter_eq_nil_iff.mpr
    intro other member
    simp [refused other member]
  rw [List.filter_append, dropped, List.nil_append, List.filter_cons_of_pos admitted]
  rfl

theorem mooringAt_of_mem {db : Db F} (keyed : Keyed db.moorings) {row : MooringRow F}
    (member : row ∈ db.moorings) : mooringAt db row.boatId = some row := by
  obtain ⟨before, after, split⟩ := List.append_of_mem member
  have sorted : Keyed (before ++ row :: after) := split ▸ keyed
  have absent : (before.find? fun other => other.boatId = row.boatId) = none := by
    apply List.find?_eq_none.mpr
    intro other listed same
    have less := (List.pairwise_append.mp sorted).2.2 other listed row List.mem_cons_self
    rw [of_decide_eq_true same] at less
    exact Int64.lt_irrefl less
  rw [mooringAt, split, List.find?_append, absent]
  simp

/-- Some page of a cell's listing starts with any given row of the cell. -/
theorem page_of_row {db : Db F} (keyed : Keyed db.moorings) (member : row ∈ db.moorings) :
    ∃ cursor, db.mooringsInCellAfter row.cellX row.cellZ cursor 1 = .ok [row] := by
  obtain ⟨before, after, split⟩ := List.append_of_mem member
  have sorted : Keyed (before ++ row :: after) := split ▸ keyed
  obtain ⟨prefix_sorted, -, cross⟩ := List.pairwise_append.mp sorted
  let inCell := fun other : MooringRow F => decide (other.cellX = row.cellX ∧ other.cellZ = row.cellZ)
  have here : inCell row = true := by simp [inCell]
  rcases List.eq_nil_or_concat (before.filter inCell) with none_before | ⟨earlier, last, whole⟩
  · refine ⟨none, ?_⟩
    have refused : ∀ other ∈ before, inCell other = false := by
      intro other listed
      exact Bool.eq_false_iff.mpr (List.filter_eq_nil_iff.mp none_before other listed)
    have listing : db.mooringsInCellAfter row.cellX row.cellZ none 1 =
        .ok ((db.moorings.filter fun other => inCell other && true).take 1) := if_pos (by decide)
    rw [listing, split, filter_after (fun other listed => by simp [refused other listed]) (by simp [here])]
  · refine ⟨some last.boatId, ?_⟩
    have last_listed : last ∈ before.filter inCell := by simp [whole]
    have last_before := (List.mem_filter.mp last_listed).1
    have refused : ∀ other ∈ before, (inCell other && decide (last.boatId < other.boatId)) = false := by
      intro other listed
      cases near : inCell other with
      | false => rfl
      | true =>
          have among : other ∈ earlier ++ [last] := by
            rw [List.concat_eq_append] at whole
            exact whole ▸ List.mem_filter.mpr ⟨listed, near⟩
          have ordered : Keyed (earlier ++ [last]) := by
            rw [List.concat_eq_append] at whole
            exact whole ▸ prefix_sorted.filter inCell
          have least : ¬ last.boatId < other.boatId := by
            rcases List.mem_append.mp among with early | final
            · exact fun less => Int64.lt_irrefl (Int64.lt_trans less
                ((List.pairwise_append.mp ordered).2.2 other early last (List.mem_singleton.mpr rfl)))
            · rw [List.mem_singleton.mp final]
              exact Int64.lt_irrefl
          simp [least]
    have above : last.boatId < row.boatId := cross last last_before row List.mem_cons_self
    have listing : db.mooringsInCellAfter row.cellX row.cellZ (some last.boatId) 1 =
        .ok ((db.moorings.filter fun other => inCell other && decide (last.boatId < other.boatId)).take 1) :=
      if_pos (by decide)
    rw [listing, split, filter_after refused (by simp [here, above])]

end Table

section Requests
variable {F : Type} [Platform F] [Codec F] {server : Server F} {moment : Moment} {peer : PeerId}
  {session : Session F} {request : MoorRequest F}

omit [Platform F] [Codec F] in
theorem toUInt64_injective {left right : Int64} (same : left.toUInt64 = right.toUInt64) : left = right :=
  congrArg UInt64.toInt64 same

/-- The boat aboard which the session says it is or, on foot, its player. -/
def moorKey (session : Session F) : UInt64 :=
  if session.aboardBoat ≠ 0 then session.aboardBoat else session.playerId

def moorName (request : MoorRequest F) : String := request.name.getD "mooring"

/-- The checks between a request and its write. -/
structure Accepts (server : Server F) (moment : Moment) (session : Session F) (request : MoorRequest F)
    (motion : Motion F) : Prop where
  sane : sanitizeMotion (vec3Of request.pos) (quatOf request.rot)
    (Platform.zero, Platform.zero, Platform.zero) = some motion
  named : stringWithinLimit (moorName request)
    (min server.cfg.maxWireStringLenUsize maxMooringNameBytes) = true
  rested : (server.moorLimiter.allow session.playerId moment.admissionMs).2 = true
  stored : moment.fails 0 = false

def mooredRow (server : Server F) (moment : Moment) (session : Session F) (request : MoorRequest F)
    (motion : Motion F) : MooringRow F :=
  { boatId := (moorKey session).toInt64
    owner := session.playerId.toInt64
    cellX := (server.world.grid.cellOf motion.pos.1 motion.pos.2.2).cx
    cellZ := (server.world.grid.cellOf motion.pos.1 motion.pos.2.2).cz
    pos := motion.pos
    rot := motion.rot
    name := moorName request
    createdAt := moment.persistenceMs }

/-- The server once the mooring is saved and acknowledged by the snap of the request's own row. -/
def moored (server : Server F) (moment : Moment) (peer : PeerId) (session : Session F)
    (request : MoorRequest F) (motion : Motion F) : Server F :=
  ({ server with
      moorLimiter := (server.moorLimiter.allow session.playerId moment.admissionMs).1
      db := server.db.upsertMooring (mooredRow server moment session request motion) }).post peer
    (.moorAck true (some (mooringSnap (mooredRow server moment session request motion))) "")

theorem onMoor_accepted (seated : server.sessions.get? peer = some session) {motion : Motion F}
    (accepts : Accepts server moment session request motion) :
    server.onMoor moment peer request = (moored server moment peer session request motion, .ok ()) := by
  have named := accepts.named
  have rested := accepts.rested
  simp only [moorName] at named
  simp only [onMoor, seated, accepts.sane, named, accepts.stored, attempt, Bool.not_true, Bool.false_eq_true,
    if_false]
  rcases charged : server.moorLimiter.allow session.playerId moment.admissionMs with ⟨limiter, admitted⟩
  rw [charged] at rested
  simp only at rested
  subst rested
  simp only [moored, charged, Bool.not_true, Bool.false_eq_true, if_false]
  rfl

/-- A request that fails a check writes no mooring and is not acknowledged as accepted. -/
theorem onMoor_refused (refused : ∀ session, server.sessions.get? peer = some session →
      ∀ motion, ¬ Accepts server moment session request motion) :
    (server.onMoor moment peer request).1.db = server.db ∧
      ((server.onMoor moment peer request).1.sent = server.sent ∨
        (server.onMoor moment peer request).1.sent =
          server.sent ++ [(peer, { seq := server.seq + 1
                                   payload := .moorAck false none moorNameTooLongReason })]) := by
  unfold onMoor
  split
  · exact ⟨rfl, Or.inl rfl⟩
  · rename_i session seated
    simp only
    split
    · exact ⟨rfl, Or.inl rfl⟩
    · rename_i motion sane
      split
      · unfold postBounded
        split
        · exact ⟨rfl, Or.inl rfl⟩
        · exact ⟨rfl, Or.inr rfl⟩
      · rename_i named
        split
        · exact ⟨rfl, Or.inl rfl⟩
        · rename_i rested
          split
          · exact ⟨rfl, Or.inl rfl⟩
          · rename_i db written
            refine absurd ⟨sane, ?_, ?_, ?_⟩ (refused session seated motion)
            · simpa [moorName] using named
            · simpa using rested
            · cases failing : moment.fails 0 with
              | false => rfl
              | true => simp [attempt, failing] at written

/-- An accepted acknowledgement is sent by an accepted request only. -/
theorem accepts_of_acked {snap : MooringSnap F} (seated : server.sessions.get? peer = some session)
    (acked : (server.onMoor moment peer request).1.sent =
      server.sent ++ [(peer, { seq := server.seq + 1, payload := .moorAck true (some snap) "" })]) :
    ∃ motion, Accepts server moment session request motion ∧
      snap = mooringSnap (mooredRow server moment session request motion) := by
  by_cases accepted : ∃ motion, Accepts server moment session request motion
  · obtain ⟨motion, accepts⟩ := accepted
    refine ⟨motion, accepts, ?_⟩
    rw [onMoor_accepted seated accepts] at acked
    have last := List.append_cancel_left acked
    simp only [List.cons.injEq, Prod.mk.injEq, Envelope.mk.injEq, ServerMessage.moorAck.injEq,
      Option.some.injEq, true_and, and_true] at last
    exact last.symm
  · have refused : ∀ other, server.sessions.get? peer = some other →
        ∀ motion, ¬ Accepts server moment other request motion := by
      intro other found motion accepts
      rw [seated, Option.some.injEq] at found
      exact accepted ⟨motion, found ▸ accepts⟩
    rcases (onMoor_refused refused).2 with silent | rejected
    · rw [silent] at acked
      simp at acked
    · rw [rejected] at acked
      have last := List.append_cancel_left acked
      simp at last

omit [Codec F] in
/-- The row read back under the key of an accepted request. -/
theorem mooringAt_moored (keyed : Keyed server.db.moorings) (motion : Motion F) :
    mooringAt (moored server moment peer session request motion).db (moorKey session).toInt64 =
      some (merged (mooredRow server moment session request motion)
        (mooringAt server.db (moorKey session).toInt64)) :=
  (find_upsertMooringRow keyed (moorKey session).toInt64).trans (if_pos rfl)

/-- The acknowledged record is the stored one exactly when no earlier date was kept; all its other
fields are those of the row that the hydration of its cell reads back. -/
theorem moor_ack_is_record_iff {snap : MooringSnap F} (keyed : Keyed server.db.moorings)
    (seated : server.sessions.get? peer = some session)
    (acked : (server.onMoor moment peer request).1.sent =
      server.sent ++ [(peer, { seq := server.seq + 1, payload := .moorAck true (some snap) "" })]) :
    ∃ row, mooringAt (server.onMoor moment peer request).1.db (moorKey session).toInt64 = some row ∧
      (∃ cursor, (server.onMoor moment peer request).1.db.mooringsInCellAfter snap.cell.1 snap.cell.2 cursor
        (min cellMooringsPerPacket maxMooringsPageRows) = .ok [row]) ∧
      { mooringSnap row with createdAt := snap.createdAt } = snap ∧
      (mooringSnap row = snap ↔ ∀ prior, mooringAt server.db (moorKey session).toInt64 = some prior →
        prior.createdAt = moment.persistenceMs) := by
  obtain ⟨motion, accepts, rfl⟩ := accepts_of_acked seated acked
  rw [onMoor_accepted seated accepts]
  let fresh := mooredRow server moment session request motion
  let prior := mooringAt server.db (moorKey session).toInt64
  refine ⟨merged fresh prior, mooringAt_moored keyed motion, ?_, ?_, ?_⟩
  · have member : merged fresh prior ∈ Db.upsertMooringRow fresh server.db.moorings :=
      (mem_upsertMooringRow keyed _).mpr (Or.inl rfl)
    obtain ⟨cursor, page⟩ := page_of_row
      (show Keyed (server.db.upsertMooring fresh).moorings from keyed_upsertMooringRow keyed) member
    refine ⟨cursor, ?_⟩
    have cell : (merged fresh prior).cellX = fresh.cellX ∧ (merged fresh prior).cellZ = fresh.cellZ := by
      cases prior <;> exact ⟨rfl, rfl⟩
    rw [cell.1, cell.2] at page
    exact page
  · cases prior <;> rfl
  · cases found : prior with
    | none =>
        refine ⟨fun _ earlier present => ?_, fun _ => rfl⟩
        rw [show mooringAt server.db (moorKey session).toInt64 = none from found] at present
        cases present
    | some earlier =>
        have only : ∀ other, mooringAt server.db (moorKey session).toInt64 = some other → other = earlier :=
          fun other present => Option.some.inj (present.symm.trans found)
        constructor
        · intro same other present
          have dates := congrArg MooringSnap.createdAt same
          rw [only other present]
          exact toUInt64_injective dates
        · intro dated
          have date := dated earlier found
          simp only [merged, date]
          rfl

/-! A player of `joinedServer` moors on foot at the origin, and again six seconds later. -/

def originRequest : MoorRequest Int := { pos := none, rot := none, name := none }

def originMotion : Motion Int := { pos := (0, 0, 0), rot := (0, 0, 0, 1), vel := (0, 0, 0) }

def mooredServer : Server Int := (joinedServer.onMoor (calmAt 3000) 1 originRequest).1

theorem first_seated : ∃ session, joinedServer.sessions.get? 1 = some session ∧ session.playerId = 1 := by
  have present : (joinedServer.sessions.get? 1).map Session.playerId = some 1 := by decide +kernel
  exact Option.map_eq_some_iff.mp present

theorem first_accepts {session : Session Int} (own : session.playerId = 1) :
    Accepts joinedServer (calmAt 3000) session originRequest originMotion :=
  ⟨rfl, by decide +kernel, by rw [own]; decide +kernel, rfl⟩

theorem keyed_joinedServer : Keyed joinedServer.db.moorings := by
  have empty : joinedServer.db.moorings.length = 0 := by decide +kernel
  rw [List.eq_nil_of_length_eq_zero empty]
  exact List.Pairwise.nil

theorem moor_ack_is_record_first :
    ∃ session row, joinedServer.sessions.get? 1 = some session ∧
      mooringAt mooredServer.db (moorKey session).toInt64 = some row ∧
      mooringSnap row = mooringSnap (mooredRow joinedServer (calmAt 3000) session originRequest originMotion) := by
  obtain ⟨session, seated, own⟩ := first_seated
  have done := onMoor_accepted seated (first_accepts own)
  obtain ⟨row, stored, -, -, same⟩ := moor_ack_is_record_iff keyed_joinedServer seated
    (congrArg (fun handled => handled.1.sent) done)
  have unmoored : joinedServer.db.moorings.length = 0 := by decide +kernel
  refine ⟨session, row, seated, stored, same.mpr fun prior present => ?_⟩
  rw [mooringAt, List.eq_nil_of_length_eq_zero unmoored] at present
  cases present

/-- The second acknowledgement is dated 9000, the row it is about 3000. -/
theorem moor_ack_forgets_first_date :
    ∃ session snap row, mooredServer.sessions.get? 1 = some session ∧
      (mooredServer.onMoor (calmAt 9000) 1 originRequest).1.sent =
        mooredServer.sent ++
          [(1, { seq := mooredServer.seq + 1, payload := .moorAck true (some snap) "" })] ∧
      mooringAt (mooredServer.onMoor (calmAt 9000) 1 originRequest).1.db (moorKey session).toInt64 = some row ∧
      mooringSnap row ≠ snap := by
  obtain ⟨session, seated, own⟩ := first_seated
  have first : mooredServer = moored joinedServer (calmAt 3000) 1 session originRequest originMotion :=
    congrArg Prod.fst (onMoor_accepted seated (first_accepts own))
  have rested : (mooredServer.moorLimiter.allow 1 9000).2 = true := by decide +kernel
  have again : Accepts mooredServer (calmAt 9000) session originRequest originMotion :=
    ⟨rfl, by decide +kernel, by rw [own]; exact rested, rfl⟩
  have still : mooredServer.sessions.get? 1 = some session := by
    rw [first]
    exact seated
  have keyed : Keyed mooredServer.db.moorings := by
    rw [first]
    exact keyed_upsertMooringRow keyed_joinedServer
  rw [onMoor_accepted still again]
  refine ⟨session, _, _, still, rfl, mooringAt_moored keyed originMotion, fun same => ?_⟩
  have prior : mooringAt mooredServer.db (moorKey session).toInt64 =
      some (mooredRow joinedServer (calmAt 3000) session originRequest originMotion) := by
    rw [first, mooringAt_moored keyed_joinedServer]
    have unmoored : joinedServer.db.moorings.length = 0 := by decide +kernel
    rw [mooringAt, List.eq_nil_of_length_eq_zero unmoored]
    rfl
  rw [prior] at same
  have dates : Int64.toUInt64 3000 = Int64.toUInt64 9000 := congrArg MooringSnap.createdAt same
  exact absurd dates (by decide)

end Requests

end SailwindOnline.Moorage
