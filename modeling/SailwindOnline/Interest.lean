import SailwindOnline.SetDeltas
import SailwindOnline.TickEffects
import SailwindOnline.Traces

/-!
Interest delivery over whole runs. A client folds the interest updates it is
sent; the server tracks what it has published. The two agree at every moment,
each update is exact against what was published before it, no session with work
left is ever forgotten by the scheduler, and a session without work has
published exactly the block around its cell.
-/

namespace SailwindOnline.Interest
open World (Cell Subscription)
open Server SessionIndex SessionRuns OrderedSet SetDeltas Effects TickEffects Traces Persistence

section Sessions
variable {F : Type}

/-- Pending hydration stays within what is published. -/
structure Tidy (session : Session F) : Prop where
  waiting : session.hydrationCells ⊆ session.publishedCells
  active : ∀ active, session.activeHydration = some active →
    active.cell ∈ session.publishedCells ∧ active.cell ∉ session.hydrationCells

def AoiChunk.delta (chunk : AoiChunk) : Delta Cell := ⟨chunk.added, chunk.removed⟩

/-- Hydration work neither moves a session's interest nor what it has published. -/
structure Hydrates (session after : Session F) : Prop where
  sub : after.sub = session.sub
  published : after.publishedCells = session.publishedCells
  tidy : Tidy session → Tidy after

theorem Hydrates.refl (session : Session F) : Hydrates session session := ⟨rfl, rfl, id⟩

theorem Hydrates.trans {session middle after : Session F} (first : Hydrates session middle)
    (second : Hydrates middle after) : Hydrates session after :=
  ⟨second.sub.trans first.sub, second.published.trans first.published, second.tidy ∘ first.tidy⟩

theorem aoiChunk_exact (session : Session F) :
    (AoiChunk.delta (aoiChunk session)).Exact aoiCellsPerUpdate session.publishedCells := by
  have added : ∀ cell ∈ (aoiChunk session).added, cell ∈ session.sub.cells \ session.publishedCells := by
    intro cell member
    exact (mem_ascending _ cell).mp (List.mem_of_mem_take member)
  have removed : ∀ cell ∈ (aoiChunk session).removed, cell ∈ session.publishedCells \ session.sub.cells := by
    intro cell member
    exact (mem_ascending _ cell).mp (List.mem_of_mem_take member)
  refine exact_of_difference ?_ added removed ?_ ?_
  · simp only [AoiChunk.delta, aoiChunk, List.length_take]
    omega
  · exact (ascending_nodup _).sublist (List.take_sublist _ _)
  · exact (ascending_nodup _).sublist (List.take_sublist _ _)

theorem tidy_applyAoiChunk {session : Session F} (tidy : Tidy session) :
    Tidy (applyAoiChunk session (aoiChunk session)) := by
  have exact := aoiChunk_exact session
  refine ⟨?_, ?_⟩
  · intro cell member
    simp only [applyAoiChunk, Finset.mem_union, Finset.mem_sdiff] at member ⊢
    exact member.imp_left fun kept => ⟨tidy.waiting kept.1, kept.2⟩
  · intro active held
    simp only [applyAoiChunk, Option.filter_eq_some_iff] at held
    obtain ⟨here, kept⟩ := held
    obtain ⟨published, idle⟩ := tidy.active active here
    have stays : active.cell ∉ (aoiChunk session).removed.toFinset := by simpa using kept
    refine ⟨Finset.mem_union_left _ (Finset.mem_sdiff.mpr ⟨published, stays⟩), ?_⟩
    simp only [applyAoiChunk, Finset.mem_union, Finset.mem_sdiff, not_or]
    refine ⟨fun both => idle both.1, fun new => ?_⟩
    exact exact.added_fresh active.cell (List.mem_toFinset.mp new) published

theorem nextHydrationCell_mem {cells : Finset Cell} {cursor : Option Cell} {cell : Cell}
    (next : nextHydrationCell cells cursor = some cell) : cell ∈ cells := by
  unfold nextHydrationCell at next
  simp only [Option.or_eq_some_iff, Option.bind_eq_some_iff] at next
  rcases next with ⟨bound, -, first⟩ | ⟨-, first⟩
  · exact (mem_ascending cells cell).mp (List.mem_of_mem_filter (List.mem_of_head? first))
  · exact (mem_ascending cells cell).mp (List.mem_of_head? first)

theorem prepareHydration_hydrates (session : Session F) (activePlayers : Nat) :
    Hydrates session (prepareHydration session activePlayers).1 := by
  unfold prepareHydration
  split <;> rename_i standing
  · refine ⟨rfl, rfl, fun tidy => ⟨tidy.waiting, ?_⟩⟩
    rintro active ⟨⟩
    exact tidy.active _ (Option.filter_eq_some_iff.mp standing).1
  · split <;> rename_i next
    · exact ⟨rfl, rfl, fun tidy => ⟨tidy.waiting, by simp⟩⟩
    · refine ⟨rfl, rfl, fun tidy => ⟨(Finset.erase_subset _ _).trans tidy.waiting, ?_⟩⟩
      rintro active ⟨⟩
      exact ⟨tidy.waiting (nextHydrationCell_mem next), Finset.notMem_erase _ _⟩

theorem hydrates_active (session : Session F) (change : CellHydration → CellHydration)
    (kept : ∀ hydration, (change hydration).cell = hydration.cell) :
    Hydrates session { session with activeHydration := session.activeHydration.map change } := by
  refine ⟨rfl, rfl, fun tidy => ⟨tidy.waiting, ?_⟩⟩
  intro active held
  obtain ⟨before, here, rfl⟩ := Option.map_eq_some_iff.mp held
  rw [kept]
  exact tidy.active before here

theorem hydrates_done (session : Session F) : Hydrates session { session with activeHydration := none } :=
  ⟨rfl, rfl, fun tidy => ⟨tidy.waiting, by simp⟩⟩

end Sessions

/-! One visit of the interest scheduler. -/
section Visits
variable {F : Type} [Platform F] {server middle after : Server F} {peer : PeerId}

/-- The interest update a datagram carries to `peer`. -/
def updateTo (peer : PeerId) (post : PeerId × Envelope F) : Option (Delta Cell) :=
  if post.1 = peer then
    match post.2.payload with
    | .aoiUpdate added removed => some ⟨added, removed⟩
    | _ => none
  else none

def updatesTo (peer : PeerId) (posts : List (PeerId × Envelope F)) : List (Delta Cell) :=
  posts.filterMap (updateTo peer)

omit [Platform F] in
theorem updateTo_other_topic {post : PeerId × Envelope F} (other : topicOf post.2.payload ≠ .interest) :
    updateTo peer post = none := by
  unfold updateTo
  split
  · split <;> rename_i payload
    · rw [payload] at other
      exact absurd rfl other
    · rfl
  · rfl

omit [Platform F] in
theorem updatesTo_other_topics {posts : List (PeerId × Envelope F)}
    (others : ∀ post ∈ posts, topicOf post.2.payload ≠ .interest) : updatesTo peer posts = [] := by
  rw [updatesTo, List.filterMap_eq_nil_iff]
  exact fun post member => updateTo_other_topic (others post member)

/-- One session's interest moves by one update, or by hydration work that sends none. -/
inductive InterestStep (session : Session F) : List (Delta Cell) → Session F → Prop
  | published : InterestStep session [AoiChunk.delta (aoiChunk session)]
      (applyAoiChunk session (aoiChunk session))
  | hydrated {after : Session F} (hydrates : Hydrates session after) : InterestStep session [] after

inductive InterestRun : Session F → List (Delta Cell) → Session F → Prop
  | done {session : Session F} : InterestRun session [] session
  | step {session middle after : Session F} {early late : List (Delta Cell)}
      (first : InterestStep session early middle) (later : InterestRun middle late after) :
      InterestRun session (early ++ late) after

omit [Platform F] in
theorem InterestRun.trans {session middle after : Session F} {early late : List (Delta Cell)}
    (first : InterestRun session early middle) (second : InterestRun middle late after) :
    InterestRun session (early ++ late) after := by
  induction first with
  | done => exact second
  | step head _ ih =>
      rw [List.append_assoc]
      exact .step head (ih second)

/-- The datagrams sent to each peer carry its log, when they `fit`. -/
def Told (fit : Prop) (server after : Server F) (logs : PeerId → List (Delta Cell)) : Prop :=
  ∃ posts, after.sent = server.sent ++ posts ∧ (fit → ∀ peer, updatesTo peer posts = logs peer)

theorem Told.trans {fit : Prop} {early late : PeerId → List (Delta Cell)} (first : Told fit server middle early)
    (second : Told fit middle after late) : Told fit server after fun peer => early peer ++ late peer := by
  obtain ⟨posts, grown, told⟩ := first
  obtain ⟨more, grownAgain, toldAgain⟩ := second
  refine ⟨posts ++ more, by rw [grownAgain, grown, List.append_assoc], fun fits peer => ?_⟩
  rw [updatesTo, List.filterMap_append]
  exact congrArg₂ (· ++ ·) (told fits peer) (toldAgain fits peer)

theorem Told.silent {topics : List Topic} {fit : Prop} (posts : Posts topics server after)
    (others : Topic.interest ∉ topics) : Told fit server after fun _ => [] := by
  obtain ⟨new, grown, about⟩ := posts
  exact ⟨new, grown, fun _ _ => updatesTo_other_topics fun post member told => others (told ▸ about post member)⟩

/-- Every session moves by its own run, told by the updates sent to its peer. -/
structure AoiWork (fit : Prop) (server after : Server F) : Prop where
  moved : ∃ logs, Told fit server after logs ∧ ∀ peer,
    match server.sessions.get? peer with
    | none => after.sessions.get? peer = none ∧ logs peer = []
    | some session => ∃ later, after.sessions.get? peer = some later ∧ InterestRun session (logs peer) later

theorem AoiWork.of_same {fit : Prop} (sessions : after.sessions = server.sessions) (sent : after.sent = server.sent) :
    AoiWork fit server after := by
  refine ⟨fun _ => [], ⟨[], by simp [sent], fun _ _ => rfl⟩, fun peer => ?_⟩
  rw [sessions]
  cases server.sessions.get? peer with
  | none => exact ⟨rfl, rfl⟩
  | some session => exact ⟨session, rfl, .done⟩

theorem AoiWork.trans {fit : Prop} (first : AoiWork fit server middle) (second : AoiWork fit middle after) :
    AoiWork fit server after := by
  obtain ⟨early, told, moved⟩ := first.moved
  obtain ⟨late, toldAgain, movedAgain⟩ := second.moved
  refine ⟨_, told.trans toldAgain, fun peer => ?_⟩
  have before := moved peer
  have next := movedAgain peer
  cases found : server.sessions.get? peer with
  | none =>
      simp only [found] at before
      simp only [before.1] at next
      exact ⟨next.1, by rw [before.2, next.2]; rfl⟩
  | some session =>
      simp only [found] at before
      obtain ⟨once, present, run⟩ := before
      simp only [present] at next
      obtain ⟨twice, still, runAgain⟩ := next
      exact ⟨twice, still, run.trans runAgain⟩

theorem AoiWork.kept {fit : Prop} (work : AoiWork fit server after) {session : Session F}
    (found : server.sessions.get? peer = some session) : (after.sessions.get? peer).isSome := by
  obtain ⟨logs, -, moved⟩ := work.moved
  have own := moved peer
  rw [found] at own
  obtain ⟨later, present, -⟩ := own
  simp [present]

/-- Work on the session of one peer alone. -/
theorem AoiWork.visit {fit : Prop} {session later : Session F} {log : List (Delta Cell)}
    (told : Told fit server after fun other => if other = peer then log else [])
    (others : ∀ other, other ≠ peer → after.sessions.get? other = server.sessions.get? other)
    (found : server.sessions.get? peer = some session) (kept : after.sessions.get? peer = some later)
    (step : InterestStep session log later) : AoiWork fit server after := by
  refine ⟨_, told, fun other => ?_⟩
  by_cases own : other = peer
  · subst own
    simp only [found, if_true]
    refine ⟨later, kept, ?_⟩
    have single := InterestRun.step step .done
    rwa [List.append_nil] at single
  · rw [others other own]
    simp only [own, if_false]
    cases server.sessions.get? other with
    | none => exact ⟨rfl, trivial⟩
    | some session => exact ⟨session, rfl, .done⟩

/-- Hydration of the session of `peer`: nobody else is touched and no interest update is sent. -/
structure HydrationWork (peer : PeerId) (server after : Server F) : Prop where
  others : ∀ other, other ≠ peer → after.sessions.get? other = server.sessions.get? other
  own : Option.Rel Hydrates (server.sessions.get? peer) (after.sessions.get? peer)
  scheduled : after.aoiRecipients = server.aoiRecipients
  posts : Posts [.cell] server after

namespace HydrationWork

theorem refl (server : Server F) : HydrationWork peer server server := by
  refine ⟨fun _ _ => rfl, ?_, rfl, posts_of_sent_eq rfl⟩
  cases server.sessions.get? peer with
  | none => exact .none
  | some session => exact .some (.refl session)

theorem trans (first : HydrationWork peer server middle) (second : HydrationWork peer middle after) :
    HydrationWork peer server after := by
  refine ⟨fun other apart => (second.others other apart).trans (first.others other apart), ?_,
    second.scheduled.trans first.scheduled, first.posts.trans second.posts⟩
  have before := first.own
  have next := second.own
  revert before next
  generalize server.sessions.get? peer = start
  generalize middle.sessions.get? peer = half
  generalize after.sessions.get? peer = final
  intro before next
  cases before with
  | none =>
      cases next
      exact .none
  | some one =>
      cases next with
      | some two => exact .some (one.trans two)

theorem modifySession (change : Session F → Session F)
    (hydrates : ∀ session, server.sessions.get? peer = some session → Hydrates session (change session)) :
    HydrationWork peer server (server.modifySession peer change) := by
  refine ⟨?_, ?_, rfl, posts_of_sent_eq rfl⟩
  · intro other apart
    simp [Server.modifySession, FiniteMap.get?_modify, apart]
  · simp only [Server.modifySession, FiniteMap.get?_modify, if_true]
    cases found : server.sessions.get? peer with
    | none => exact .none
    | some session => exact .some (hydrates session found)

theorem postBounded [Codec F] {payload : ServerMessage F} (about : topicOf payload = .cell) :
    HydrationWork peer server (server.postBounded peer payload).1 := by
  have kept : (server.postBounded peer payload).1.sessions = server.sessions ∧
      (server.postBounded peer payload).1.aoiRecipients = server.aoiRecipients := by
    unfold Server.postBounded
    split <;> exact ⟨rfl, rfl⟩
  refine ⟨fun _ _ => by rw [kept.1], ?_, kept.2, posts_postBounded server peer (by simp [about])⟩
  rw [kept.1]
  exact (refl server).own

theorem sendCellSnapshot [Codec F] (server : Server F) (cell : Cell) (sessions : List (Session F))
    (moorings : List (MooringSnap F)) :
    HydrationWork peer server (server.sendCellSnapshot peer cell sessions moorings) := by
  have posted : HydrationWork peer server (server.postBounded peer
      (.cellSnapshot cell (playerSnaps sessions) (boatSnaps sessions) moorings)).1 := .postBounded rfl
  unfold Server.sendCellSnapshot
  split <;> rename_i sending <;> rw [sending] at posted
  · exact posted
  · exact posted.trans (.modifySession _ fun session _ => hydrates_active session _ fun _ => rfl)

theorem modifyHydration (server : Server F) (change : CellHydration → CellHydration)
    (kept : ∀ hydration, (change hydration).cell = hydration.cell) :
    HydrationWork peer server (server.modifyHydration peer change) :=
  .modifySession _ fun session _ => hydrates_active session change kept

end HydrationWork

theorem prepareCellHydration_work (server : Server F) (peer : PeerId) :
    HydrationWork peer server (server.prepareCellHydration peer).1 := by
  unfold prepareCellHydration
  split <;> rename_i found
  · exact .refl server
  · refine .modifySession _ fun session present => ?_
    rw [found, Option.some.injEq] at present
    subst present
    exact prepareHydration_hydrates _ _

variable [Codec F]

/-- Once nothing is left to publish, a visit only hydrates. -/
theorem processOneAoiWork_hydrates (settled : server.nextAoiChunk peer = (server, none)) (fails : Bool) :
    HydrationWork peer server (server.processOneAoiWork peer fails).1 := by
  have prepared := prepareCellHydration_work server peer
  unfold processOneAoiWork
  simp only [settled]
  split <;> rename_i preparing <;> rw [preparing] at prepared
  · exact prepared
  refine prepared.trans ?_
  split
  · unfold hydratePlayers
    simp only
    split
    · exact .modifyHydration _ _ fun _ => rfl
    · refine HydrationWork.trans ?_ (.sendCellSnapshot _ _ _ _)
      exact .modifyHydration _ _ fun _ => rfl
  split
  · exact .refl _
  · unfold completeHydration
    refine HydrationWork.trans ?_ (.modifySession _ fun session _ => hydrates_done session)
    split
    · exact .refl _
    · exact .postBounded rfl
  · unfold hydrateMooring
    simp only
    split
    · refine HydrationWork.trans ?_ (.sendCellSnapshot _ _ _ _)
      exact .modifyHydration _ _ fun _ => rfl
    · exact .modifyHydration _ _ fun _ => rfl

/-- Every outcome of a visit that leaves work asks to be scheduled again. -/
theorem processOneAoiWork_asks (server : Server F) (peer : PeerId) (fails : Bool)
    (work : (server.processOneAoiWork peer fails).1.sessionHasAoiWork peer = true) :
    (server.processOneAoiWork peer fails).2 = true := by
  unfold processOneAoiWork at work ⊢
  split at work
  · exact work
  · split at work
    · exact work
    · split at work <;> rename_i scanning
      · simp only [scanning, if_true]
        unfold hydratePlayers at work ⊢
        simp only at work ⊢
        split
        · exact work
        · rfl
      · simp only [scanning]
        split at work
        · rfl
        · exact work
        · rfl

/-- Assumed of the codec: an update within the cell limit fits one datagram. -/
def AoiPacketsFit (F : Type) [Codec F] : Prop :=
  ∀ (seq : UInt32) (added removed : List Cell), added.length + removed.length ≤ aoiCellsPerUpdate →
    (Codec.encode ({ seq, payload := .aoiUpdate added removed } : Envelope F)).length ≤ payloadLimit

omit [Codec F] in
theorem nextAoiChunk_cases {session : Session F} (found : server.sessions.get? peer = some session) :
    server.nextAoiChunk peer = (server, none) ∨
      server.nextAoiChunk peer = (server.modifySession peer fun session =>
        applyAoiChunk session (aoiChunk session), some (aoiChunk session)) := by
  unfold nextAoiChunk
  simp only [found]
  split
  · exact Or.inl rfl
  · refine Or.inr ?_
    simp [Server.modifySession, FiniteMap.modify, found]

theorem processOneAoiWork_publishes {session : Session F} (fails : Bool)
    (found : server.sessions.get? peer = some session)
    (chunking : server.nextAoiChunk peer = (server.modifySession peer fun session =>
      applyAoiChunk session (aoiChunk session), some (aoiChunk session))) :
    AoiWork (AoiPacketsFit F) server (server.processOneAoiWork peer fails).1 ∧
      (server.processOneAoiWork peer fails).1.aoiRecipients = server.aoiRecipients ∧
      ∀ other, other ≠ peer →
        (server.processOneAoiWork peer fails).1.sessions.get? other = server.sessions.get? other := by
  have bounded := (aoiChunk_exact session).bounded
  unfold processOneAoiWork
  simp only [chunking]
  unfold postBounded
  -- A packet beyond the datagram is published but not told; the codec is assumed to fit them all.
  split <;> rename_i large
  · refine ⟨.visit ⟨[], by simp [Server.modifySession], fun fits => ?_⟩ ?_ found ?_ .published, rfl, ?_⟩
    · exact absurd (fits _ _ _ bounded) (not_le.mpr large)
    · intro other apart
      simp [Server.modifySession, FiniteMap.get?_modify, apart]
    · simp [Server.modifySession, FiniteMap.get?_modify, found]
    · intro other apart
      simp [Server.modifySession, FiniteMap.get?_modify, apart]
  · refine ⟨.visit ⟨_, rfl, fun _ other => ?_⟩ ?_ found ?_ .published, rfl, ?_⟩
    · by_cases own : other = peer
      · simp [updatesTo, updateTo, own, AoiChunk.delta]
      · simp [updatesTo, updateTo, own, Ne.symm own]
    · intro other apart
      simp [post, Server.modifySession, FiniteMap.get?_modify, apart]
    · simp [post, Server.modifySession, FiniteMap.get?_modify, found]
    · intro other apart
      simp [post, Server.modifySession, FiniteMap.get?_modify, apart]

omit [Codec F] in
theorem HydrationWork.work {fit : Prop} {session : Session F} (hydration : HydrationWork peer server after)
    (found : server.sessions.get? peer = some session) : AoiWork fit server after := by
  have silent : Told fit server after fun other => if other = peer then [] else [] := by
    simpa using Told.silent hydration.posts (by decide)
  have own := hydration.own
  rw [found] at own
  cases kept : after.sessions.get? peer with
  | none =>
      rw [kept] at own
      cases own
  | some later =>
      rw [kept] at own
      cases own with
      | some hydrates => exact .visit silent hydration.others found kept (.hydrated hydrates)

theorem processOneAoiWork_work {session : Session F} (fails : Bool)
    (found : server.sessions.get? peer = some session) :
    AoiWork (AoiPacketsFit F) server (server.processOneAoiWork peer fails).1 ∧
      (server.processOneAoiWork peer fails).1.aoiRecipients = server.aoiRecipients ∧
      ∀ other, other ≠ peer →
        (server.processOneAoiWork peer fails).1.sessions.get? other = server.sessions.get? other := by
  rcases nextAoiChunk_cases found with settled | chunking
  · have hydration := processOneAoiWork_hydrates settled fails
    exact ⟨hydration.work found, hydration.scheduled, hydration.others⟩
  · exact processOneAoiWork_publishes fails found chunking

/-- No session with work left is missing from the schedule. -/
def Scheduled (server : Server F) : Prop :=
  ∀ peer, server.sessionHasAoiWork peer = true → peer ∈ server.aoiRecipients

omit [Codec F] in
theorem sessionHasAoiWork_congr (same : after.sessions.get? peer = server.sessions.get? peer) :
    after.sessionHasAoiWork peer = server.sessionHasAoiWork peer := by
  unfold sessionHasAoiWork
  rw [same]

theorem serveAoiRecipient_work (fails : PeerId → Bool) (server : Server F)
    (peer : PeerId) (scheduled : Scheduled server) :
    AoiWork (AoiPacketsFit F) server (serveAoiRecipient fails server peer) ∧
      Scheduled (serveAoiRecipient fails server peer) := by
  let taken : Server F := { server with aoiRecipients := server.aoiRecipients.erase peer }
  have started : AoiWork (AoiPacketsFit F) server taken := .of_same rfl rfl
  unfold serveAoiRecipient
  simp only
  cases found : server.sessions.get? peer with
  | none =>
      simp only [Option.isNone_none, if_true]
      refine ⟨started, ?_⟩
      intro other work
      have apart : other ≠ peer := by
        rintro rfl
        simp [sessionHasAoiWork, found] at work
      exact Finset.mem_erase.mpr ⟨apart, scheduled other work⟩
  | some session =>
      have present : taken.sessions.get? peer = some session := found
      obtain ⟨worked, kept, others⟩ := processOneAoiWork_work (fails peer) present
      have asks := processOneAoiWork_asks taken peer (fails peer)
      have waiting : ∀ other, other ≠ peer →
          (taken.processOneAoiWork peer (fails peer)).1.sessionHasAoiWork other = true →
          other ∈ (taken.processOneAoiWork peer (fails peer)).1.aoiRecipients := by
        intro other apart work
        rw [kept]
        rw [sessionHasAoiWork_congr (others other apart)] at work
        exact Finset.mem_erase.mpr ⟨apart, scheduled other work⟩
      simp only [Option.isNone_some, Bool.false_eq_true, if_false]
      show AoiWork (AoiPacketsFit F) server
        (if (taken.processOneAoiWork peer (fails peer)).2 then _ else _) ∧ Scheduled _
      split <;> rename_i more
      · have held := worked.kept found
        unfold scheduleAoi
        rw [if_pos held]
        refine ⟨(started.trans worked).trans (.of_same rfl rfl), ?_⟩
        intro other work
        by_cases own : other = peer
        · exact own ▸ Finset.mem_insert_self _ _
        · exact Finset.mem_insert_of_mem (waiting other own work)
      · refine ⟨started.trans worked, ?_⟩
        intro other work
        by_cases own : other = peer
        · subst own
          exact absurd (asks work) more
        · exact waiting other own work

theorem processAoiWork_work (fails : PeerId → Bool) (server : Server F)
    (scheduled : Scheduled server) :
    AoiWork (AoiPacketsFit F) server (server.processAoiWork fails) ∧ Scheduled (server.processAoiWork fails) := by
  have fold : ∀ (recipients : List PeerId) (server : Server F), Scheduled server →
      AoiWork (AoiPacketsFit F) server (recipients.foldl (serveAoiRecipient fails) server) ∧
        Scheduled (recipients.foldl (serveAoiRecipient fails) server) := by
    intro recipients
    induction recipients with
    | nil => exact fun server scheduled => ⟨.of_same rfl rfl, scheduled⟩
    | cons peer rest ih =>
        intro server scheduled
        obtain ⟨worked, still⟩ := serveAoiRecipient_work fails server peer scheduled
        obtain ⟨later, always⟩ := ih _ still
        exact ⟨worked.trans later, always⟩
  unfold processAoiWork
  obtain ⟨worked, still⟩ := fold
    (orderedPeersAfter server.aoiRecipients server.aoiRecipientCursor aoiWorkItemsPerTick)
    { server with aoiRecipientCursor := (orderedPeersAfter server.aoiRecipients server.aoiRecipientCursor
        aoiWorkItemsPerTick).getLast?.or server.aoiRecipientCursor } scheduled
  refine ⟨AoiWork.trans ?_ worked, still⟩
  exact .of_same rfl rfl

end Visits

/-! One stage of a run. -/
section Stages
variable {F : Type} [Platform F] {server after : Server F}

/-- What a session has published grows by a faithful log. -/
structure Publishes (session : Session F) (log : List (Delta Cell)) (later : Session F) : Prop where
  view : later.publishedCells = replay session.publishedCells log
  faithful : Faithful aoiCellsPerUpdate session.publishedCells log
  tidy : Tidy session → Tidy later

omit [Platform F] in
theorem Publishes.silent {session later : Session F} (same : later.publishedCells = session.publishedCells)
    (tidy : Tidy session → Tidy later) : Publishes session [] later :=
  ⟨same, trivial, tidy⟩

omit [Platform F] in
theorem InterestRun.publishes {session later : Session F} {log : List (Delta Cell)}
    (run : InterestRun session log later) : Publishes session log later ∧ later.sub = session.sub := by
  induction run with
  | done => exact ⟨.silent rfl id, rfl⟩
  | step first _ ih =>
      obtain ⟨published, sub⟩ := ih
      cases first with
      | published =>
          refine ⟨⟨?_, ⟨aoiChunk_exact _, ?_⟩, fun tidy => published.tidy (tidy_applyAoiChunk tidy)⟩, sub⟩
          · exact published.view
          · exact published.faithful
      | hydrated hydrates =>
          refine ⟨⟨?_, ?_, published.tidy ∘ hydrates.tidy⟩, sub.trans hydrates.sub⟩
          · rw [List.nil_append, published.view, hydrates.published]
          · rw [List.nil_append, ← hydrates.published]
            exact published.faithful

/-- The subscription is the block around its centre. -/
structure Block (radius : Nat) (sub : Subscription) : Prop where
  reach : sub.radius = radius
  cells : ∀ center, sub.center = some center → sub.cells = (World.cellsInRadius center radius).toFinset

theorem block_recenter {radius : Nat} {sub : Subscription} (block : Block radius sub) (cell : Cell) :
    Block radius (sub.recenter cell).1 := by
  unfold Subscription.recenter
  split
  · exact block
  · refine ⟨block.reach, ?_⟩
    rintro center ⟨⟩
    simp [block.reach]

theorem recenter_still {sub : Subscription} {cell : Cell} (still : (sub.recenter cell).2.isEmpty = true) :
    (sub.recenter cell).1.cells = sub.cells := by
  unfold Subscription.recenter at still ⊢
  split at still
  · simp_all
  · rename_i moved
    simp only [World.AoiUpdate.isEmpty, decide_eq_true_eq, Finset.sdiff_eq_empty_iff_subset] at still
    simp only [moved, if_false]
    exact Finset.Subset.antisymm still.1 still.2

structure InterestStage (fit : Prop) (server after : Server F) : Prop where
  told : ∃ logs, Told fit server after logs ∧ ∀ peer later, after.sessions.get? peer = some later →
    match server.sessions.get? peer with
    | some session => Publishes session (logs peer) later
    | none => later.publishedCells = ∅ ∧ Tidy later ∧ logs peer = []
  blocks : after.cfg = server.cfg ∧
    ((∀ peer session, server.sessions.get? peer = some session → Block server.cfg.aoiRadiusI32 session.sub) →
      ∀ peer session, after.sessions.get? peer = some session → Block server.cfg.aoiRadiusI32 session.sub)
  scheduled : Scheduled server → Scheduled after

/-- What the interest of a session depends on. -/
def interestOf (session : Session F) :=
  (session.sub, session.publishedCells, session.hydrationCells, session.activeHydration)

omit [Platform F] in
theorem tidy_of_interestOf {session later : Session F} (same : interestOf later = interestOf session)
    (tidy : Tidy session) : Tidy later := by
  simp only [interestOf, Prod.mk.injEq] at same
  obtain ⟨-, published, waiting, active⟩ := same
  exact ⟨waiting ▸ published ▸ tidy.waiting, active ▸ waiting ▸ published ▸ tidy.active⟩

/-- Stages that leave every session's interest alone. -/
theorem InterestStage.of_same {fit : Prop} {topics : List Topic} (cfg : after.cfg = server.cfg)
    (sessions : ∀ peer later, after.sessions.get? peer = some later →
      ∃ session, server.sessions.get? peer = some session ∧ interestOf later = interestOf session)
    (waiting : ∀ peer, peer ∈ server.aoiRecipients → (after.sessions.get? peer).isSome → peer ∈ after.aoiRecipients)
    (posts : Posts topics server after) (others : Topic.interest ∉ topics) : InterestStage fit server after := by
  refine ⟨⟨_, .silent posts others, ?_⟩, ⟨cfg, ?_⟩, ?_⟩
  · intro peer later found
    obtain ⟨session, present, same⟩ := sessions peer later found
    rw [present]
    exact .silent (congrArg (fun parts => parts.2.1) same) (tidy_of_interestOf same)
  · intro blocks peer later found
    obtain ⟨session, present, same⟩ := sessions peer later found
    have sub : later.sub = session.sub := congrArg Prod.fst same
    exact sub ▸ blocks peer session present
  · intro scheduled peer work
    cases found : after.sessions.get? peer with
    | none => simp [sessionHasAoiWork, found] at work
    | some later =>
        obtain ⟨session, present, same⟩ := sessions peer later found
        refine waiting peer (scheduled peer ?_) (by simp [found])
        simp only [interestOf, Prod.mk.injEq] at same
        simp only [sessionHasAoiWork, found, present] at work ⊢
        rw [same.1, same.2.1, same.2.2.1, same.2.2.2] at work
        exact work

theorem InterestStage.congr {fit : Prop} {base : Server F} (sessions : base.sessions = server.sessions)
    (cfg : base.cfg = server.cfg) (waiting : base.aoiRecipients = server.aoiRecipients)
    (sent : base.sent = server.sent) (stage : InterestStage fit base after) : InterestStage fit server after := by
  obtain ⟨told, blocks, scheduled⟩ := stage
  simp only [Told, sent, sessions] at told
  rw [cfg, sessions] at blocks
  refine ⟨told, blocks, fun ready => scheduled fun peer work => ?_⟩
  rw [waiting]
  refine ready peer ?_
  rw [← sessionHasAoiWork_congr (congrArg (fun table => table.get? peer) sessions)]
  exact work

omit [Platform F] in
theorem interestOf_unnumbered {session later : Session F} (same : unnumbered later = unnumbered session) :
    interestOf later = interestOf session :=
  (congrArg interestOf same :)

/-- A session that has just joined has published nothing and is scheduled. -/
theorem entered_interest {fit : Prop} {peer : PeerId} {player : UInt64} {middle numbered : Server F}
    {generation : UInt64}
    {session : Session F} {reply : ServerHello F} (vacant : server.sessions.get? peer = none)
    (superseded : Superseded server player middle)
    (numbering : Numbered (placedAtOrigin middle player) numbered generation)
    (block : Block server.cfg.aoiRadiusI32 session.sub) (unpublished : session.publishedCells = ∅)
    (idle : session.hydrationCells = ∅) (inactive : session.activeHydration = none) :
    InterestStage fit server (entered numbered peer session reply) := by
  have greeted : Posts [.hello] server (entered numbered peer session reply) :=
    ⟨_, entered_sent peer session reply superseded numbering, by simp [topicOf]⟩
  refine ⟨⟨_, .silent greeted (by decide), ?_⟩, ⟨?_, ?_⟩, ?_⟩
  · intro other later found
    rcases entered_sessions peer session reply superseded numbering found with
      ⟨rfl, rfl⟩ | ⟨apart, old, present, -, same⟩
    · rw [vacant]
      refine ⟨unpublished, ⟨by simp [idle], ?_⟩, rfl⟩
      intro active held
      rw [inactive] at held
      cases held
    · rw [present]
      have interest := interestOf_unnumbered same
      exact .silent (congrArg (fun parts => parts.2.1) interest) (tidy_of_interestOf interest)
  · exact (congrArg Server.cfg (entered_frame peer session reply superseded numbering) :)
  · intro blocks other later found
    rcases entered_sessions peer session reply superseded numbering found with
      ⟨rfl, rfl⟩ | ⟨apart, old, present, -, same⟩
    · exact block
    · have sub : later.sub = old.sub := congrArg Prod.fst (interestOf_unnumbered same)
      exact sub ▸ blocks other old present
  · intro scheduled other work
    rw [entered_waiting peer session reply superseded numbering]
    cases found : (entered numbered peer session reply).sessions.get? other with
    | none => simp [sessionHasAoiWork, found] at work
    | some later =>
        rcases entered_sessions peer session reply superseded numbering found with
          ⟨own, -⟩ | ⟨apart, old, present, other_owner, same⟩
        · exact Or.inl own
        · refine Or.inr ⟨other_owner, scheduled other ?_⟩
          have interest := interestOf_unnumbered same
          simp only [interestOf, Prod.mk.injEq] at interest
          simp only [sessionHasAoiWork, found, present] at work ⊢
          rw [interest.1, interest.2.1, interest.2.2.1, interest.2.2.2] at work
          exact work

/-- An event takes a session off the schedule only by ending it. -/
theorem outcome_waits {moment : Moment} {event : Event} (outcome : Outcome server moment event after)
    {peer : PeerId} (member : peer ∈ server.aoiRecipients) (stays : (after.sessions.get? peer).isSome) :
    peer ∈ after.aoiRecipients := by
  cases outcome with
  | calm frame =>
      have waiting : after.aoiRecipients = server.aoiRecipients := (congrArg Server.aoiRecipients frame :)
      exact waiting ▸ member
  | moved =>
      simp only
      split
      · exact member
      · exact Finset.mem_insert_of_mem member
  | spoke => exact member
  | @joined speaker bytes base middle numbered player identityHash name generation reply vacant frame posts
      superseded numbering =>
      have waiting : base.aoiRecipients = server.aoiRecipients := (congrArg Server.aoiRecipients frame :)
      obtain ⟨later, found⟩ := Option.isSome_iff_exists.mp stays
      rw [entered_waiting speaker _ reply superseded numbering, waiting]
      rcases entered_sessions speaker _ reply superseded numbering found with ⟨own, -⟩ | ⟨-, -, -, owner, -⟩
      · exact Or.inl own
      · exact Or.inr ⟨owner, member⟩
  | @left gone reason session db flushPlayers dirtyPlayers flushPaused found =>
      simp only [departed, dropped, FiniteMap.get?_erase] at stays
      split at stays <;> rename_i apart
      · cases stays
      · exact Finset.mem_erase.mpr ⟨apart, member⟩

theorem outcome_interest {fit : Prop} {moment : Moment} {event : Event}
    (outcome : Outcome server moment event after) : InterestStage fit server after := by
  have waits : ∀ peer, peer ∈ server.aoiRecipients → (after.sessions.get? peer).isSome →
      peer ∈ after.aoiRecipients := fun peer => outcome_waits outcome
  cases outcome with
  | calm frame posts kept =>
      have sessions : after.sessions = server.sessions := (congrArg Server.sessions frame :)
      refine .of_same (congrArg Server.cfg frame :) ?_ waits posts (by decide)
      intro peer later found
      exact ⟨later, sessions ▸ found, rfl⟩
  | @moved peer bytes session found motion state cell placed =>
      refine ⟨⟨fun _ => [], ⟨[], by simp, fun _ _ => rfl⟩, ?_⟩, ⟨rfl, ?_⟩, ?_⟩
      · intro other later present
        simp only [FiniteMap.get?_insert] at present
        split at present <;> rename_i own
        · cases present
          simp only [own, found]
          exact .silent rfl fun tidy => ⟨tidy.waiting, tidy.active⟩
        · simp only [present]
          exact .silent rfl id
      · intro blocks other later present
        simp only [FiniteMap.get?_insert] at present
        split at present
        · cases present
          exact block_recenter (blocks peer session found) cell
        · exact blocks other later present
      · intro scheduled other work
        simp only [sessionHasAoiWork, FiniteMap.get?_insert] at work
        split at work <;> rename_i held
        · cases work
        split at held <;> rename_i own
        · cases held
          subst own
          simp only
          split <;> rename_i still
          · refine scheduled other ?_
            simp only [sessionHasAoiWork, found]
            rw [← recenter_still still]
            exact work
          · exact Finset.mem_insert_self _ _
        · have waiting := scheduled other (by simpa only [sessionHasAoiWork, held] using work)
          simp only
          split
          · exact waiting
          · exact Finset.mem_insert_of_mem waiting
  | spoke found here about captured =>
      exact .of_same rfl (fun peer later present => ⟨later, present, rfl⟩) waits (posts_of_sent_eq rfl)
        List.not_mem_nil
  | @joined peer bytes base middle numbered player identityHash name generation reply vacant frame posts
      superseded numbering =>
      have sessions : base.sessions = server.sessions := (congrArg Server.sessions frame :)
      have settings : base.cfg = server.cfg := (congrArg Server.cfg frame :)
      have waiting : base.aoiRecipients = server.aoiRecipients := (congrArg Server.aoiRecipients frame :)
      have start : Block server.cfg.aoiRadiusI32 { radius := server.cfg.aoiRadiusI32 } := ⟨rfl, by simp⟩
      refine .congr sessions settings waiting posts ?_
      refine entered_interest (sessions ▸ vacant) superseded numbering ?_ rfl rfl rfl
      rw [settings]
      exact block_recenter start _
  | @left peer reason session db flushPlayers dirtyPlayers flushPaused found =>
      refine .of_same rfl ?_ waits (posts_of_sent_eq rfl) List.not_mem_nil
      intro other later present
      simp only [departed, dropped, FiniteMap.get?_erase] at present
      split at present
      · cases present
      · exact ⟨later, present, rfl⟩

/-- Work that `view` does not hide from interest. -/
theorem touches_interest {fit : Prop} {rest : Server F → Server F} {view : Session F → Session F} {topics : List Topic}
    (touches : Touches rest view topics server after)
    (seen : ∀ session, interestOf (view session) = interestOf session)
    (cfg : after.cfg = server.cfg) (waiting : after.aoiRecipients = server.aoiRecipients)
    (others : Topic.interest ∉ topics) : InterestStage fit server after := by
  refine .of_same cfg ?_ (fun peer member _ => waiting ▸ member) touches.posts others
  intro peer later found
  have same := touches.sessions peer
  rw [found, Option.map_some, eq_comm, Option.map_eq_some_iff] at same
  obtain ⟨session, present, viewed⟩ := same
  refine ⟨session, present, ?_⟩
  rw [← seen later, ← viewed, seen]

theorem AoiWork.stage {fit : Prop} (work : AoiWork fit server after) (cfg : after.cfg = server.cfg)
    (scheduled : Scheduled server → Scheduled after) : InterestStage fit server after := by
  obtain ⟨logs, told, moved⟩ := work.moved
  refine ⟨⟨logs, told, ?_⟩, ⟨cfg, ?_⟩, scheduled⟩
  · intro peer later found
    have own := moved peer
    cases present : server.sessions.get? peer with
    | none =>
        rw [present] at own
        rw [own.1] at found
        cases found
    | some session =>
        rw [present] at own
        obtain ⟨final, kept, run⟩ := own
        rw [kept, Option.some.injEq] at found
        subst found
        exact run.publishes.1
  · intro blocks peer later found
    have own := moved peer
    cases present : server.sessions.get? peer with
    | none =>
        rw [present] at own
        rw [own.1] at found
        cases found
    | some session =>
        rw [present] at own
        obtain ⟨final, kept, run⟩ := own
        rw [kept, Option.some.injEq] at found
        subst found
        exact run.publishes.2 ▸ blocks peer session present

theorem tick_interest [Codec F] (tick : Tick) (scheduled : Scheduled server)
    (about : JobsAbout fanoutTopics server) : InterestStage (AoiPacketsFit F) server (tick.run server) := by
  cases tick with
  | aoi fails =>
      obtain ⟨work, still⟩ := processAoiWork_work fails server scheduled
      have frame := (processAoiWork_effect server fails).frame
      exact work.stage (congrArg Server.cfg frame :) fun _ => still
  | snapshots =>
      have effect := broadcastSnapshots_effect server
      exact touches_interest effect (fun _ => rfl) (congrArg Server.cfg effect.frame :)
        (congrArg Server.aoiRecipients effect.frame :) (by decide)
  | fanout =>
      have run := processFanoutWork_run server
      have sessions : server.processFanoutWork.sessions = server.sessions := (congrArg Server.sessions run.frame :)
      have waiting : server.processFanoutWork.aoiRecipients = server.aoiRecipients :=
        (congrArg Server.aoiRecipients run.frame :)
      refine .of_same (congrArg Server.cfg run.frame :) ?_ ?_ (run.posts about).1 (by decide)
      · intro peer later found
        exact ⟨later, sessions ▸ found, rfl⟩
      · intro peer member _
        exact waiting ▸ member
  | dirtyFlush fails now =>
      have effect := (processDirtyFlushAt_effect server fails now).toTouches
      exact touches_interest effect (fun _ => rfl) (congrArg Server.cfg effect.frame :)
        (congrArg Server.aoiRecipients effect.frame :) (by simp)
  | beginFlush =>
      have touches : Touches (fun _ => server) id [] server server.beginDirtyFlush :=
        ⟨rfl, fun _ => rfl, posts_of_sent_eq rfl⟩
      exact touches_interest touches (fun _ => rfl) rfl rfl (by simp)
  | clock clockMs =>
      have frame := broadcastClock_frame server clockMs
      have sessions : (server.broadcastClock clockMs).sessions = server.sessions := (congrArg Server.sessions frame :)
      have touches : Touches clockFrame id [] server (server.broadcastClock clockMs) :=
        ⟨frame, fun _ => by rw [sessions], posts_of_sent_eq (congrArg Server.sent frame :)⟩
      exact touches_interest touches (fun _ => rfl) (congrArg Server.cfg frame :)
        (congrArg Server.aoiRecipients frame :) (by simp)

end Stages

/-! Whole runs. -/
section Runs
variable {F : Type} [Platform F] [Codec F] {db : Db F} {trace : List (Stage F)} {server : Server F}
  {pending : List Event}

/-- Updates since `peer` last had no session; only its current session was sent them. -/
def noteUpdates (peer : PeerId) (seen : List (Delta Cell)) (stage : Stage F) : List (Delta Cell) :=
  (if (stage.before.sessions.get? peer).isNone then [] else seen) ++ updatesTo peer stage.posted

def updatesSinceJoin (peer : PeerId) (trace : List (Stage F)) : List (Delta Cell) :=
  observe (noteUpdates peer) [] trace

structure InterestInv (trace : List (Stage F)) (server : Server F) : Prop where
  told : AoiPacketsFit F → ∀ peer session, server.sessions.get? peer = some session →
    replay ∅ (updatesSinceJoin peer trace) = session.publishedCells ∧
      Faithful aoiCellsPerUpdate ∅ (updatesSinceJoin peer trace)
  tidy : ∀ peer session, server.sessions.get? peer = some session → Tidy session
  blocks : ∀ peer session, server.sessions.get? peer = some session →
    Block server.cfg.aoiRadiusI32 session.sub
  scheduled : Scheduled server

theorem InterestInv.stage {after : Server F} {action : Action} (inv : InterestInv trace server)
    (moved : InterestStage (AoiPacketsFit F) server after) :
    InterestInv (trace ++ [⟨server, action, after⟩]) after := by
  obtain ⟨logs, ⟨posts, grown, told⟩, each⟩ := moved.told
  have posted : Stage.posted ⟨server, action, after⟩ = posts := Stage.posted_eq grown
  refine ⟨?_, ?_, ?_, moved.scheduled inv.scheduled⟩
  · intro fits peer later found
    have own := each peer later found
    simp only [updatesSinceJoin, observe_snoc, noteUpdates, posted, told fits]
    cases present : server.sessions.get? peer with
    | none =>
        rw [present] at own
        obtain ⟨empty, -, silent⟩ := own
        simp only [Option.isNone_none, if_true, silent]
        exact ⟨empty.symm, trivial⟩
    | some session =>
        rw [present] at own
        obtain ⟨view, faithful⟩ := inv.told fits peer session present
        simp only [Option.isNone_some, Bool.false_eq_true, if_false, replay_append]
        have next := own.faithful
        rw [← view] at next
        refine ⟨?_, faithful_append.mpr ⟨faithful, next⟩⟩
        rw [own.view, ← view]
        rfl
  · intro peer later found
    have own := each peer later found
    cases present : server.sessions.get? peer with
    | none =>
        rw [present] at own
        exact own.2.1
    | some session =>
        rw [present] at own
        exact own.tidy (inv.tidy peer session present)
  · rw [moved.blocks.1]
    exact moved.blocks.2 inv.blocks

theorem run_interest (run : Run db trace server pending) : InterestInv trace server := by
  induction run with
  | start opened =>
      obtain ⟨identityPlayers, -, rfl⟩ := new_opened opened
      exact ⟨by simp [Server.opened], by simp [Server.opened], by simp [Server.opened],
        fun peer work => by simp [sessionHasAoiWork, Server.opened] at work⟩
  | poll now script _ polled ih =>
      refine ih.stage ?_
      exact .of_same rfl (fun peer later found => ⟨later, found, rfl⟩) (fun _ member _ => member)
        (posts_of_sent_eq rfl) List.not_mem_nil
  | handle moment run ih => exact ih.stage (outcome_interest (handleEvent_outcome run.inv moment _))
  | tick tick run ih => exact ih.stage (tick_interest tick ih.scheduled (reachable_jobsAbout run.reachable))

theorem stage_interest {stage : Stage F} (run : Run db (trace ++ [stage]) server pending) :
    InterestStage (AoiPacketsFit F) stage.before server := by
  obtain ⟨start, action, after, rfl, move, rfl, waiting, before⟩ := run_move run
  cases move with
  | poll host =>
      exact .of_same rfl (fun peer later found => ⟨later, found, rfl⟩) (fun _ member _ => member)
        (posts_of_sent_eq rfl) List.not_mem_nil
  | handle outcome => exact outcome_interest outcome
  | tick tick => exact tick_interest tick (run_interest before).scheduled (reachable_jobsAbout before.reachable)

/-- A session with nothing left to publish has published the block around its cell. -/
theorem published_settled {peer : PeerId} {session : Session F} (inv : InterestInv trace server)
    (agree : SessionsAgree noStray server) (found : server.sessions.get? peer = some session)
    (settled : server.sessionHasAoiWork peer = false) :
    ∃ cell, session.cell = some cell ∧
      session.publishedCells = (World.cellsInRadius cell server.cfg.aoiRadiusI32).toFinset := by
  obtain ⟨cell, here, -, center⟩ := agree.cells peer session found
  refine ⟨cell, here, ?_⟩
  rw [← (inv.blocks peer session found).cells cell center]
  simp only [sessionHasAoiWork, found, Bool.or_eq_false_iff, decide_eq_false_iff_not, not_not] at settled
  exact settled.1.1

/-- Whatever moved meanwhile, a client that folds the updates of its session sees what is published. -/
theorem interest_updates_replay (fits : AoiPacketsFit F) (run : Run db trace server pending) (peer : PeerId)
    (session : Session F) (found : server.sessions.get? peer = some session) :
    replay ∅ (updatesSinceJoin peer trace) = session.publishedCells ∧
      Faithful aoiCellsPerUpdate ∅ (updatesSinceJoin peer trace) ∧
      (server.sessionHasAoiWork peer = false → ∃ center, session.cell = some center ∧
        (∀ cell, cell ∈ session.publishedCells ↔
          cell.chebyshevDistance center ≤ server.cfg.aoiRadiusI32) ∧
        session.publishedCells.card = (2 * server.cfg.aoiRadiusI32 + 1) ^ 2) := by
  have inv := run_interest run
  obtain ⟨view, faithful⟩ := inv.told fits peer session found
  refine ⟨view, faithful, fun settled => ?_⟩
  obtain ⟨center, here, block⟩ := published_settled inv run.inv.agree found settled
  refine ⟨center, here, fun cell => ?_, ?_⟩
  · rw [block, List.mem_toFinset, World.mem_cellsInRadius]
  · rw [block, World.card_cellsInRadius]

theorem aoiPacketsFit_hello : AoiPacketsFit Int := by
  intro seq added removed _
  simp [Codec.encode, encodedBytes]
  decide

def shownServer : Server Int := (Tick.aoi fun _ => false).run joinedServer

theorem interest_updates_replay_shown :
    ∃ trace session, Run emptyDb trace shownServer [] ∧ shownServer.sessions.get? 1 = some session ∧
      session.publishedCells.card = 25 ∧ replay ∅ (updatesSinceJoin 1 trace) = session.publishedCells := by
  obtain ⟨trace, run⟩ := exists_run (Reachable.tick (.aoi fun _ => false) joinedServer_reached)
  have shown : (shownServer.sessions.get? 1).map (fun session => session.publishedCells.card) = some 25 := by
    decide +kernel
  obtain ⟨session, found, block⟩ := Option.map_eq_some_iff.mp shown
  exact ⟨trace, session, run, found, block, (interest_updates_replay aoiPacketsFit_hello run 1 session found).1⟩

/-- Between any two calls, every session with work left is scheduled and its hydration is within its interest. -/
theorem interest_work_kept (reached : Reachable db server pending) :
    (∀ peer, server.sessionHasAoiWork peer = true → peer ∈ server.aoiRecipients) ∧
      ∀ peer session, server.sessions.get? peer = some session →
        session.hydrationCells ⊆ session.publishedCells ∧
          ∀ active, session.activeHydration = some active →
            active.cell ∈ session.publishedCells ∧ active.cell ∉ session.hydrationCells := by
  obtain ⟨trace, run⟩ := exists_run reached
  have inv := run_interest run
  exact ⟨inv.scheduled, fun peer session found =>
    ⟨(inv.tidy peer session found).waiting, (inv.tidy peer session found).active⟩⟩

theorem interest_work_kept_shown :
    shownServer.sessionHasAoiWork 1 = true ∧ 1 ∈ shownServer.aoiRecipients := by
  have work : shownServer.sessionHasAoiWork 1 = true := by decide +kernel
  have reached := Reachable.tick (.aoi fun _ => false) joinedServer_reached
  exact ⟨work, (interest_work_kept reached).1 1 work⟩

end Runs
end SailwindOnline.Interest
