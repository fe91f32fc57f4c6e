import Mathlib.Algebra.Order.BigOperators.Group.List
import Mathlib.Algebra.Order.Group.Nat
import SailwindOnline.Fanout

/-!
The bounds of the fanout queues over whole runs. Chat waits in a queue bounded
by items and bytes, the clock in one slot, and the audiences they were captured
for are shared with each other and with a cache: at most one audience more than
the jobs that wait is retained. A call with any budgets keeps within them and
ends, and with both budgets left it has emptied the queues.
-/

namespace SailwindOnline.FanoutBounds
open Server SessionIndex SessionRuns OrderedSet Effects TickEffects Traces Fanout

/-! Audiences, each allocation once. -/

def noteAudience (seen : List Audience) (audience : Audience) : List Audience :=
  if seen.any (fun known => known.tag = audience.tag) then seen else seen ++ [audience]

theorem noteAudience_length (seen : List Audience) (audience : Audience) :
    (noteAudience seen audience).length ≤ seen.length + 1 := by
  unfold noteAudience
  split <;> simp

theorem noteAudience_mem {seen : List Audience} {audience other : Audience}
    (member : other ∈ noteAudience seen audience) : other ∈ seen ∨ other = audience := by
  unfold noteAudience at member
  split at member
  · exact .inl member
  · simpa using member

theorem noteAudience_seen {seen : List Audience} {audience other : Audience} (member : other ∈ seen) :
    other ∈ noteAudience seen audience := by
  unfold noteAudience
  split
  · exact member
  · exact List.mem_append_left _ member

theorem distinct_mem {seen audiences : List Audience} {audience : Audience}
    (member : audience ∈ audiences.foldl noteAudience seen) : audience ∈ seen ∨ audience ∈ audiences := by
  induction audiences generalizing seen with
  | nil => exact .inl member
  | cons first rest ih =>
      rcases ih member with noted | later
      · rcases noteAudience_mem noted with old | rfl
        · exact .inl old
        · exact .inr List.mem_cons_self
      · exact .inr (List.mem_cons_of_mem _ later)

theorem distinct_length (seen audiences : List Audience) :
    (audiences.foldl noteAudience seen).length ≤ seen.length + audiences.length := by
  induction audiences generalizing seen with
  | nil => exact Nat.le_refl _
  | cons first rest ih =>
      have noted := noteAudience_length seen first
      have later := ih (noteAudience seen first)
      rw [List.length_cons, List.foldl_cons]
      omega

/-- An audience seen already counts for nothing when it comes again. -/
theorem distinct_length_repeated {seen audiences : List Audience} {audience : Audience} (known : audience ∈ seen)
    (again : audience ∈ audiences) :
    (audiences.foldl noteAudience seen).length < seen.length + audiences.length := by
  induction audiences generalizing seen with
  | nil => cases again
  | cons first rest ih =>
      rw [List.length_cons, List.foldl_cons]
      rcases List.mem_cons.mp again with rfl | later
      · have same : noteAudience seen audience = seen := if_pos (by simpa using ⟨audience, known, rfl⟩)
        rw [same]
        have rest_length := distinct_length seen rest
        omega
      · have noted := noteAudience_length seen first
        have still : audience ∈ noteAudience seen first := noteAudience_seen known
        have shorter := ih still later
        omega

section Bounds
variable {F : Type} [Platform F] {server : Server F}

theorem retained_eq (server : Server F) : server.retainedFanoutAudienceEntries =
    ((server.retainedAudiences.foldl noteAudience []).map fun audience => audience.recipients.length).sum := rfl

/-- At most `count` audiences of at most `peers` recipients each. -/
theorem retained_le {peers count : Nat}
    (small : ∀ audience ∈ server.retainedAudiences, audience.recipients.length ≤ peers)
    (few : (server.retainedAudiences.foldl noteAudience []).length ≤ count) :
    server.retainedFanoutAudienceEntries ≤ count * peers := by
  rw [retained_eq]
  have each : ∀ entries ∈ (server.retainedAudiences.foldl noteAudience []).map
      (fun audience => audience.recipients.length), entries ≤ peers := by
    intro entries member
    obtain ⟨audience, kept, rfl⟩ := List.mem_map.mp member
    exact small audience ((distinct_mem kept).resolve_left List.not_mem_nil)
  calc _ ≤ ((server.retainedAudiences.foldl noteAudience []).map
        (fun audience => audience.recipients.length)).length * peers := List.sum_le_card_nsmul _ peers each
    _ ≤ count * peers := Nat.mul_le_mul_right peers (by rwa [List.length_map])

/-! What holds of the queues after every stage. -/

variable [Codec F]

structure Bounded (server : Server F) : Prop where
  bytes : server.chatFanoutBytes = (server.chatFanout.map fun job => encodedLength job.envelope).sum
  items : server.chatFanout.length ≤ chatQueueItems
  small : ∀ job ∈ server.chatFanout, encodedLength job.envelope ≤ payloadLimit
  progress : ∀ clock, ∀ job ∈ laneOf server clock, job.nextRecipient ≤ job.audience.recipients.length
  audiences : ∀ audience ∈ server.retainedAudiences, audience.recipients.length ≤ maxTransportPeersCeiling
  -- The job a cached audience was captured for leaves room in a queue when it goes.
  shared : ∀ audience, server.fanoutAudienceCache = some audience → server.chatFanout.length < chatQueueItems ∨
    server.clockFanout = none ∨
    audience ∈ server.chatFanout.map FanoutJob.audience ++ server.clockFanout.toList.map FanoutJob.audience

theorem Bounded.bytes_le (bounded : Bounded server) :
    server.chatFanoutBytes ≤ server.chatFanout.length * payloadLimit := by
  rw [bounded.bytes]
  have each : ∀ length ∈ server.chatFanout.map (fun job => encodedLength job.envelope), length ≤ payloadLimit := by
    intro length member
    obtain ⟨job, queued, rfl⟩ := List.mem_map.mp member
    exact bounded.small job queued
  calc _ ≤ (server.chatFanout.map fun job => encodedLength job.envelope).length * payloadLimit :=
        List.sum_le_card_nsmul _ payloadLimit each
    _ = server.chatFanout.length * payloadLimit := by rw [List.length_map]

/-- One audience more than the chat queue holds, at most. -/
theorem Bounded.retained (bounded : Bounded server) :
    server.retainedFanoutAudienceEntries ≤ fanoutQueueRecipients := by
  apply retained_le bounded.audiences
  have items := bounded.items
  have slot : server.clockFanout.toList.length ≤ 1 := Option.length_toList_le
  unfold retainedAudiences
  cases cached : server.fanoutAudienceCache with
  | none =>
      have counted := distinct_length []
        (server.chatFanout.map FanoutJob.audience ++ server.clockFanout.toList.map FanoutJob.audience)
      simp only [List.length_append, List.length_map, List.length_nil] at counted
      simp only [Option.toList_none, List.nil_append]
      omega
  | some audience =>
      rw [List.append_assoc, Option.toList_some, List.singleton_append, List.foldl_cons,
        show noteAudience [] audience = [audience] from rfl]
      have counted := distinct_length [audience]
        (server.chatFanout.map FanoutJob.audience ++ server.clockFanout.toList.map FanoutJob.audience)
      rcases bounded.shared audience cached with room | idle | again
      · simp only [List.length_append, List.length_map, List.length_singleton] at counted
        omega
      · simp only [idle, Option.toList_none, List.length_append, List.length_map, List.length_singleton,
          List.length_nil, List.map_nil] at counted ⊢
        omega
      · have repeated := distinct_length_repeated (List.mem_singleton_self audience) again
        simp only [List.length_append, List.length_map, List.length_singleton] at repeated
        omega

/-- A chat message below the item cap is below the byte cap. -/
theorem Bounded.room (bounded : Bounded server) (room : server.chatFanout.length < chatQueueItems) :
    server.chatFanoutBytes ≤ chatQueueBytes - payloadLimit := by
  have bytes := bounded.bytes_le
  have fewer : server.chatFanout.length * payloadLimit ≤ (chatQueueItems - 1) * payloadLimit :=
    Nat.mul_le_mul_right _ (by omega)
  rw [Nat.sub_mul, Nat.one_mul] at fewer
  exact bytes.trans fewer

/-- Where the recipients are captured, one audience fewer is retained: no capture is refused for its size. -/
theorem Bounded.free (bounded : Bounded server) (uncached : server.fanoutAudienceCache = none)
    (room : server.chatFanout.length < chatQueueItems ∨ server.clockFanout = none) :
    server.retainedFanoutAudienceEntries ≤ chatQueueItems * maxTransportPeersCeiling := by
  apply retained_le bounded.audiences
  have items := bounded.items
  have slot : server.clockFanout.toList.length ≤ 1 := Option.length_toList_le
  have counted := distinct_length []
    (server.chatFanout.map FanoutJob.audience ++ server.clockFanout.toList.map FanoutJob.audience)
  simp only [retainedAudiences, uncached, Option.toList_none, List.nil_append]
  simp only [List.length_append, List.length_map, List.length_nil] at counted
  rcases room with room | idle
  · omega
  · simp only [idle, Option.toList_none, List.length_nil] at counted ⊢
    omega

omit [Codec F] in
theorem currentRecipients_length (server : Server F) :
    server.currentRecipients.length ≤ maxTransportPeersCeiling := by
  have few : server.currentRecipients.length ≤ server.cfg.maxTransportPeersUsize := List.length_take_le _ _
  refine few.trans ?_
  simp only [Config.maxTransportPeersUsize, clampNat, maxTransportPeersCeiling]
  omega

variable {after : Server F}

theorem Bounded.of_same (bounded : Bounded server) (chat : after.chatFanout = server.chatFanout)
    (bytes : after.chatFanoutBytes = server.chatFanoutBytes) (clock : after.clockFanout = server.clockFanout)
    (cached : after.fanoutAudienceCache = none ∨ after.fanoutAudienceCache = server.fanoutAudienceCache) :
    Bounded after where
  bytes := by rw [chat, bytes, bounded.bytes]
  items := by rw [chat]; exact bounded.items
  small := by rw [chat]; exact bounded.small
  progress lane := by
    have same : laneOf after lane = laneOf server lane := by simp [laneOf, chat, clock]
    rw [same]
    exact bounded.progress lane
  audiences audience member := by
    apply bounded.audiences
    unfold retainedAudiences at member ⊢
    rw [chat, clock] at member
    rcases cached with dropped | same
    · rw [dropped] at member
      simp only [Option.toList_none, List.nil_append, List.append_assoc] at member ⊢
      exact List.mem_append_right _ member
    · rwa [same] at member
  shared audience held := by
    rw [chat, clock]
    rcases cached with dropped | same
    · rw [dropped] at held
      cases held
    · exact bounded.shared audience (same ▸ held)

omit [Codec F] in
theorem retained_mem {audience : Audience} : audience ∈ server.retainedAudiences ↔
    server.fanoutAudienceCache = some audience ∨ (∃ job ∈ server.chatFanout, job.audience = audience) ∨
      ∃ job, server.clockFanout = some job ∧ job.audience = audience := by
  simp [retainedAudiences]

/-- Capturing the recipients where a job is about to be queued. -/
theorem Bounded.captured (bounded : Bounded server) {audience : Audience}
    (source : CapturedFrom server audience)
    (room : server.chatFanout.length < chatQueueItems ∨ server.clockFanout = none)
    (chat : after.chatFanout = server.chatFanout) (bytes : after.chatFanoutBytes = server.chatFanoutBytes)
    (clock : after.clockFanout = server.clockFanout) (cached : after.fanoutAudienceCache = some audience) :
    Bounded after := by
  have uncached : Bounded { after with fanoutAudienceCache := none } := bounded.of_same chat bytes clock (.inl rfl)
  refine { uncached with audiences := ?_, shared := ?_ }
  · intro other member
    rw [retained_mem, cached, chat, clock] at member
    rcases member with own | queued
    · cases own
      rcases source with held | ⟨-, fresh⟩
      · exact bounded.audiences audience (retained_mem.mpr (.inl held))
      · rw [fresh]
        exact currentRecipients_length server
    · exact bounded.audiences other (retained_mem.mpr (.inr queued))
  · intro other held
    rw [chat, clock]
    exact room.imp_right .inl

/-- A message joins the chat queue for the audience in the cache. -/
theorem Bounded.spoke (bounded : Bounded server) {job : FanoutJob F}
    (cached : server.fanoutAudienceCache = some job.audience) (room : server.chatFanout.length < chatQueueItems)
    (small : encodedLength job.envelope ≤ payloadLimit) (fresh : job.nextRecipient = 0)
    (chat : after.chatFanout = server.chatFanout ++ [job])
    (bytes : after.chatFanoutBytes = server.chatFanoutBytes + encodedLength job.envelope)
    (clock : after.clockFanout = server.clockFanout)
    (held : after.fanoutAudienceCache = server.fanoutAudienceCache) : Bounded after where
  bytes := by rw [chat, bytes, bounded.bytes]; simp
  items := by
    rw [chat, List.length_append, List.length_singleton]
    exact room
  small other member := by
    rw [chat] at member
    rcases List.mem_append.mp member with old | new
    · exact bounded.small other old
    · rw [List.mem_singleton.mp new]
      exact small
  progress lane other member := by
    cases lane with
    | true =>
        have old : other ∈ laneOf server true := by simpa [laneOf, clock] using member
        exact bounded.progress true other old
    | false =>
        rcases List.mem_append.mp (show other ∈ server.chatFanout ++ [job] from chat ▸ member) with old | new
        · exact bounded.progress false other old
        · rw [List.mem_singleton.mp new, fresh]
          exact Nat.zero_le _
  audiences audience member := by
    apply bounded.audiences
    rw [retained_mem, held, chat, clock] at member
    rw [retained_mem]
    rcases member with kept | ⟨other, queued, same⟩ | slot
    · exact .inl kept
    · rcases List.mem_append.mp queued with old | new
      · exact .inr (.inl ⟨other, old, same⟩)
      · rw [List.mem_singleton.mp new] at same
        exact .inl (same ▸ cached)
    · exact .inr (.inr slot)
  shared audience kept := by
    rw [held, cached] at kept
    cases kept
    rw [chat]
    exact .inr (.inr (by simp))

/-- A clock takes the free slot for the audience in the cache. -/
theorem Bounded.clocked (bounded : Bounded server) {job : FanoutJob F}
    (cached : server.fanoutAudienceCache = some job.audience) (fresh : job.nextRecipient = 0)
    (chat : after.chatFanout = server.chatFanout) (bytes : after.chatFanoutBytes = server.chatFanoutBytes)
    (clock : after.clockFanout = some job) (held : after.fanoutAudienceCache = server.fanoutAudienceCache) :
    Bounded after where
  bytes := by rw [chat, bytes, bounded.bytes]
  items := by rw [chat]; exact bounded.items
  small := by rw [chat]; exact bounded.small
  progress lane other member := by
    cases lane with
    | true =>
        have own : other = job := by simpa [laneOf, clock] using member
        rw [own, fresh]
        exact Nat.zero_le _
    | false =>
        have old : other ∈ laneOf server false := by simpa [laneOf, chat] using member
        exact bounded.progress false other old
  audiences audience member := by
    apply bounded.audiences
    rw [retained_mem, held, chat, clock] at member
    rw [retained_mem]
    rcases member with kept | queued | ⟨other, own, same⟩
    · exact .inl kept
    · exact .inr (.inl queued)
    · cases own
      exact .inl (same ▸ cached)
  shared audience kept := by
    rw [held, cached] at kept
    cases kept
    rw [clock]
    exact .inr (.inr (by simp))

theorem Bounded.cleared (chat : after.chatFanout = []) (bytes : after.chatFanoutBytes = 0)
    (clock : after.clockFanout = none) (cached : after.fanoutAudienceCache = none) : Bounded after where
  bytes := by rw [chat, bytes]; rfl
  items := by rw [chat]; exact Nat.zero_le _
  small := by rw [chat]; simp
  progress lane := by simp [laneOf, chat, clock]
  audiences := by simp [retainedAudiences, chat, clock, cached]
  shared := by simp [cached]

/-! Working on the queues. -/

/-- A job in the queues goes on: its message and its audience stay. -/
theorem Bounded.examined (bounded : Bounded server)
    (envelopes : after.chatFanout.map FanoutJob.envelope = server.chatFanout.map FanoutJob.envelope)
    (audiences : after.chatFanout.map FanoutJob.audience = server.chatFanout.map FanoutJob.audience)
    (slot : after.clockFanout.map FanoutJob.audience = server.clockFanout.map FanoutJob.audience)
    (bytes : after.chatFanoutBytes = server.chatFanoutBytes)
    (cached : after.fanoutAudienceCache = server.fanoutAudienceCache)
    (progress : ∀ clock, ∀ job ∈ laneOf after clock, job.nextRecipient ≤ job.audience.recipients.length) :
    Bounded after where
  bytes := by
    have lengths := congrArg (List.map encodedLength) envelopes
    simp only [List.map_map, Function.comp_def] at lengths
    rw [bytes, bounded.bytes, lengths]
  items := by
    have long := congrArg List.length envelopes
    simp only [List.length_map] at long
    exact long ▸ bounded.items
  small job member := by
    have listed : job.envelope ∈ server.chatFanout.map FanoutJob.envelope :=
      envelopes ▸ List.mem_map_of_mem member
    obtain ⟨old, queued, same⟩ := List.mem_map.mp listed
    rw [← same]
    exact bounded.small old queued
  progress := progress
  audiences audience member := by
    apply bounded.audiences
    have slots := congrArg Option.toList slot
    simp only [Option.toList_map] at slots
    unfold retainedAudiences at member ⊢
    rwa [audiences, cached, slots] at member
  shared audience held := by
    have long := congrArg List.length envelopes
    have slots := congrArg Option.toList slot
    have idle : after.clockFanout = none ↔ server.clockFanout = none := by
      rw [← Option.map_eq_none_iff, slot, Option.map_eq_none_iff]
    simp only [List.length_map, Option.toList_map] at long slots
    rw [audiences, slots, long, idle]
    exact bounded.shared audience (cached ▸ held)

/-- The clock slot is emptied. -/
theorem Bounded.idled (bounded : Bounded server) (chat : after.chatFanout = server.chatFanout)
    (bytes : after.chatFanoutBytes = server.chatFanoutBytes) (clock : after.clockFanout = none)
    (cached : after.fanoutAudienceCache = server.fanoutAudienceCache) : Bounded after where
  bytes := by rw [chat, bytes, bounded.bytes]
  items := by rw [chat]; exact bounded.items
  small := by rw [chat]; exact bounded.small
  progress lane job member := by
    cases lane with
    | true => simp [laneOf, clock] at member
    | false => exact bounded.progress false job (by simpa [laneOf, chat] using member)
  audiences audience member := by
    apply bounded.audiences
    rw [retained_mem, cached, chat, clock] at member
    rw [retained_mem]
    exact member.imp_right fun queued => .inl (queued.resolve_right (by simp))
  shared _ _ := .inr (.inl clock)

/-- The first chat message is done with. -/
theorem Bounded.popped (bounded : Bounded server) {job : FanoutJob F}
    (chat : server.chatFanout = job :: after.chatFanout)
    (bytes : after.chatFanoutBytes = server.chatFanoutBytes - encodedLength job.envelope)
    (clock : after.clockFanout = server.clockFanout)
    (cached : after.fanoutAudienceCache = server.fanoutAudienceCache) : Bounded after where
  bytes := by
    rw [bytes, bounded.bytes, chat, List.map_cons, List.sum_cons, Nat.add_sub_cancel_left]
  items := by
    have items := bounded.items
    rw [chat, List.length_cons] at items
    omega
  small other member := bounded.small other (chat ▸ List.mem_cons_of_mem _ member)
  progress lane other member := by
    cases lane with
    | true => exact bounded.progress true other (by simpa [laneOf, clock] using member)
    | false => exact bounded.progress false other (by simpa [laneOf, chat] using .inr member)
  audiences audience member := by
    apply bounded.audiences
    rw [retained_mem, cached, clock] at member
    rw [retained_mem, chat]
    refine member.imp_right fun queued => queued.imp_left ?_
    rintro ⟨other, later, same⟩
    exact ⟨other, List.mem_cons_of_mem _ later, same⟩
  shared _ _ := by
    have items := bounded.items
    rw [chat, List.length_cons] at items
    exact .inl items

theorem Bounded.fanoutStep (bounded : Bounded server) {note : FanoutNote} (step : FanoutStep server note after) :
    Bounded after := by
  cases step with
  | @examined taken fromClock job recipient inHand next =>
      subst inHand
      obtain ⟨further, -⟩ := List.getElem?_eq_some_iff.mp next
      cases fromClock with
      | true =>
          refine bounded.examined rfl rfl rfl rfl rfl fun lane other member => ?_
          cases lane with
          | false => exact bounded.progress false other member
          | true =>
              rw [List.mem_singleton.mp member]
              exact further
      | false =>
          refine bounded.examined rfl rfl rfl rfl rfl fun lane other member => ?_
          cases lane with
          | true => exact bounded.progress true other member
          | false =>
              rcases List.mem_cons.mp member with rfl | later
              · exact further
              · exact bounded.progress false other (List.mem_cons_of_mem _ later)
  | @finished taken fromClock job inHand only complete =>
      subst inHand
      cases fromClock with
      | true => exact bounded.idled rfl rfl (only rfl) rfl
      | false => exact bounded.popped rfl rfl rfl rfl

theorem Bounded.fanoutRun (bounded : Bounded server) {notes : List FanoutNote} (run : FanoutRun server notes after) :
    Bounded after := by
  induction run with
  | done => exact bounded
  | step first _ ih => exact ih (bounded.fanoutStep first)

/-! Every stage keeps the bounds. -/

theorem clock_bounded (bounded : Bounded server) (clockMs : Int64) : Bounded (server.broadcastClock clockMs) := by
  have idle : Bounded ({ server with seq := server.seq + 1, clockFanout := none } : Server F) :=
    bounded.idled rfl rfl rfl rfl
  unfold broadcastClock
  rcases captureFanoutRecipients_spec { server with seq := server.seq + 1, clockFanout := none } with
    nobody | ⟨audience, nextAudience, source, captured⟩
  · simp only [nobody]
    exact idle
  · simp only [captured]
    have taken : Bounded ({ server with
        seq := server.seq + 1
        clockFanout := none
        fanoutAudienceCache := some audience
        nextAudience } : Server F) := idle.captured source (.inr rfl) rfl rfl rfl rfl
    exact taken.clocked rfl rfl rfl rfl rfl rfl

theorem tick_bounded (bounded : Bounded server) (tick : Tick) : Bounded (tick.run server) := by
  cases tick with
  | aoi fails =>
      have frame := (processAoiWork_effect server fails).frame
      exact bounded.of_same (congrArg Server.chatFanout frame :) (congrArg Server.chatFanoutBytes frame :)
        (congrArg Server.clockFanout frame :) (.inr (congrArg Server.fanoutAudienceCache frame :))
  | snapshots =>
      have frame := (broadcastSnapshots_effect server).frame
      exact bounded.of_same (congrArg Server.chatFanout frame :) (congrArg Server.chatFanoutBytes frame :)
        (congrArg Server.clockFanout frame :) (.inr (congrArg Server.fanoutAudienceCache frame :))
  | fanout => exact bounded.fanoutRun (processFanoutWork_run server)
  | dirtyFlush fails now =>
      have frame := (processDirtyFlushAt_effect server fails now).frame
      exact bounded.of_same (congrArg Server.chatFanout frame :) (congrArg Server.chatFanoutBytes frame :)
        (congrArg Server.clockFanout frame :) (.inr (congrArg Server.fanoutAudienceCache frame :))
  | beginFlush => exact bounded.of_same rfl rfl rfl (.inr rfl)
  | clock clockMs => exact clock_bounded bounded clockMs

theorem calm_bounded (bounded : Bounded server) (frame : calmFrame after = calmFrame server) : Bounded after :=
  bounded.of_same (congrArg Server.chatFanout frame :) (congrArg Server.chatFanoutBytes frame :)
    (congrArg Server.clockFanout frame :) (.inr (congrArg Server.fanoutAudienceCache frame :))

theorem joined_bounded {base middle numbered : Server F} {player : UInt64} {generation : UInt64}
    (bounded : Bounded base) (peer : PeerId) (session : Session F) (reply : ServerHello F)
    (superseded : Superseded base player middle)
    (numbering : Numbered (placedAtOrigin middle player) numbered generation) :
    Bounded (entered numbered peer session reply) := by
  cases superseded <;> cases numbering
  · exact bounded.of_same rfl rfl rfl (.inl rfl)
  · exact .cleared rfl rfl rfl rfl
  · exact bounded.of_same rfl rfl rfl (.inl rfl)
  · exact .cleared rfl rfl rfl rfl

theorem hello_bounded {moment : Moment} {peer : PeerId} {hello : ClientHello} {result : Except ServerError Unit}
    (bounded : Bounded server) (effect : HelloEffect server moment peer hello (after, result)) : Bounded after := by
  cases effect with
  | silent charges storage => exact calm_bounded bounded (charged_calm charges).1
  | answered charges other =>
      exact (calm_bounded bounded (charged_calm charges).1).of_same rfl rfl rfl (.inr rfl)
  | full gated unknown crowded =>
      have frame := (charged_calm (.identity gated.presented gated.fresh)).1
      exact (calm_bounded bounded frame).of_same rfl rfl rfl (.inr rfl)
  | faulted gated admitted fault =>
      have frame := (charged_calm (.identity gated.presented gated.fresh)).1
      exact (calm_bounded bounded frame).of_same rfl rfl rfl (.inr rfl)
  | repeated found greets => exact bounded.of_same rfl rfl rfl (.inr rfl)
  | @joined identityHash name ip row db middle numbered generation reply gated admitted consistent superseded
      numbering greets =>
      have frame := (enrolled_calm server moment peer ip identityHash row.id.toUInt64 db).1
      have base : Bounded (enrolled server moment peer ip identityHash row.id.toUInt64 db) :=
        (calm_bounded bounded frame).of_same rfl rfl rfl (.inr rfl)
      exact joined_bounded base _ _ _ superseded numbering

omit [Codec F] in
theorem onClientState_queues (server : Server F) (moment : Moment) (peer : PeerId) (state : ClientState F) :
    (server.onClientState moment peer state).chatFanout = server.chatFanout ∧
      (server.onClientState moment peer state).chatFanoutBytes = server.chatFanoutBytes ∧
      (server.onClientState moment peer state).clockFanout = server.clockFanout ∧
      (server.onClientState moment peer state).fanoutAudienceCache = server.fanoutAudienceCache := by
  unfold onClientState
  split
  · exact ⟨rfl, rfl, rfl, rfl⟩
  simp only
  split
  · exact ⟨rfl, rfl, rfl, rfl⟩
  split
  · exact ⟨rfl, rfl, rfl, rfl⟩
  · unfold emitAoi scheduleAoi
    split
    · exact ⟨rfl, rfl, rfl, rfl⟩
    · split <;> exact ⟨rfl, rfl, rfl, rfl⟩

/-- A chat message that gets past the queue's cap fits the queue. -/
theorem chat_bounded (bounded : Bounded server) (moment : Moment) (peer : PeerId) (chat : ChatSend) :
    Bounded (server.onChat moment peer chat) := by
  unfold onChat
  cases server.sessions.get? peer with
  | none => exact bounded
  | some session =>
      have charged (seq : UInt32) : Bounded ({ server with
          chatLimiter := (server.chatLimiter.allow session.playerId moment.admissionMs).1, seq } : Server F) :=
        bounded.of_same rfl rfl rfl (.inr rfl)
      dsimp only
      split
      · exact bounded
      split
      · exact bounded
      split
      · exact bounded
      rename_i room
      rw [not_or, Nat.not_le] at room
      split
      · exact charged _
      unfold queueChat
      split
      · exact charged _
      rename_i short
      rcases captureFanoutRecipients_spec { server with
          chatLimiter := (server.chatLimiter.allow session.playerId moment.admissionMs).1, seq := server.seq + 1 } with
        nobody | ⟨audience, nextAudience, source, captured⟩
      · simp only [nobody]
        exact charged _
      · simp only [captured]
        have taken : Bounded ({ server with
            chatLimiter := (server.chatLimiter.allow session.playerId moment.admissionMs).1
            seq := server.seq + 1
            fanoutAudienceCache := some audience
            nextAudience } : Server F) := (charged _).captured source (.inl room.1) rfl rfl rfl rfl
        exact taken.spoke rfl room.1 (Nat.not_lt.mp short) rfl rfl rfl rfl rfl

theorem data_bounded {pending : List Event} (inv : Inv pending server) (bounded : Bounded server) (moment : Moment)
    (peer : PeerId) (bytes : WireProtocol.Bytes) : Bounded (server.handleDataAt moment peer bytes).1 := by
  have served {request : Handled F} (idle : server.sessions.get? peer = none → request.1 = server)
      (busy : ∀ session, server.sessions.get? peer = some session → Served server session request.1) :
      Bounded request.1 := by
    cases found : server.sessions.get? peer with
    | none =>
        rw [idle found]
        exact bounded
    | some session => exact calm_bounded bounded (congrArg helloFrame (busy session found).frame)
  unfold handleDataAt
  split
  · exact bounded
  · exact hello_bounded bounded (onHelloAt_effect inv moment _)
  · obtain ⟨chat, bytes, clock, cached⟩ := onClientState_queues server moment peer _
    exact bounded.of_same chat bytes clock (.inr cached)
  · exact served (fun vacant => by simp [onEcon, vacant]) fun session found => onEcon_served moment _ found
  · exact served (fun vacant => by simp [onTrade, vacant]) fun session found => onTrade_served moment _ found
  · exact served (fun vacant => by simp [onMoor, vacant]) fun session found => onMoor_served moment _ found
  · exact chat_bounded bounded moment peer _

theorem event_bounded {pending : List Event} (inv : Inv pending server) (bounded : Bounded server) (moment : Moment)
    (event : Event) : Bounded (server.handleEvent moment event).1 := by
  cases event with
  | connected peer => exact bounded
  | data peer bytes => exact data_bounded inv bounded moment peer bytes
  | disconnected peer reason =>
      have outcome := handleEvent_outcome inv moment (.disconnected peer reason)
      generalize (server.handleEvent moment (.disconnected peer reason)).1 = after at outcome
      cases outcome with
      | calm frame posts kept => exact calm_bounded bounded frame
      | left found => exact bounded.of_same rfl rfl rfl (.inl rfl)

theorem reachable_bounded {db : Persistence.Db F} {pending : List Event} (reached : Reachable db server pending) :
    Bounded server := by
  induction reached with
  | start opened =>
      obtain ⟨identityPlayers, -, rfl⟩ := new_opened opened
      exact .cleared rfl rfl rfl rfl
  | poll now script _ polled ih => exact ih.of_same rfl rfl rfl (.inr rfl)
  | handle moment reached ih => exact event_bounded reached.inv ih moment _
  | tick tick _ ih => exact tick_bounded ih tick

/-! A call with its counters, turn by turn of the outer loop. -/

structure FanoutTickWork where
  recipientScans : Nat := 0
  sends : Nat := 0
  encodedBytes : Nat := 0
  jobsCompleted : Nat := 0

/-- The inner loop, over the recipients the job has left. -/
def scanRecipients (recipientScanBudget sendBudget : Nat) (server : Server F) (job : FanoutJob F) :
    List FanoutRecipient → FanoutTickWork → Server F × FanoutJob F × FanoutTickWork
  | [], work => (server, job, work)
  | recipient :: rest, work =>
    if work.recipientScans < recipientScanBudget ∧ work.sends < sendBudget then
      let job := { job with nextRecipient := job.nextRecipient + 1 }
      let work := { work with recipientScans := work.recipientScans + 1 }
      if server.shouldSend job recipient then
        let server := { server with sent := server.sent ++ [(recipient.peer, job.envelope)] }
        let work :=
          { work with
            sends := work.sends + 1
            encodedBytes := work.encodedBytes + encodedLength job.envelope }
        scanRecipients recipientScanBudget sendBudget server job rest work
      else scanRecipients recipientScanBudget sendBudget server job rest work
    else (server, job, work)

/-- How a turn of the outer loop ends. -/
inductive FanoutTurn (F : Type) [Platform F] where
  | returned (server : Server F) (work : FanoutTickWork)
  | completed (server : Server F) (work : FanoutTickWork)
  | requeued (server : Server F) (work : FanoutTickWork)

def fanoutTurn (recipientScanBudget sendBudget : Nat) (server : Server F) (work : FanoutTickWork) : FanoutTurn F :=
  if work.recipientScans < recipientScanBudget ∧ work.sends < sendBudget then
    let fromClock := server.clockFanout.isSome && (server.fanoutPreferClock || server.chatFanout.isEmpty)
    match server.takeFanoutJob fromClock with
    | (server, none) =>
      if server.clockFanout.isNone && server.chatFanout.isEmpty then .returned server work
      else .requeued { server with fanoutPreferClock := !server.fanoutPreferClock } work
    | (server, some job) =>
      match scanRecipients recipientScanBudget sendBudget server job
        (job.audience.recipients.drop job.nextRecipient) work with
      | (server, job, work) =>
        if job.nextRecipient = job.audience.recipients.length then
          .completed (server.finishFanoutJob fromClock job) { work with jobsCompleted := work.jobsCompleted + 1 }
        else .returned (server.returnFanoutJob fromClock job) work
  else .returned server work

/-- The outer loop comes to its end without a turn that puts a queue off. -/
inductive FanoutLoop (recipientScanBudget sendBudget : Nat) :
    Server F → FanoutTickWork → Server F → FanoutTickWork → Prop
  | returned {server after : Server F} {work done : FanoutTickWork}
      (turn : fanoutTurn recipientScanBudget sendBudget server work = .returned after done) :
      FanoutLoop recipientScanBudget sendBudget server work after done
  | completed {server middle after : Server F} {work more done : FanoutTickWork}
      (turn : fanoutTurn recipientScanBudget sendBudget server work = .completed middle more)
      (later : FanoutLoop recipientScanBudget sendBudget middle more after done) :
      FanoutLoop recipientScanBudget sendBudget server work after done

/-- The counters of the loop are what the call has spent of its budgets. -/
structure Within (recipientScanBudget sendBudget : Nat) (work : FanoutTickWork) : Prop where
  scans : work.recipientScans ≤ recipientScanBudget
  sends : work.sends ≤ sendBudget

def FanoutTickWork.left (work : FanoutTickWork) (recipientScanBudget sendBudget : Nat) : FanoutBudget :=
  { scans := recipientScanBudget - work.recipientScans, sends := sendBudget - work.sends }

structure Scanned (recipientScanBudget sendBudget : Nat) (server : Server F) (job : FanoutJob F)
    (rest : List FanoutRecipient) (work : FanoutTickWork) (after : Server F) (later : FanoutJob F)
    (done : FanoutTickWork) : Prop where
  same : server.fanoutRecipients job rest (work.left recipientScanBudget sendBudget) =
    (after, later, done.left recipientScanBudget sendBudget)
  within : Within recipientScanBudget sendBudget done
  audience : later.audience = job.audience
  spent : later.nextRecipient = job.nextRecipient + rest.length ∨ done.recipientScans = recipientScanBudget ∨
    done.sends = sendBudget

theorem scanRecipients_scanned {recipientScanBudget sendBudget : Nat} (rest : List FanoutRecipient)
    (server : Server F) (job : FanoutJob F) {work : FanoutTickWork}
    (within : Within recipientScanBudget sendBudget work) :
    Scanned recipientScanBudget sendBudget server job rest work
      (scanRecipients recipientScanBudget sendBudget server job rest work).1
      (scanRecipients recipientScanBudget sendBudget server job rest work).2.1
      (scanRecipients recipientScanBudget sendBudget server job rest work).2.2 := by
  induction rest generalizing server job work with
  | nil => exact ⟨rfl, within, rfl, .inl rfl⟩
  | cons recipient rest ih =>
      -- The source tests both budgets before each recipient; the abstract scan stops when either is spent.
      by_cases both : work.recipientScans < recipientScanBudget ∧ work.sends < sendBudget
      · have unspent : ¬ ((work.left recipientScanBudget sendBudget).scans = 0 ∨
            (work.left recipientScanBudget sendBudget).sends = 0) := by
          simp only [FanoutTickWork.left]
          omega
        rw [scanRecipients, if_pos both]
        cases wanted : server.shouldSend { job with nextRecipient := job.nextRecipient + 1 } recipient with
        | true =>
            have sending : Within recipientScanBudget sendBudget { work with
                recipientScans := work.recipientScans + 1
                sends := work.sends + 1
                encodedBytes := work.encodedBytes + encodedLength job.envelope } := ⟨both.1, both.2⟩
            have later := ih { server with sent := server.sent ++ [(recipient.peer, job.envelope)] }
              { job with nextRecipient := job.nextRecipient + 1 } sending
            simp only [wanted, if_true]
            refine ⟨?_, later.within, later.audience, later.spent.imp_left fun all => ?_⟩
            · rw [fanoutRecipients, if_neg unspent]
              simp only [wanted, if_true]
              exact later.same
            · refine all.trans ?_
              simp only [List.length_cons]
              omega
        | false =>
            have passing : Within recipientScanBudget sendBudget
                { work with recipientScans := work.recipientScans + 1 } := ⟨both.1, within.sends⟩
            have later := ih server { job with nextRecipient := job.nextRecipient + 1 } passing
            simp only [wanted, Bool.false_eq_true, if_false]
            refine ⟨?_, later.within, later.audience, later.spent.imp_left fun all => ?_⟩
            · rw [fanoutRecipients, if_neg unspent]
              simp only [wanted, Bool.false_eq_true, if_false]
              exact later.same
            · refine all.trans ?_
              simp only [List.length_cons]
              omega
      · have shut : (work.left recipientScanBudget sendBudget).scans = 0 ∨
            (work.left recipientScanBudget sendBudget).sends = 0 := by
          simp only [FanoutTickWork.left]
          omega
        rw [scanRecipients, if_neg both]
        refine ⟨by rw [fanoutRecipients, if_pos shut], within, rfl, .inr ?_⟩
        have scans := within.scans
        have sends := within.sends
        dsimp only
        omega

omit [Codec F] in
theorem laneOf_returned {fromClock clock : Bool} {taken : Server F} {job other : FanoutJob F}
    (only : fromClock = true → taken.clockFanout = none) (member : other ∈ laneOf taken clock) :
    other ∈ laneOf (taken.returnFanoutJob fromClock job) clock := by
  cases fromClock <;> cases clock
  · exact List.mem_cons_of_mem _ member
  · exact member
  · exact member
  · simp [laneOf, only rfl] at member

omit [Codec F] in
theorem job_returned (fromClock : Bool) (taken : Server F) (job : FanoutJob F) :
    job ∈ laneOf (taken.returnFanoutJob fromClock job) fromClock := by
  cases fromClock <;> simp [laneOf, returnFanoutJob]

/-- What a completed job leaves of the queues. -/
theorem laneOf_completed (fromClock clock : Bool) (server : Server F) (job later : FanoutJob F)
    (rest : List FanoutRecipient) (budget : FanoutBudget) :
    laneOf ((server.fanoutRecipients job rest budget).1.finishFanoutJob fromClock later) clock =
      laneOf server clock := by
  have chat := fanoutRecipients_chat rest server job budget
  have slot := fanoutRecipients_clock rest server job budget
  cases fromClock <;> simp [laneOf, finishFanoutJob, chat, slot]

omit [Codec F] in
theorem jobsWaiting_lanes (server : Server F) :
    jobsWaiting server = (laneOf server false).length + (laneOf server true).length := rfl

/-- Enough turns bring the loop to its end, within the budgets. What is left unspent is left for want of jobs. -/
theorem fanoutTurns_loop {recipientScanBudget sendBudget turns : Nat} {server : Server F} {work : FanoutTickWork}
    (enough : jobsWaiting server < turns) (within : Within recipientScanBudget sendBudget work)
    (progress : ∀ clock, ∀ job ∈ laneOf server clock, job.nextRecipient ≤ job.audience.recipients.length) :
    ∃ done, FanoutLoop recipientScanBudget sendBudget server work
        (fanoutTurns turns server (work.left recipientScanBudget sendBudget)) done ∧
      Within recipientScanBudget sendBudget done ∧
      (done.recipientScans < recipientScanBudget → done.sends < sendBudget →
        jobsWaiting (fanoutTurns turns server (work.left recipientScanBudget sendBudget)) = 0) := by
  induction turns generalizing server work with
  | zero => omega
  | succ turns ih =>
      by_cases both : work.recipientScans < recipientScanBudget ∧ work.sends < sendBudget
      swap
      · have shut : (work.left recipientScanBudget sendBudget).scans = 0 ∨
            (work.left recipientScanBudget sendBudget).sends = 0 := by
          simp only [FanoutTickWork.left]
          omega
        rw [fanoutTurns, if_pos shut]
        exact ⟨work, .returned (by rw [fanoutTurn, if_neg both]), within, fun scans sends => absurd ⟨scans, sends⟩ both⟩
      have unspent : ¬ ((work.left recipientScanBudget sendBudget).scans = 0 ∨
          (work.left recipientScanBudget sendBudget).sends = 0) := by
        simp only [FanoutTickWork.left]
        omega
      rw [fanoutTurns, if_neg unspent]
      dsimp only
      rcases took : server.takeFanoutJob
        (server.clockFanout.isSome && (server.fanoutPreferClock || server.chatFanout.isEmpty)) with ⟨taken, _ | job⟩
      · -- There is no job, so both queues are empty.
        obtain ⟨clock, chat, same⟩ := takeFanoutJob_none took
        subst same
        have idle : (taken.clockFanout.isNone && taken.chatFanout.isEmpty) = true := by simp [clock, chat]
        simp only [idle, if_true]
        refine ⟨work, .returned ?_, within, fun _ _ => by simp [jobsWaiting, clock, chat]⟩
        rw [fanoutTurn, if_pos both]
        simp only [took, idle, if_true]
      · have scanned := scanRecipients_scanned (job.audience.recipients.drop job.nextRecipient) taken job within
        generalize outcome : scanRecipients recipientScanBudget sendBudget taken job
          (job.audience.recipients.drop job.nextRecipient) work = worked at scanned
        obtain ⟨after, later, done⟩ := worked
        dsimp only at scanned
        simp only [scanned.same]
        have back := takeFanoutJob_some took
        have fewer := jobsWaiting_take took
        have only := takeFanoutJob_only took
        have started : job.nextRecipient ≤ job.audience.recipients.length :=
          progress _ job (back ▸ job_returned _ taken job)
        by_cases complete : later.nextRecipient = later.audience.recipients.length
        · simp only [complete, if_true]
          have lanes (clock : Bool) : laneOf (after.finishFanoutJob (server.clockFanout.isSome &&
              (server.fanoutPreferClock || server.chatFanout.isEmpty)) later) clock = laneOf taken clock := by
            have same := laneOf_completed (server.clockFanout.isSome &&
              (server.fanoutPreferClock || server.chatFanout.isEmpty)) clock taken job later
              (job.audience.recipients.drop job.nextRecipient) (work.left recipientScanBudget sendBudget)
            rwa [scanned.same] at same
          -- The job is gone, so the turns that are left are still enough for the jobs that wait.
          have counted : Within recipientScanBudget sendBudget { done with jobsCompleted := done.jobsCompleted + 1 } :=
            ⟨scanned.within.scans, scanned.within.sends⟩
          obtain ⟨last, loop, bound, empty⟩ := ih
            (by rw [jobsWaiting_lanes, lanes, lanes, ← jobsWaiting_lanes]; omega) counted
            (fun clock other member => progress clock other (by
              rw [back]
              exact laneOf_returned only (lanes clock ▸ member)))
          refine ⟨last, .completed ?_ loop, bound, empty⟩
          rw [fanoutTurn, if_pos both]
          simp only [took, outcome, complete, if_true]
        · simp only [complete, if_false]
          refine ⟨done, .returned ?_, scanned.within, fun scans sends => ?_⟩
          · rw [fanoutTurn, if_pos both]
            simp only [took, outcome, complete, if_false]
          · -- The job was put back, so a budget ran out before its audience did.
            rcases scanned.spent with all | spent | spent
            · rw [List.length_drop] at all
              rw [scanned.audience] at complete
              omega
            · omega
            · omega

/-! Nobody is turned away below the item cap. -/

/-- The server as it is where the code captures the recipients: below the chat queue's item cap, or with the
clock slot emptied. -/
inductive Capturing (server : Server F) : Server F → Prop
  | chat {peer : PeerId} {session : Session F} (found : server.sessions.get? peer = some session) (moment : Moment)
      (room : server.chatFanout.length < chatQueueItems) :
      Capturing server
        { server with
          chatLimiter := (server.chatLimiter.allow session.playerId moment.admissionMs).1
          seq := server.seq + 1 }
  | clock : Capturing server { server with seq := server.seq + 1, clockFanout := none }

omit [Codec F] in
theorem liveRecipients_nil (empty : liveRecipients server = []) (peer : PeerId) :
    server.sessions.get? peer = none := by
  by_contra present
  obtain ⟨session, found⟩ := Option.ne_none_iff_exists'.mp present
  have listed : peer ∈ ascending server.sessions.keys :=
    (mem_ascending _ _).mpr ((FiniteMap.mem_keys_iff_exists _ _).mpr ⟨session, found⟩)
  have live : ({ peer, generation := session.generation } : FanoutRecipient) ∈ liveRecipients server :=
    List.mem_filterMap.mpr ⟨peer, listed, by simp [found]⟩
  rw [empty] at live
  cases live

theorem capture_refused (bounded : Bounded server)
    (room : server.chatFanout.length < chatQueueItems ∨ server.clockFanout = none)
    (refused : server.captureFanoutRecipients.2 = none) : server.currentRecipients = [] := by
  unfold captureFanoutRecipients at refused
  cases cached : server.fanoutAudienceCache with
  | some audience => simp [cached] at refused
  | none =>
      -- Without a cache every audience retained belongs to a job, and below the cap one more always fits.
      have free := bounded.free cached room
      have few := currentRecipients_length server
      by_contra present
      have fits : ¬ server.retainedFanoutAudienceEntries + server.currentRecipients.length > fanoutQueueRecipients := by
        unfold fanoutQueueRecipients
        simp only [maxTransportPeersCeiling] at free few
        omega
      simp [cached, present, fits] at refused

theorem capturing_refused {pending : List Event} {called : Server F} (inv : Inv pending server)
    (bounded : Bounded server) (capturing : Capturing server called)
    (refused : called.captureFanoutRecipients.2 = none) (peer : PeerId) : server.sessions.get? peer = none := by
  apply liveRecipients_nil
  rw [← currentRecipients_live inv]
  cases capturing with
  | @chat speaker session found moment room =>
      have called : Bounded ({ server with
          chatLimiter := (server.chatLimiter.allow session.playerId moment.admissionMs).1
          seq := server.seq + 1 } : Server F) := bounded.of_same rfl rfl rfl (.inr rfl)
      have nobody := capture_refused called (.inl room) refused
      exact nobody
  | clock =>
      have called : Bounded ({ server with seq := server.seq + 1, clockFanout := none } : Server F) :=
        bounded.idled rfl rfl rfl rfl
      have nobody := capture_refused called (.inr rfl) refused
      exact nobody

theorem chat_admitted {pending : List Event} {moment : Moment} {peer : PeerId} {chat : ChatSend}
    {session : Session F} {cell : World.Cell} (inv : Inv pending server) (bounded : Bounded server)
    (found : server.sessions.get? peer = some session) (here : session.cell = some cell)
    (short : stringWithinLimit (chat.text.getD "") server.cfg.maxWireStringLenUsize = true)
    (room : server.chatFanout.length < chatQueueItems)
    (allowed : (server.chatLimiter.allow session.playerId moment.admissionMs).2 = true)
    (fits : encodedLength ({
        seq := server.seq + 1
        payload := .chatBroadcast session.playerId session.displayName (chat.text.getD "") chat.channel
          moment.uptimeMs } : Envelope F) ≤ payloadLimit) :
    (server.onChat moment peer chat).chatFanout.length = server.chatFanout.length + 1 := by
  have unfilled : ¬ (server.chatFanout.length ≥ chatQueueItems ∨
      server.chatFanoutBytes > chatQueueBytes - payloadLimit) := by
    have bytes := bounded.room room
    omega
  unfold onChat queueChat
  simp only [found, here, short, Bool.not_true, Bool.false_eq_true, if_false, if_neg unfilled, allowed,
    if_neg (Nat.not_lt.mpr fits)]
  rcases captureFanoutRecipients_spec { server with
      chatLimiter := (server.chatLimiter.allow session.playerId moment.admissionMs).1, seq := server.seq + 1 } with
    nobody | ⟨audience, nextAudience, -, captured⟩
  · have gone := capturing_refused inv bounded (.chat found moment room) (congrArg Prod.snd nobody) peer
    rw [found] at gone
    cases gone
  · simp only [captured, List.length_append, List.length_singleton]

/-- What the queues of the fanout keep to, and a call with any budgets. -/
structure FanoutSound (server : Server F) : Prop where
  bytes : server.chatFanoutBytes = (server.chatFanout.map fun job => encodedLength job.envelope).sum
  items : server.chatFanout.length ≤ chatQueueItems
  bytesCap : server.chatFanoutBytes ≤ chatQueueBytes
  retained : server.retainedFanoutAudienceEntries ≤ fanoutQueueRecipients
  captures : ∀ called, Capturing server called → called.captureFanoutRecipients.2 = none →
    ∀ peer, server.sessions.get? peer = none
  admits : ∀ (moment : Moment) (peer : PeerId) (chat : ChatSend) (session : Session F) (cell : World.Cell),
    server.sessions.get? peer = some session → session.cell = some cell →
    stringWithinLimit (chat.text.getD "") server.cfg.maxWireStringLenUsize = true →
    server.chatFanout.length < chatQueueItems →
    (server.chatLimiter.allow session.playerId moment.admissionMs).2 = true →
    encodedLength ({
      seq := server.seq + 1
      payload := .chatBroadcast session.playerId session.displayName (chat.text.getD "") chat.channel
        moment.uptimeMs } : Envelope F) ≤ payloadLimit →
    (server.onChat moment peer chat).chatFanout.length = server.chatFanout.length + 1
  budgets : ∀ recipientScanBudget sendBudget, ∃ work, FanoutLoop recipientScanBudget sendBudget server {}
      (server.processFanoutWorkWithBudget recipientScanBudget sendBudget) work ∧
    work.recipientScans ≤ recipientScanBudget ∧ work.sends ≤ sendBudget ∧
    (work.recipientScans < recipientScanBudget → work.sends < sendBudget →
      (server.processFanoutWorkWithBudget recipientScanBudget sendBudget).chatFanout = [] ∧
        (server.processFanoutWorkWithBudget recipientScanBudget sendBudget).clockFanout = none)

theorem fanout_sound {db : Persistence.Db F} {pending : List Event} (reached : Reachable db server pending) :
    FanoutSound server := by
  have bounded := reachable_bounded reached
  refine {
    bytes := bounded.bytes
    items := bounded.items
    bytesCap := bounded.bytes_le.trans (Nat.mul_le_mul_right _ bounded.items)
    retained := bounded.retained
    captures := fun called capturing refused peer => capturing_refused reached.inv bounded capturing refused peer
    admits := fun moment peer chat session cell found here short room allowed fits =>
      chat_admitted reached.inv bounded found here short room allowed fits
    budgets := fun recipientScanBudget sendBudget => ?_ }
  have enough : jobsWaiting server < server.chatFanout.length + 3 := by
    have slot : server.clockFanout.toList.length ≤ 1 := Option.length_toList_le
    unfold jobsWaiting
    omega
  have fresh : Within recipientScanBudget sendBudget {} := ⟨Nat.zero_le _, Nat.zero_le _⟩
  obtain ⟨work, loop, within, empty⟩ := fanoutTurns_loop enough fresh bounded.progress
  refine ⟨work, loop, within.scans, within.sends, fun scans sends => ?_⟩
  have idle : jobsWaiting (server.processFanoutWorkWithBudget recipientScanBudget sendBudget) = 0 :=
    empty scans sends
  unfold jobsWaiting at idle
  obtain ⟨chat, clock⟩ := Nat.add_eq_zero_iff.mp idle
  exact ⟨List.eq_nil_of_length_eq_zero chat, Option.toList_eq_nil_iff.mp (List.eq_nil_of_length_eq_zero clock)⟩

/-! Two of ten clients have spoken, and all ten wait to be told the time. -/
section Fleet

local instance : Codec Int := fleetCodec

def talkScript : List SocketTurn := [datagramFrom 3 [0, 200], datagramFrom 5 [0, 200]]

def talkEvents : List Event := [.data 3 [200], .data 5 [200]]

def talkServer : Server Int := (handleAll (polledBy fleetJoined talkScript) 20000 talkEvents).broadcastClock 0

theorem talkServer_reached : Reachable emptyDb talkServer [] := by
  obtain ⟨trace, joined⟩ := fleet_run
  have waiting : Run emptyDb _ (polledBy fleetJoined talkScript) (talkEvents ++ []) :=
    polledBy_run joined talkScript (by decide +kernel)
  exact ((handleAll_run talkEvents 20000 waiting).tick (.clock 0)).reachable

/-- How far the jobs of the queue and of the slot have got. -/
def places (server : Server Int) : List Nat × Option Nat :=
  (server.chatFanout.map FanoutJob.nextRecipient, server.clockFanout.map FanoutJob.nextRecipient)

/-- The three jobs share one audience; the clock goes first, and only the third budget is enough for all of them. -/
theorem fanout_sound_fleet : FanoutSound talkServer ∧
    talkServer.chatFanoutBytes = 128 ∧ talkServer.retainedFanoutAudienceEntries = 10 ∧
    places talkServer = ([0, 0], some 0) ∧
    places (talkServer.processFanoutWorkWithBudget 25 7) = ([0, 0], some 7) ∧
    places (talkServer.processFanoutWorkWithBudget 25 25) = ([5], none) ∧
    places (talkServer.processFanoutWorkWithBudget 31 31) = ([], none) := by
  refine ⟨fanout_sound talkServer_reached, ?_⟩
  decide +kernel

end Fleet

end Bounds

end SailwindOnline.FanoutBounds
