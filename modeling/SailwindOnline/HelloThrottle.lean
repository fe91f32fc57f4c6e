import SailwindOnline.AdmissionSpacing
import SailwindOnline.HelloAnswers
import SailwindOnline.LimiterKeys

/-!
What the hello throttle remembers of a peer while its session lasts: the hello
that opened the session is remembered from the start, and whatever is
remembered afterwards is the time of a hello of that peer.
-/

namespace SailwindOnline.HelloThrottle
open Server SessionIndex SessionRuns Effects TickEffects Traces PlayerTable RateLimiting MachineInt LimiterKeys
open Enrolment AdmissionSpacing HelloAnswers

/-! One throttle. -/
section Throttle
variable (limiter : RateLimiter) (key other : UInt64) (now : Int64)

theorem allow_interval : (limiter.allow key now).1.minIntervalMs = limiter.minIntervalMs := by
  unfold RateLimiter.allow
  split
  · rfl
  · split
    · split <;> rfl
    · rfl

theorem allow_last : (limiter.allow key now).1.last.get? other = limiter.last.get? other ∨
    other = key ∧ (limiter.allow key now).1.last.get? other = some now := by
  have recorded : (limiter.last.insert key now).get? other = limiter.last.get? other ∨
      other = key ∧ (limiter.last.insert key now).get? other = some now := by
    rw [FiniteMap.get?_insert]
    by_cases same : other = key
    · exact .inr ⟨same, if_pos same⟩
    · exact .inl (if_neg same)
  unfold RateLimiter.allow
  split
  · exact .inl rfl
  · split
    · split
      · exact .inl rfl
      · exact recorded
    · exact recorded

variable {limiter key other now}

theorem admitted_last (positive : 0 < limiter.minIntervalMs) (admitted : (limiter.allow key now).2 = true) :
    (limiter.allow key now).1.last.get? key = some now := by
  unfold RateLimiter.allow at admitted ⊢
  simp only [not_le.mpr positive, if_false] at admitted ⊢
  split at admitted
  · split at admitted
    · cases admitted
    · rename_i early
      simp [early]
  · simp

theorem allow_after {time : Int64} (held : limiter.last.get? key = some time)
    (rested : time.toInt + limiter.minIntervalMs.toInt ≤ now.toInt) : (limiter.allow key now).2 = true := by
  unfold RateLimiter.allow
  split
  · rfl
  · rename_i positive
    have above := Int64.lt_iff_toInt_lt.mp (not_le.mp positive)
    have zero : (0 : Int64).toInt = 0 := rfl
    have limits := toInt_bounds limiter.minIntervalMs
    have elapsed : ¬ saturatingSub now time < limiter.minIntervalMs := by
      rw [Int64.lt_iff_toInt_lt, saturatingSub, toInt_ofInt_in_range _ (by omega) (by unfold minI64 maxI64; omega)]
      unfold minI64 maxI64 at *
      omega
    simp [held, elapsed]

end Throttle

/-! What a stage does to it. -/
section Stages
variable {F : Type} [Platform F] [Codec F] {server after : Server F} {moment : Moment} {event : Event} {peer : PeerId}

inductive Throttled (server : Server F) (moment : Moment) (after : Server F) : Event → Prop
  | kept {event : Event} (same : after.helloLimiter = server.helloLimiter) : Throttled server moment after event
  | left {peer : PeerId} {reason : DisconnectReason} (gone : after.sessions.get? peer = none)
      (cleared : after.helloLimiter = server.helloLimiter.clear (UInt64.ofNat peer)) :
      Throttled server moment after (.disconnected peer reason)
  | greeted {peer : PeerId} {bytes : WireProtocol.Bytes} {hello : ClientHello}
      (decoded : Codec.decode (F := F) bytes = some (.hello hello))
      (charged : after.helloLimiter = (helloCharged server moment peer).helloLimiter) :
      Throttled server moment after (.data peer bytes)
  | tookOver {peer prior : PeerId} {bytes : WireProtocol.Bytes} {hello : ClientHello}
      (decoded : Codec.decode (F := F) bytes = some (.hello hello))
      (replaced : prior ∈ server.sessions.keys) (gone : after.sessions.get? prior = none)
      (charged : after.helloLimiter = (helloCharged server moment peer).helloLimiter.clear (UInt64.ofNat prior)) :
      Throttled server moment after (.data peer bytes)

omit [Codec F] in
/-- A hello is charged to its speaker; a take-over forgets the peer it replaces. -/
theorem hello_charges {hello : ClientHello} {result : Except ServerError Unit}
    (effect : HelloEffect server moment peer hello (after, result)) :
    after.helloLimiter = (helloCharged server moment peer).helloLimiter ∨
      ∃ prior ∈ server.sessions.keys, after.sessions.get? prior = none ∧
        after.helloLimiter = (helloCharged server moment peer).helloLimiter.clear (UInt64.ofNat prior) := by
  cases effect with
  | silent charges storage => exact .inl (Charges.passage charges).2
  | answered charges other => exact .inl (Charges.passage charges).2
  | full gated unknown crowded => exact .inl (Charges.passage (.identity gated.presented gated.fresh)).2
  | faulted gated admitted fault => exact .inl (Charges.passage (.identity gated.presented gated.fresh)).2
  | repeated found greets => exact .inl rfl
  | @joined identityHash name ip row db middle numbered generation reply gated admitted consistent superseded
      numbering greets =>
      have throttle := (enrolled_passage server moment peer ip identityHash row.id.toUInt64 db).2
      have calm := (enrolled_calm server moment peer ip identityHash row.id.toUInt64 db).1
      have sessions : (enrolled server moment peer ip identityHash row.id.toUInt64 db).sessions = server.sessions :=
        (congrArg Server.sessions calm :)
      have kept : numbered.helloLimiter = middle.helloLimiter := by cases numbering <;> rfl
      have evicted := superseded
      cases superseded with
      | absent unowned => exact .inl (kept.trans throttle)
      | @evicted prior session evicting owned found own addrs =>
          rw [sessions] at found
          have replaced : prior ∈ server.sessions.keys :=
            (FiniteMap.mem_keys_iff_exists _ _).mpr ⟨session, found⟩
          refine .inr ⟨prior, replaced, ?_, kept.trans (by rw [← throttle])⟩
          rw [← Option.not_isSome_iff_eq_none, Option.isSome_iff_exists]
          rintro ⟨later, present⟩
          rcases entered_sessions peer _ reply evicted numbering present with ⟨same, -⟩ | ⟨-, old, -, apart, -⟩
          · rw [same, gated.presented.vacant] at found
            cases found
          · exact apart owned

theorem effect_throttled (effect : Effect server moment event after) : Throttled server moment after event := by
  cases effect with
  | ignored other => exact .kept rfl
  | request found effect =>
      cases effect with
      | served served => exact .kept (congrArg Server.helloLimiter served.frame :)
      | moved motion state cell placed => exact .kept rfl
      | spoke here about captured => exact .kept rfl
  | hello decoded effect =>
      rcases hello_charges effect with charged | ⟨prior, replaced, gone, charged⟩
      · exact .greeted decoded charged
      · exact .tookOver decoded replaced gone charged
  | absent vacant => exact .left vacant rfl
  | persisted found stored => exact .left (FiniteMap.get?_erase_self _ _) rfl
  | unpersisted found failing => exact .left (FiniteMap.get?_erase_self _ _) rfl

omit [Codec F] in
theorem charged_interval (server : Server F) (moment : Moment) (peer : PeerId) :
    (helloCharged server moment peer).helloLimiter.minIntervalMs = server.helloLimiter.minIntervalMs :=
  allow_interval _ _ _

theorem Throttled.interval (throttled : Throttled server moment after event) :
    after.helloLimiter.minIntervalMs = server.helloLimiter.minIntervalMs := by
  cases throttled with
  | kept same => rw [same]
  | left gone cleared => rw [cleared]; rfl
  | greeted decoded charged => rw [charged, charged_interval]
  | tookOver decoded replaced gone charged => rw [charged]; exact charged_interval server moment _

/-- While `peer` has its session, what the throttle remembers of it is kept until its next hello. -/
theorem Throttled.last {time : Int64} (throttled : Throttled server moment after event)
    (small : peer < 2 ^ 32) (issued : event.peer < 2 ^ 32) (bounded : ∀ other ∈ server.sessions.keys, other < 2 ^ 32)
    (present : (after.sessions.get? peer).isSome)
    (held : server.helloLimiter.last.get? (UInt64.ofNat peer) = some time) :
    after.helloLimiter.last.get? (UInt64.ofNat peer) = some time ∨
      (∃ bytes hello, event = .data peer bytes ∧ Codec.decode (F := F) bytes = some (.hello hello)) ∧
        after.helloLimiter.last.get? (UInt64.ofNat peer) = some moment.admissionMs := by
  have lasting {other : PeerId} (gone : after.sessions.get? other = none) (narrow : other < 2 ^ 32) :
      UInt64.ofNat peer ≠ UInt64.ofNat other := by
    intro same
    rw [ofNat_injective small narrow same, gone] at present
    cases present
  have charged_last {speaker : PeerId} (narrow : speaker < 2 ^ 32) :
      (helloCharged server moment speaker).helloLimiter.last.get? (UInt64.ofNat peer) = some time ∨
        peer = speaker ∧ (helloCharged server moment speaker).helloLimiter.last.get? (UInt64.ofNat peer) =
          some moment.admissionMs := by
    rcases allow_last server.helloLimiter (UInt64.ofNat speaker) (UInt64.ofNat peer) moment.admissionMs with
      same | ⟨own, learned⟩
    · exact .inl (same.trans held)
    · exact .inr ⟨ofNat_injective small narrow own, learned⟩
  cases throttled with
  | kept same => exact .inl (same ▸ held)
  | left gone cleared =>
      rw [cleared]
      simp only [RateLimiter.clear, FiniteMap.get?_erase, if_neg (lasting gone issued)]
      exact .inl held
  | @greeted speaker bytes hello decoded charged =>
      rw [charged]
      rcases charged_last issued with same | ⟨rfl, learned⟩
      · exact .inl same
      · exact .inr ⟨⟨bytes, hello, rfl, decoded⟩, learned⟩
  | @tookOver speaker prior bytes hello decoded replaced gone charged =>
      rw [charged]
      simp only [RateLimiter.clear, FiniteMap.get?_erase, if_neg (lasting gone (bounded prior replaced))]
      rcases charged_last issued with same | ⟨rfl, learned⟩
      · exact .inl same
      · exact .inr ⟨⟨bytes, hello, rfl, decoded⟩, learned⟩

omit [Codec F] in
theorem hello_opens {hello : ClientHello} (vacant : server.sessions.get? peer = none)
    (created : ((server.onHelloAt moment peer hello).1.sessions.get? peer).isSome) :
    (server.helloLimiter.allow (UInt64.ofNat peer) moment.admissionMs).2 = true ∧
      hello.protocolVersion = protocolVersion := by
  by_cases heard : (server.helloLimiter.allow (UInt64.ofNat peer) moment.admissionMs).2 = true
  swap
  · simp only [onHelloAt, heard, Bool.not_false, if_true, vacant] at created
    cases created
  by_cases version : hello.protocolVersion = protocolVersion
  · exact ⟨heard, version⟩
  · simp only [onHelloAt, heard, Bool.not_true, Bool.false_eq_true, if_false, ne_eq, version, not_false_eq_true,
      if_true] at created
    replace created : (server.sessions.get? peer).isSome := created
    rw [vacant] at created
    cases created

omit [Codec F] in
theorem effect_opens {hello : ClientHello} {speaker : PeerId} {result : Except ServerError Unit} {session : Session F}
    (effect : HelloEffect server moment speaker hello (after, result)) (vacant : server.sessions.get? peer = none)
    (created : after.sessions.get? peer = some session) :
    speaker = peer ∧ ∃ token name, validateHello server.cfg.maxWireStringLenUsize hello = .ok (token, name) ∧
      tokenHash token = session.identityHash := by
  have unchanged (same : after.sessions = server.sessions) : False := by
    rw [same, vacant] at created
    cases created
  cases effect with
  | silent charges storage => exact (unchanged (congrArg Server.sessions charges.frame :)).elim
  | answered charges other => exact (unchanged (congrArg Server.sessions charges.frame :)).elim
  | full gated unknown crowded =>
      exact (unchanged (congrArg Server.sessions (identityCharged_frame server _ _ _ _) :)).elim
  | faulted gated admitted fault =>
      exact (unchanged (congrArg Server.sessions (identityCharged_frame server _ _ _ _) :)).elim
  | repeated found greets => exact (unchanged rfl).elim
  | @joined identityHash name ip row db middle numbered generation reply gated admitted consistent superseded
      numbering greets =>
      have calm := (enrolled_calm server moment speaker ip identityHash row.id.toUInt64 db).1
      have sessions : (enrolled server moment speaker ip identityHash row.id.toUInt64 db).sessions = server.sessions :=
        (congrArg Server.sessions calm :)
      rcases entered_sessions speaker _ reply superseded numbering created with ⟨own, same⟩ | ⟨-, old, found, -, -⟩
      · obtain ⟨token, read, hash⟩ := gated.presented.read
        exact ⟨own.symm, token, name, read, by rw [same, ← hash]; rfl⟩
      · rw [sessions, vacant] at found
        cases found

structure Opened (server : Server F) (moment : Moment) (peer : PeerId) (hello : ClientHello)
    (session : Session F) (after : Server F) : Prop where
  effect : ∃ result, HelloEffect server moment peer hello (after, result)
  heard : (server.helloLimiter.allow (UInt64.ofNat peer) moment.admissionMs).2 = true
  version : hello.protocolVersion = protocolVersion
  read : ∃ token name, validateHello server.cfg.maxWireStringLenUsize hello = .ok (token, name) ∧
    tokenHash token = session.identityHash

theorem event_opens {session : Session F} (inv : Inv pending server) (moment : Moment) (event : Event)
    (vacant : server.sessions.get? peer = none)
    (created : (server.handleEvent moment event).1.sessions.get? peer = some session) :
    ∃ bytes hello, event = .data peer bytes ∧ Codec.decode (F := F) bytes = some (.hello hello) ∧
      Opened server moment peer hello session (server.handleEvent moment event).1 := by
  have effect := handleEvent_effect inv moment event
  have unchanged (same : (server.handleEvent moment event).1.sessions.get? peer = server.sessions.get? peer) :
      False := by
    rw [same, vacant] at created
    cases created
  generalize same : (server.handleEvent moment event).1 = after at effect created unchanged
  cases effect with
  | ignored other => exact (unchanged rfl).elim
  | @request speaker bytes held after found effect =>
      cases effect with
      | served served =>
          exact (unchanged (congrArg (fun server => server.sessions.get? peer) served.frame :)).elim
      | moved motion state cell placed =>
          refine (unchanged ?_).elim
          have apart : peer ≠ speaker := by
            rintro rfl
            rw [vacant] at found
            cases found
          simp [FiniteMap.get?_insert, apart]
      | spoke here about captured => exact (unchanged rfl).elim
  | @hello speaker bytes hello after result decoded effect =>
      obtain ⟨rfl, token, name, read, own⟩ := effect_opens effect vacant created
      have handled : (server.handleEvent moment (.data speaker bytes)).1 =
          (server.onHelloAt moment speaker hello).1 := by
        simp only [handleEvent, handleDataAt, decoded]
      obtain ⟨heard, version⟩ := hello_opens vacant (by rw [← handled, same, created]; rfl)
      exact ⟨bytes, hello, rfl, decoded, ⟨result, effect⟩, heard, version, token, name, read, own⟩
  | absent gone => exact (unchanged rfl).elim
  | @persisted speaker reason held found stored =>
      simp only [departed, dropped, FiniteMap.get?_erase] at created
      split at created
      · cases created
      · rw [vacant] at created
        cases created
  | @unpersisted speaker reason held found failing =>
      simp only [departed, dropped, FiniteMap.get?_erase] at created
      split at created
      · cases created
      · rw [vacant] at created
        cases created

end Stages

/-! Runs. -/
section Runs
variable {F : Type} [Platform F] [Codec F] {db : Persistence.Db F} {trace early middle : List (Stage F)}
  {server : Server F} {pending : List Event} {opening : Stage F} {peer : PeerId} {session : Session F}

theorem run_interval (run : Run db trace server pending) :
    server.helloLimiter.minIntervalMs = server.cfg.helloMinIntervalMsI64 := by
  induction run with
  | start opened =>
      obtain ⟨identityPlayers, -, rfl⟩ := new_opened opened
      rfl
  | poll now script run polled ih => exact ih
  | @handle trace server event pending moment run ih =>
      have throttled := effect_throttled (handleEvent_effect run.inv moment event)
      rw [throttled.interval, ih, outcome_cfg (handleEvent_outcome run.inv moment event)]
  | @tick trace server pending tick run ih =>
      have gates := (tick_gates server tick).1
      simp only [gateView, Prod.mk.injEq] at gates
      rw [gates.2.2.2.1, gates.1]
      exact ih

omit [Codec F] in
theorem session_narrow (inv : Inv pending server) : ∀ other ∈ server.sessions.keys, other < 2 ^ 32 := by
  intro other member
  have issued := (inv.hosted.issued other member).2
  have small : server.cfg.maxTransportPeersUsize ≤ server.host.limits.maxPeers := by
    rw [inv.hosted.limits]
    exact le_rfl
  exact narrow_lt (issued.trans small)

/-- What the throttle remembers of `peer` is the time of one of its hellos in `stages`. -/
def Remembers (stages : List (Stage F)) (peer : PeerId) (server : Server F) : Prop :=
  ∃ time, server.helloLimiter.last.get? (UInt64.ofNat peer) = some time ∧
    ∃ stage ∈ stages, ∃ moment, SaysHello stage peer moment ∧ moment.admissionMs = time

theorem opening_remembers (run : Run db (early ++ [opening]) server pending)
    (vacant : opening.before.sessions.get? peer = none) (created : opening.after.sessions.get? peer = some session) :
    (∃ moment bytes hello, opening.action = .handle moment (.data peer bytes) ∧
      Codec.decode (F := F) bytes = some (.hello hello) ∧
      Opened opening.before moment peer hello session opening.after) ∧ Remembers [opening] peer opening.after := by
  obtain ⟨earlier, before, lawful, -, -, next⟩ := Run.unsnoc_pending run
  have unchanged (same : (opening.after.sessions.get? peer).map credentials =
      (opening.before.sessions.get? peer).map credentials) : False := by
    rw [created, vacant] at same
    cases same
  obtain ⟨server, action, after⟩ := opening
  cases action with
  | poll now script =>
      obtain ⟨state, -, same⟩ := lawful
      replace same : after = { server with host := state.host } := same
      subst same
      exact (unchanged rfl).elim
  | tick tick =>
      replace lawful : after = tick.run server := lawful
      subst lawful
      exact (unchanged (tick_credentials server tick peer)).elim
  | handle moment event =>
      replace lawful : after = (server.handleEvent moment event).1 := lawful
      have waiting := next moment event rfl
      subst waiting lawful
      obtain ⟨bytes, hello, rfl, decoded, opened⟩ := event_opens before.inv moment event vacant created
      have small : peer < 2 ^ 32 := run_issued before (.data peer bytes) List.mem_cons_self
      have throttled := effect_throttled (handleEvent_effect before.inv moment (.data peer bytes))
      have positive : 0 < server.helloLimiter.minIntervalMs := by
        rw [run_interval before]
        exact (valid_intervals server.cfg).2.2.positive
      have learned := admitted_last positive opened.heard
      refine ⟨⟨moment, bytes, hello, rfl, decoded, opened⟩, moment.admissionMs, ?_, _, List.mem_singleton_self _,
        moment, ⟨bytes, hello, rfl, decoded⟩, rfl⟩
      obtain ⟨result, effect⟩ := opened.effect
      rcases hello_charges effect with charged | ⟨prior, replaced, -, charged⟩
      · exact charged ▸ learned
      · have apart : UInt64.ofNat peer ≠ UInt64.ofNat prior := by
          intro same
          have other := ofNat_injective small (session_narrow before.inv prior replaced) same
          rw [← other, FiniteMap.mem_keys, vacant] at replaced
          cases replaced
        rw [charged]
        simp only [RateLimiter.clear, FiniteMap.get?_erase, if_neg apart]
        exact learned

theorem Remembers.step {stages : List (Stage F)} {stage : Stage F} {earlier : List Event}
    (remembers : Remembers stages peer stage.before) (run : Run db trace stage.before earlier)
    (lawful : stage.Lawful) (next : ∀ moment event, stage.action = .handle moment event → earlier = event :: pending)
    (small : peer < 2 ^ 32) (present : (stage.after.sessions.get? peer).isSome) :
    Remembers (stages ++ [stage]) peer stage.after := by
  obtain ⟨server, action, after⟩ := stage
  have unlearned (same : after.helloLimiter = server.helloLimiter) :
      Remembers (stages ++ [⟨server, action, after⟩]) peer after := by
    obtain ⟨time, held, stage, member, spoken⟩ := remembers
    exact ⟨time, by rw [same]; exact held, stage, List.mem_append_left _ member, spoken⟩
  cases action with
  | poll now script =>
      obtain ⟨state, -, same⟩ := lawful
      replace same : after = { server with host := state.host } := same
      exact unlearned (by rw [same])
  | tick tick =>
      replace lawful : after = tick.run server := lawful
      have gates := (tick_gates server tick).1
      simp only [gateView, Prod.mk.injEq] at gates
      exact unlearned (by rw [lawful]; exact gates.2.2.2.1)
  | handle moment event =>
      replace lawful : after = (server.handleEvent moment event).1 := lawful
      have waiting := next moment event rfl
      subst waiting lawful
      have issued := run_issued run event List.mem_cons_self
      have throttled := effect_throttled (handleEvent_effect run.inv moment event)
      obtain ⟨time, held, stage, member, spoken⟩ := remembers
      rcases throttled.last small issued (session_narrow run.inv) present held with
        kept | ⟨⟨bytes, hello, rfl, decoded⟩, learned⟩
      · exact ⟨time, kept, stage, List.mem_append_left _ member, spoken⟩
      · exact ⟨moment.admissionMs, learned, _, List.mem_append_right _ (List.mem_singleton_self _), moment,
          ⟨bytes, hello, rfl, decoded⟩, rfl⟩

/-- While the session lasts, the throttle remembers the time of one of its hellos. -/
theorem run_remembers (run : Run db (early ++ opening :: middle) server pending)
    (vacant : opening.before.sessions.get? peer = none) (created : opening.after.sessions.get? peer = some session)
    (lasting : ∀ stage ∈ middle, (stage.after.sessions.get? peer).isSome) :
    Remembers (opening :: middle) peer server ∧ server.cfg = opening.before.cfg ∧
      ∃ last, server.sessions.get? peer = some last ∧ credentials last = credentials session := by
  induction middle using List.reverseRecOn generalizing server pending with
  | nil =>
      obtain ⟨⟨waiting, shorter⟩, lawful, rfl⟩ := Run.unsnoc run
      exact ⟨(opening_remembers run vacant created).2, lawful_cfg shorter.inv lawful, session, created, rfl⟩
  | append_singleton middle last ih =>
      rw [← List.cons_append, ← List.append_assoc] at run
      obtain ⟨earlier, before, lawful, rfl, -, next⟩ := Run.unsnoc_pending run
      obtain ⟨remembers, same, held, found, own⟩ :=
        ih before fun stage member => lasting stage (List.mem_append_left _ member)
      have present := lasting last (by simp)
      obtain ⟨later, stays⟩ := Option.isSome_iff_exists.mp present
      have small := session_narrow run.inv peer ((FiniteMap.mem_keys _ _).mpr present)
      exact ⟨remembers.step before lawful next small present, (lawful_cfg before.inv lawful).trans same, later, stays,
        (stage_credentials before.inv lawful found stays).trans own⟩

end Runs

end SailwindOnline.HelloThrottle
