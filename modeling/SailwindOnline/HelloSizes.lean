import Mathlib.Data.Rat.Floor
import SailwindOnline.BufferLayout
import SailwindOnline.Newcomers
import SailwindOnline.Throttles

/-!
The size of the answer to a hello. The server's own words are short and the
features are fixed, so whether an answer fits a datagram is set by the server's
name, which no check bounds: the name has to leave room for the numbers of an
acceptance and for the words of the longest refusal.
-/

namespace SailwindOnline.HelloSizes
open World (Subscription)
open Server SessionRuns Newcomers Effects

/-! Texts. -/
section Texts

theorem repr_size_le {digits value : Nat} (small : value < 10 ^ (digits + 1)) :
    value.repr.utf8ByteSize ≤ digits + 1 := by
  have single : ∀ value < 10, value.repr.utf8ByteSize ≤ 1 := by decide
  induction digits generalizing value with
  | zero => exact single value small
  | succ digits ih =>
      by_cases short : value < 10
      · exact (single value short).trans (by omega)
      · have shorter : value / 10 < 10 ^ (digits + 1) := by
          rw [Nat.div_lt_iff_lt_mul (by omega)]
          exact small
        have front := ih shorter
        have back := single (value % 10) (Nat.mod_lt _ (by omega))
        rw [Nat.repr_eq_repr_append_repr (not_lt.mp short), String.utf8ByteSize_append]
        omega

theorem repr_size_pos (value : Nat) : 1 ≤ value.repr.utf8ByteSize := by
  have filled : value.repr.utf8ByteSize ≠ 0 := by
    rw [ne_eq, String.utf8ByteSize_eq_zero_iff]
    exact Nat.repr_ne_empty
  omega

/-- The reason given for a string beyond the limit. -/
def overlong (field : String) (maxLen : Nat) : String := s!"{field} exceeds maximum length ({maxLen} bytes)"

theorem overlong_size (field : String) (maxLen : Nat) :
    (overlong field maxLen).utf8ByteSize = field.utf8ByteSize + 32 + maxLen.repr.utf8ByteSize := by
  have front : " exceeds maximum length (".utf8ByteSize = 25 := by decide
  have back : " bytes)".utf8ByteSize = 7 := by decide
  have shape : overlong field maxLen = field ++ " exceeds maximum length (" ++ maxLen.repr ++ " bytes)" := rfl
  rw [shape]
  simp only [String.utf8ByteSize_append, front, back]
  omega

/-- No refusal is longer than this one. -/
def longestRefusal (maxLen : Nat) : String := overlong "API surface hash" maxLen

theorem longestRefusal_size (maxLen : Nat) :
    (longestRefusal maxLen).utf8ByteSize = 48 + maxLen.repr.utf8ByteSize := by
  have field : "API surface hash".utf8ByteSize = 16 := by decide
  rw [longestRefusal, overlong_size, field]

theorem fixed_short {text : String} (maxLen : Nat) (short : text.utf8ByteSize ≤ 49) :
    text.utf8ByteSize ≤ (longestRefusal maxLen).utf8ByteSize := by
  have positive := repr_size_pos maxLen
  rw [longestRefusal_size]
  omega

theorem version_short (maxLen : Nat) (version : UInt16) :
    (s!"protocol version mismatch: client {version}, server {protocolVersion}").utf8ByteSize ≤
      (longestRefusal maxLen).utf8ByteSize := by
  have front : "protocol version mismatch: client ".utf8ByteSize = 34 := by decide
  have middle : ", server ".utf8ByteSize = 9 := by decide
  have back : (toString protocolVersion).utf8ByteSize = 1 := by decide
  have digits : version.toNat.repr.utf8ByteSize ≤ 5 := repr_size_le (version.toNat_lt.trans (by decide))
  have shape : s!"protocol version mismatch: client {version}, server {protocolVersion}" =
      "protocol version mismatch: client " ++ version.toNat.repr ++ ", server " ++ toString protocolVersion := rfl
  refine fixed_short maxLen ?_
  rw [shape]
  simp only [String.utf8ByteSize_append, front, middle, back]
  omega

theorem validateHelloString_short {value : Option String} {field : String} {required : Bool} {maxLen : Nat}
    {reason : String} (brief : field.utf8ByteSize ≤ 16)
    (failed : validateHelloString value field required maxLen = .error reason) :
    reason.utf8ByteSize ≤ (longestRefusal maxLen).utf8ByteSize := by
  unfold validateHelloString at failed
  split at failed
  · cases failed
    have word : "missing ".utf8ByteSize = 8 := by decide
    have shape : s!"missing {field}" = "missing " ++ field := rfl
    refine fixed_short maxLen ?_
    rw [shape, String.utf8ByteSize_append, word]
    omega
  · split at failed
    · split at failed
      · cases failed
      · cases failed
        show (overlong field maxLen).utf8ByteSize ≤ _
        rw [longestRefusal_size, overlong_size]
        omega
    · cases failed

theorem validateHello_short {maxLen : Nat} {hello : ClientHello} {reason : String}
    (failed : validateHello maxLen hello = .error reason) :
    reason.utf8ByteSize ≤ (longestRefusal maxLen).utf8ByteSize := by
  unfold validateHello at failed
  simp only [bind, Except.bind, pure, Except.pure] at failed
  repeat' split at failed
  all_goals cases failed
  all_goals rename_i refused
  all_goals exact validateHelloString_short (by decide) refused

end Texts

/-! Answers. -/
section Answers
variable {F : Type} [Platform F] {server before after : Server F} {peer : PeerId} {moment : Moment}

/-- At most one answer goes out: an acceptance without a reason, or a refusal with a short one. -/
inductive Answers (server : Server F) (moment : Moment) (peer : PeerId) (after : Server F) : Prop
  | silent (sent : after.sent = server.sent)
  | accepted (player : UInt64) (gold : Int64) (sent : after.sent = server.sent ++
      [(peer, { seq := server.seq + 1, payload := server.helloReply moment true "" player gold })])
  | refused {reason : String}
      (short : reason.utf8ByteSize ≤ (longestRefusal server.cfg.maxWireStringLenUsize).utf8ByteSize)
      (sent : after.sent = server.sent ++
        [(peer, { seq := server.seq + 1, payload := server.helloReply moment false reason 0 0 })])

/-- Nothing was said, and what an answer takes from the server is the same. -/
structure Quiet (server after : Server F) : Prop where
  sent : after.sent = server.sent
  seq : after.seq = server.seq
  cfg : after.cfg = server.cfg
  reply : after.helloReply = server.helloReply

theorem Quiet.refl (server : Server F) : Quiet server server := ⟨rfl, rfl, rfl, rfl⟩

theorem Quiet.trans (first : Quiet server before) (second : Quiet before after) : Quiet server after :=
  ⟨second.sent.trans first.sent, second.seq.trans first.seq, second.cfg.trans first.cfg,
    second.reply.trans first.reply⟩

theorem Quiet.answers (quiet : Quiet server before) (answers : Answers before moment peer after) :
    Answers server moment peer after := by
  cases answers with
  | silent sent => exact .silent (sent.trans quiet.sent)
  | accepted player gold sent =>
      rw [quiet.sent, quiet.seq, quiet.reply] at sent
      exact .accepted player gold sent
  | refused short sent =>
      rw [quiet.sent, quiet.seq, quiet.reply] at sent
      rw [quiet.cfg] at short
      exact .refused short sent

theorem answers_rejectHello {reason : String}
    (short : reason.utf8ByteSize ≤ (longestRefusal server.cfg.maxWireStringLenUsize).utf8ByteSize) :
    Answers server moment peer (server.rejectHello moment peer reason).1 :=
  .refused short rfl

theorem answers_sendAcceptedHello (server : Server F) (moment : Moment) (peer : PeerId) (player : UInt64)
    (gold : Int64) : Answers server moment peer (server.sendAcceptedHello moment peer player gold) :=
  .accepted player gold rfl

theorem quiet_allocateSessionGeneration (server : Server F) : Quiet server server.allocateSessionGeneration.1 := by
  have rekeyed : Quiet server (if server.nextSessionGeneration = maxU64 then server.rekeyLiveSessionGenerations
      else (server, .ok ())).1 := by
    split
    · unfold rekeyLiveSessionGenerations
      split <;> exact ⟨rfl, rfl, rfl, rfl⟩
    · exact .refl _
  unfold allocateSessionGeneration
  dsimp only
  split <;> rename_i done
  · rw [done] at rekeyed
    exact rekeyed
  · rw [done] at rekeyed
    split
    · exact rekeyed
    · exact rekeyed.trans ⟨rfl, rfl, rfl, rfl⟩

theorem quiet_registerSession (server : Server F) (peer : PeerId) (session : Session F) :
    Quiet server (server.registerSession peer session).1 := by
  have allocated := quiet_allocateSessionGeneration server
  unfold registerSession
  split
  · exact .refl _
  split
  · exact .refl _
  split <;> rename_i done
  · rw [done] at allocated
    exact allocated
  · rw [done] at allocated
    refine allocated.trans ?_
    unfold scheduleAoi
    split <;> exact ⟨rfl, rfl, rfl, rfl⟩

theorem quiet_supersede (server : Server F) (peer : PeerId) (player : UInt64) :
    Quiet server (server.supersede peer player).1 := by
  have evicted : ∀ prior, Quiet server (server.evictTransport prior).1 := by
    intro prior
    unfold evictTransport
    split
    · exact .refl _
    split <;> exact ⟨rfl, rfl, rfl, rfl⟩
  have unregistered : ∀ (server : Server F) prior, Quiet server (server.unregisterSession prior).1 := by
    intro server prior
    unfold unregisterSession
    split <;> exact ⟨rfl, rfl, rfl, rfl⟩
  unfold supersede
  split
  · exact .refl _
  rename_i prior _
  have gone := evicted prior
  split
  · exact .refl _
  split <;> rename_i done
  · rw [done] at gone
    exact gone
  · rw [done] at gone
    exact (gone.trans (unregistered _ prior)).trans ⟨rfl, rfl, rfl, rfl⟩

theorem quiet_placeInCell (server : Server F) (player : UInt64) (cell : World.Cell) :
    Quiet server { server with world := server.world.placeInCell player cell } := by
  refine ⟨rfl, rfl, rfl, ?_⟩
  have grid : (server.world.placeInCell player cell).grid = server.world.grid := by
    unfold World.placeInCell
    split
    · split <;> rfl
    · rfl
  funext moment accepted reason player gold
  simp only [helloReply, caps, grid]

theorem answers_openSession (server : Server F) (moment : Moment) (peer : PeerId) (player : UInt64)
    (identityHash name : String) (gold : Int64) :
    Answers server moment peer (server.openSession moment peer player identityHash name gold).1 := by
  have placed := quiet_placeInCell server player (server.world.grid.cellOf Platform.zero Platform.zero)
  unfold openSession
  simp only
  split <;> rename_i done
  all_goals
    have quiet := quiet_registerSession { server with
      world := server.world.placeInCell player (server.world.grid.cellOf Platform.zero Platform.zero) } peer
      (newSession player identityHash name (({ radius := server.cfg.aoiRadiusI32 } : Subscription).recenter
        (server.world.grid.cellOf Platform.zero Platform.zero)).1
        (server.world.grid.cellOf Platform.zero Platform.zero))
    rw [done] at quiet
  · exact .silent (placed.trans quiet).sent
  · refine (placed.trans quiet).answers ?_
    unfold emitAoi scheduleAoi
    split
    · exact answers_sendAcceptedHello _ moment peer player gold
    · split
      all_goals exact .accepted player gold rfl

theorem answers_joinPlayer (server : Server F) (moment : Moment) (peer : PeerId) (player : UInt64)
    (identityHash name : String) (gold : Int64) :
    Answers server moment peer (server.joinPlayer moment peer player identityHash name gold).1 := by
  have quiet := quiet_supersede server peer player
  unfold joinPlayer
  split <;> rename_i done
  · rw [done] at quiet
    exact .silent quiet.sent
  · rw [done] at quiet
    exact quiet.answers (answers_openSession _ moment peer player identityHash name gold)

theorem answers_admitPlayer (server : Server F) (moment : Moment) (peer : PeerId) (identityHash name : String)
    (known : Option UInt64) :
    Answers server moment peer (server.admitPlayer moment peer identityHash name known).1 := by
  have stored : ∀ db, Quiet server { server with db } := fun _ => ⟨rfl, rfl, rfl, rfl⟩
  unfold admitPlayer
  split
  · exact .silent rfl
  · exact (stored _).answers (answers_rejectHello (fixed_short _ (by decide)))
  · simp only
    split
    · exact .silent rfl
    split
    · split
      · exact .silent rfl
      · exact (stored _).answers (answers_joinPlayer _ _ _ _ _ _ _)
    · split
      · exact .silent rfl
      · refine Quiet.answers ?_ (answers_joinPlayer _ _ _ _ _ _ _)
        exact ⟨rfl, rfl, rfl, rfl⟩

theorem answers_admitHello (server : Server F) (moment : Moment) (peer : PeerId) (identityHash name : String)
    (ip : IpAddr) : Answers server moment peer (server.admitHello moment peer identityHash name ip).1 := by
  have busy : ∀ middle : Server F, Quiet server middle →
      Answers server moment peer (middle.rejectHello moment peer "server busy; retry").1 := fun middle quiet =>
    quiet.answers (answers_rejectHello (fixed_short _ (by decide)))
  unfold admitHello
  simp only
  split
  · exact busy _ ⟨rfl, rfl, rfl, rfl⟩
  split
  all_goals
    split
    · exact busy _ ⟨rfl, rfl, rfl, rfl⟩
    · refine Quiet.answers ?_ (answers_admitPlayer _ _ _ _ _ _)
      exact ⟨rfl, rfl, rfl, rfl⟩

theorem answers_repeatHello (server : Server F) (moment : Moment) (peer : PeerId) (session : Session F)
    (identityHash : String) :
    Answers server moment peer (server.repeatHello moment peer session identityHash).1 := by
  unfold repeatHello
  split
  · exact answers_rejectHello (fixed_short _ (by decide))
  split
  · exact .silent rfl
  · exact answers_sendAcceptedHello _ moment peer _ _

/-- Whatever the hello, a refusal gives no longer reason than the longest refusal. -/
theorem onHelloAt_answers (server : Server F) (moment : Moment) (peer : PeerId) (hello : ClientHello) :
    Answers server moment peer (server.onHelloAt moment peer hello).1 := by
  have charged : ∀ limiter, Quiet server { server with helloLimiter := limiter } := fun _ => ⟨rfl, rfl, rfl, rfl⟩
  unfold onHelloAt
  simp only
  split
  · exact .silent rfl
  split
  · exact (charged _).answers (answers_rejectHello (version_short _ _))
  split <;> rename_i reading
  · exact (charged _).answers (answers_rejectHello (validateHello_short reading))
  split
  · exact (charged _).answers (answers_repeatHello _ moment peer _ _)
  split
  · exact .silent rfl
  · exact (charged _).answers (answers_admitHello _ moment peer _ _ _)

/-- Every answer carries the server's name. -/
theorem answer_named {hello : ClientHello} {post : PeerId × Envelope F}
    (member : post ∈ (server.onHelloAt moment peer hello).1.sent) : post ∈ server.sent ∨
      ∃ seq reply, post.2 = { seq, payload := .serverHello reply } ∧ reply.serverName = server.cfg.serverName := by
  cases onHelloAt_answers server moment peer hello with
  | silent sent => exact Or.inl (sent ▸ member)
  | accepted player gold sent =>
      rw [sent, List.mem_append, List.mem_singleton] at member
      exact member.imp_right fun answer => ⟨_, _, congrArg Prod.snd answer, rfl⟩
  | refused short sent =>
      rw [sent, List.mem_append, List.mem_singleton] at member
      exact member.imp_right fun answer => ⟨_, _, congrArg Prod.snd answer, rfl⟩

/-- An answer that accepts is an acceptance without a reason. -/
theorem accepted_answer {hello : ClientHello} {seq : UInt32} {reply : ServerHello F}
    (sent : (server.onHelloAt moment peer hello).1.sent =
      server.sent ++ [(peer, { seq, payload := .serverHello reply })])
    (accepted : reply.accepted = true) :
    ServerMessage.serverHello reply =
      server.helloReply moment true "" reply.playerId reply.balanceGold := by
  have same : ∀ {payload}, (server.onHelloAt moment peer hello).1.sent =
      server.sent ++ [(peer, ⟨server.seq + 1, payload⟩)] → .serverHello reply = payload := by
    intro payload answer
    rw [sent, List.append_cancel_left_eq, List.cons.injEq, Prod.mk.injEq, Envelope.mk.injEq] at answer
    exact answer.1.2.2
  cases onHelloAt_answers server moment peer hello with
  | silent silent => simp [silent] at sent
  | accepted player gold answer =>
      have told := ServerMessage.serverHello.inj (same answer)
      rw [told]
      rfl
  | refused short answer =>
      have told := ServerMessage.serverHello.inj (same answer)
      rw [told] at accepted
      cases accepted

end Answers

/-! Delivery. -/
section Delivery
variable {F : Type} [Platform F] [Codec F] {acceptedSize : Nat → Nat} {refusedSize : Nat → Nat → Nat}

/-- None of the numbers that every answer carries is zero, the weather's first day apart. -/
structure Whole (seq : UInt32) (hello : ServerHello F) : Prop where
  features : hello.capabilities.features = serverFeatures
  seq : seq ≠ 0
  rates : hello.capabilities.tickHz ≠ 0 ∧ hello.capabilities.snapshotHz ≠ 0
  radius : hello.capabilities.aoiRadiusCells ≠ 0
  cell : hello.capabilities.cellSizeM ≠ Platform.zero
  day : hello.clock.day ≠ 0
  timeOfDay : hello.clock.timeOfDay ≠ Platform.zero
  moonPhase : hello.clock.moonPhase ≠ Platform.zero
  weather : hello.weatherSeed ≠ 0

/-- What is known of the encoder. It leaves zeros out, so an answer is as long as its two strings allow when
there are none; a refusal has neither a player nor gold, and is the longer the longer its reason. -/
structure Sized (F : Type) [Platform F] [Codec F] (acceptedSize : Nat → Nat) (refusedSize : Nat → Nat → Nat) :
    Prop where
  accepted_le : ∀ seq (hello : ServerHello F), hello.capabilities.features = serverFeatures → hello.reason = "" →
    (Codec.encode { seq, payload := .serverHello hello }).length ≤ acceptedSize hello.serverName.utf8ByteSize
  accepted_eq : ∀ seq (hello : ServerHello F), Whole seq hello → hello.reason = "" → hello.accepted = true →
    hello.playerId ≠ 0 → hello.balanceGold ≠ 0 →
    (Codec.encode { seq, payload := .serverHello hello }).length = acceptedSize hello.serverName.utf8ByteSize
  refused_le : ∀ seq (hello : ServerHello F), hello.capabilities.features = serverFeatures →
    hello.accepted = false → hello.playerId = 0 → hello.balanceGold = 0 →
    (Codec.encode { seq, payload := .serverHello hello }).length ≤
      refusedSize hello.reason.utf8ByteSize hello.serverName.utf8ByteSize
  refused_eq : ∀ seq (hello : ServerHello F), Whole seq hello →
    hello.accepted = false → hello.playerId = 0 → hello.balanceGold = 0 →
    (Codec.encode { seq, payload := .serverHello hello }).length =
      refusedSize hello.reason.utf8ByteSize hello.serverName.utf8ByteSize
  grows : ∀ name, Monotone fun reason => refusedSize reason name

/-- No cell is of size zero, and at some time after the epoch nothing on the clock is zero. -/
structure OffZero (F : Type) [Platform F] : Prop where
  cell : Platform.cellSizeInRange (Platform.zero : F) = false
  clock : ∃ epochMs nowMs : Int64, (Platform.clockFromEpoch (F := F) epochMs nowMs).day ≠ 0 ∧
    (Platform.clockFromEpoch (F := F) epochMs nowMs).timeOfDay ≠ Platform.zero ∧
    (Platform.clockFromEpoch (F := F) epochMs nowMs).moonPhase ≠ Platform.zero

/-- The transport takes every answer to any hello, whenever it is heard. -/
def AnswersFit (cfg : ValidConfig F) : Prop :=
  ∀ (db : Persistence.Db F) (server : Server F) (pending : List Event),
    Reachable db server pending → server.cfg = cfg →
    ∀ (moment : Moment) (peer : PeerId) (hello : ClientHello),
      ∀ post ∈ (server.onHelloAt moment peer hello).1.sent.drop server.sent.length,
        (Codec.encode post.2).length ≤ WireProtocol.mtu - WireProtocol.headerSize ∧
          ∀ delivered, (server.onHelloAt moment peer hello).1.host.sendUnreliable post.1 (Codec.encode post.2)
            delivered ≠ .ok (.error .payloadExceedsMtu)

theorem sendUnreliable_taken {host : Host} {peer : PeerId} {bytes : WireProtocol.Bytes}
    (short : bytes.length ≤ WireProtocol.mtu - WireProtocol.headerSize) (delivered : Bool) :
    host.sendUnreliable peer bytes delivered ≠ .ok (.error .payloadExceedsMtu) := by
  unfold Host.sendUnreliable
  rw [if_neg (not_lt.mpr short)]
  split
  · simp
  split
  · simp
  · cases delivered <;> simp

/-- The longest acceptance and the longest refusal are within the payload. -/
structure NameFits (acceptedSize : Nat → Nat) (refusedSize : Nat → Nat → Nat) (cfg : Config F) : Prop where
  accepted : acceptedSize cfg.serverName.utf8ByteSize ≤ payloadLimit
  refused : refusedSize (longestRefusal cfg.maxWireStringLenUsize).utf8ByteSize cfg.serverName.utf8ByteSize ≤
    payloadLimit

theorem accepted_short (sized : Sized F acceptedSize refusedSize) {server : Server F}
    (short : acceptedSize server.cfg.serverName.utf8ByteSize ≤ payloadLimit) (seq : UInt32) (moment : Moment)
    (player : UInt64) (gold : Int64) :
    (Codec.encode { seq, payload := server.helloReply moment true "" player gold }).length ≤ payloadLimit :=
  (sized.accepted_le seq _ rfl rfl).trans short

theorem answers_fit_of_short (sized : Sized F acceptedSize refusedSize) {cfg : ValidConfig F}
    (fits : NameFits acceptedSize refusedSize cfg.toConfig) : AnswersFit cfg := by
  intro db server pending reached same moment peer hello post member
  have short : (Codec.encode post.2).length ≤ payloadLimit := by
    cases onHelloAt_answers server moment peer hello with
    | silent sent => simp [sent] at member
    | accepted player gold sent =>
        rw [sent, List.drop_left, List.mem_singleton] at member
        subst member
        exact accepted_short sized (same ▸ fits.accepted) _ _ _ _
    | refused brief sent =>
        rw [sent, List.drop_left, List.mem_singleton] at member
        subst member
        rw [same] at brief
        refine (sized.refused_le _ _ rfl rfl rfl rfl).trans ?_
        rw [same]
        exact (sized.grows _ brief).trans fits.refused
  exact ⟨short, sendUnreliable_taken short⟩

/-! The longest refusal. -/

def repeated (letter : Char) (count : Nat) : String := String.ofList (List.replicate count letter)

theorem repeated_size (count : Nat) : (repeated 'a' count).utf8ByteSize = count := by
  induction count with
  | zero => rfl
  | succ count ih =>
      have letter : (String.singleton 'a').utf8ByteSize = 1 := by decide
      have shape : repeated 'a' (count + 1) = String.singleton 'a' ++ repeated 'a' count := by
        unfold repeated
        rw [List.replicate_succ, ← List.singleton_append, String.ofList_append]
        rfl
      rw [shape, String.utf8ByteSize_append, letter, ih, add_comm]

/-- A hello whose API surface hash is a byte too long. -/
def overlongHello (maxLen : Nat) : ClientHello :=
  { protocolVersion
    token := none
    displayName := none
    apiSurfaceHash := some (repeated 'a' (maxLen + 1))
    gameBuild := none
    modVersion := none }

theorem validateHello_overlong (maxLen : Nat) :
    validateHello maxLen (overlongHello maxLen) = .error (longestRefusal maxLen) := by
  have size := repeated_size (maxLen + 1)
  have filled : (repeated 'a' (maxLen + 1)).isEmpty = false := by
    rw [Bool.eq_false_iff, ne_eq, String.isEmpty_iff, ← String.utf8ByteSize_eq_zero_iff, size]
    omega
  have beyond : stringWithinLimit (repeated 'a' (maxLen + 1)) maxLen = false := by
    unfold stringWithinLimit
    rw [size]
    exact decide_eq_false (by omega)
  simp only [validateHello, validateHelloString, overlongHello, filled, beyond, Option.getD_some, Bool.and_false,
    Bool.false_eq_true, if_false]
  rfl

omit [Codec F] in
theorem onHelloAt_overlong {server : Server F} {moment : Moment} {peer : PeerId}
    (heard : (server.helloLimiter.allow (UInt64.ofNat peer) moment.admissionMs).2 = true) :
    server.onHelloAt moment peer (overlongHello server.cfg.maxWireStringLenUsize) =
      ({ server with helloLimiter := (server.helloLimiter.allow (UInt64.ofNat peer) moment.admissionMs).1 }).rejectHello
        moment peer (longestRefusal server.cfg.maxWireStringLenUsize) := by
  have version : (overlongHello server.cfg.maxWireStringLenUsize).protocolVersion = protocolVersion := rfl
  simp only [onHelloAt, heard, version, validateHello_overlong, Bool.not_true, Bool.false_eq_true, if_false, ne_eq,
    not_true_eq_false]

omit [Codec F] in
theorem overlong_refused {server : Server F} {moment : Moment} {peer : PeerId}
    (heard : (server.helloLimiter.allow (UInt64.ofNat peer) moment.admissionMs).2 = true) :
    (server.onHelloAt moment peer (overlongHello server.cfg.maxWireStringLenUsize)).1.sent.drop server.sent.length =
      [(peer, { seq := server.seq + 1, payload :=
        server.helloReply moment false (longestRefusal server.cfg.maxWireStringLenUsize) 0 0 })] := by
  rw [onHelloAt_overlong heard]
  exact List.drop_left

/-! An answer without a zero. -/

omit [Codec F] in
theorem caps_whole (off : OffZero F) (cfg : ValidConfig F) : UInt8.ofNat cfg.tickHz.toNat ≠ 0 ∧
    UInt8.ofNat cfg.snapshotHz.toNat ≠ 0 ∧ UInt8.ofNat (min cfg.aoiRadiusCells.toNat maxU8) ≠ 0 ∧
      cfg.cellSizeM ≠ Platform.zero := by
  have passed := (requireAll_ok_iff cfg.checks).mp cfg.valid
  simp only [Config.checks, List.forall_mem_cons, Config.within, decide_eq_true_eq] at passed
  obtain ⟨-, -, -, -, -, radius, cell, -⟩ := passed
  have sound := cfg.sound
  have away : ∀ value, 0 < value → value ≤ maxU8 → UInt8.ofNat value ≠ 0 := by
    intro value positive wire zero
    have same := congrArg UInt8.toNat zero
    rw [UInt8.toNat_ofNat_of_lt' (Nat.lt_succ_of_le wire)] at same
    exact Nat.ne_of_gt positive same
  refine ⟨away _ sound.tickPositive sound.tickWire, away _ sound.snapshotPositive sound.snapshotWire,
    away _ (lt_min radius.1 (by decide)) (min_le_right _ _), ?_⟩
  intro zero
  rw [zero, off.cell, Bool.and_false] at cell
  cases cell

def readingAt (clockMs : Int64) : Moment := { calmAt 0 with clockMs }

/-- A server that has heard nobody, at an epoch and a time at which nothing on the clock is zero. -/
structure Unheard (cfg : ValidConfig F) (epochMs nowMs : Int64) (server : Server F) : Prop where
  settings : server.cfg = cfg
  grid : server.world.grid = ⟨cfg.cellSizeM⟩
  epoch : server.epochMs = epochMs
  weather : server.weatherSeed = 1
  seq : server.seq = 0
  limiter : server.helloLimiter.last = FiniteMap.empty
  clock : (Platform.clockFromEpoch (F := F) epochMs nowMs).day ≠ 0 ∧
    (Platform.clockFromEpoch (F := F) epochMs nowMs).timeOfDay ≠ Platform.zero ∧
    (Platform.clockFromEpoch (F := F) epochMs nowMs).moonPhase ≠ Platform.zero

section Unheard
variable {cfg : ValidConfig F} {epochMs nowMs : Int64} {server : Server F}

omit [Codec F] in
theorem Unheard.heard (unheard : Unheard cfg epochMs nowMs server) (peer : PeerId) :
    (server.helloLimiter.allow (UInt64.ofNat peer) (readingAt nowMs).admissionMs).2 = true :=
  Throttles.allow_fresh (by simp [unheard.limiter]) _

omit [Codec F] in
theorem Unheard.reply (off : OffZero F) (unheard : Unheard cfg epochMs nowMs server) (accepted : Bool)
    (reason : String) (player : UInt64) (gold : Int64) :
    ∃ reply, server.helloReply (readingAt nowMs) accepted reason player gold = .serverHello reply ∧
      Whole (server.seq + 1) reply ∧ reply.accepted = accepted ∧ reply.reason = reason ∧
      reply.playerId = player ∧ reply.balanceGold = gold ∧ reply.serverName = cfg.serverName := by
  obtain ⟨rfl, grid, rfl, weather, seq, -, day, timeOfDay, moonPhase⟩ := unheard
  obtain ⟨tick, snapshot, radius, cell⟩ := caps_whole off server.cfg
  refine ⟨_, rfl, ⟨rfl, by simp [seq], ⟨tick, snapshot⟩, radius, ?_, day, timeOfDay, moonPhase, ?_⟩, rfl, rfl, rfl,
    rfl, rfl⟩
  · show server.world.grid.cellSizeM ≠ Platform.zero
    rw [grid]
    exact cell
  · show server.weatherSeed ≠ 0
    simp [weather]

/-- A fresh server gives the longest refusal to the first hello with too long a hash. -/
theorem refusal_fits (sized : Sized F acceptedSize refusedSize) (off : OffZero F) (fits : AnswersFit cfg) :
    refusedSize (longestRefusal cfg.maxWireStringLenUsize).utf8ByteSize cfg.serverName.utf8ByteSize ≤
      payloadLimit := by
  obtain ⟨epochMs, nowMs, shows⟩ := off.clock
  obtain ⟨server, opened, unheard⟩ : ∃ server : Server F,
      Reachable (F := F) ⟨[], 0, [], FiniteMap.empty, [], []⟩ server [] ∧ Unheard cfg epochMs nowMs server :=
    ⟨Server.opened cfg _ FiniteMap.empty epochMs 1, .start rfl, rfl, rfl, rfl, rfl, rfl, rfl, shows⟩
  obtain ⟨reply, shape, whole, accepted, words, player, gold, name⟩ :=
    unheard.reply off false (longestRefusal cfg.maxWireStringLenUsize) 0 0
  have refused := overlong_refused (unheard.heard 1)
  rw [unheard.settings, shape] at refused
  have length := sized.refused_eq _ reply whole accepted player gold
  rw [words, name] at length
  rw [← length]
  exact (fits _ server [] opened unheard.settings (readingAt nowMs) 1 _ _
    (refused.symm ▸ List.mem_singleton_self _)).1

end Unheard

/-! A returning player with some gold. -/
section Returning
open HostIndex PlayerTable Persistence
variable {cfg : ValidConfig F} {epochMs nowMs : Int64}

def returningRow : PlayerRow := ⟨1, "sailor", tokenHash "a", 5, 0, 0⟩

def returningDb : Db F := ⟨[returningRow], 1, [], FiniteMap.empty, [], []⟩

def returningServer (cfg : ValidConfig F) (epochMs : Int64) (host : Host) : Server F :=
  { Server.opened cfg returningDb (FiniteMap.empty.insert (tokenHash "a") 1) epochMs 1 with host }

/-- The tables once the player is back. -/
def returnedDb : Db F := returningDb.updatePlayer 1 fun row => { row with name := "sailor", lastSeen := 0 }

omit [Codec F] in
theorem returner_lone (cfg : ValidConfig F) (epochMs nowMs : Int64) (host : Host)
    (located : host.peerAddr 1 = some loneAddr) :
    Returner (returningServer cfg epochMs host) (readingAt nowMs) 1 briefHello (tokenHash "a") "sailor" loneAddr.ip
      returningRow returnedDb := by
  have read := validateHello_brief (wire_string_positive cfg)
  have known : (returningServer cfg epochMs host).identityPlayers.get? (tokenHash "a") = some 1 :=
    FiniteMap.get?_insert_self _ _ _
  refine ⟨Throttles.allow_fresh rfl _, rfl, ⟨⟨⟨"a", read, rfl⟩, rfl, loneAddr, located, rfl⟩, ?_, ?_⟩, rfl, known, ?_,
    by decide⟩
  · refine (Throttles.bounded_allow_fresh (by simp [returningServer, Server.opened]) ?_ _).1
    simp [returningServer, Server.opened, Config.maxTransportPeersUsize, clampNat, FiniteMap.size]
  · simp only [identityRested, known]
    refine (Throttles.bounded_allow_fresh (by simp [returningServer, Server.opened]) ?_ _).1
    simp [returningServer, Server.opened, FiniteMap.size]
  · simp [Db.admitPlayerByToken, returningServer, Server.opened, returningDb, returningRow, returnedDb, readingAt,
      calmAt]

omit [Codec F] in
theorem returning_opened (cfg : ValidConfig F) (epochMs : Int64) : Server.new cfg returningDb epochMs 1 =
    .ok (Server.opened cfg returningDb (FiniteMap.empty.insert (tokenHash "a") 1) epochMs 1) := by
  have identities : (returningDb : Db F).playerIdentities (UInt32.ofNat (maxPlayerRowsCeiling + 1)) =
      [(tokenHash "a", 1)] := by
    rw [Db.playerIdentities, List.take_of_length_le (by simp [returningDb, maxPlayerRowsCeiling])]
    rfl
  have entry : identityEntry (tokenHash "a", 1) = .ok (tokenHash "a", 1) := by
    rw [identityEntry, show isHexIdentity (tokenHash "a") = true by decide +kernel]
    rfl
  have loaded : loadIdentityPlayers (returningDb : Db F) = .ok (FiniteMap.empty.insert (tokenHash "a") 1) := by
    unfold loadIdentityPlayers loadIdentityPlayersUpTo
    simp only [identities, List.mapM_cons, List.mapM_nil, entry]
    rfl
  rw [Server.new, loaded]
  rfl

omit [Codec F] in
/-- The acceptance tells the player its id and its gold. -/
theorem returner_accepted {pending : List Event} {server : Server F} (inv : Inv pending server)
    (returner : Returner server (readingAt nowMs) 1 briefHello (tokenHash "a") "sailor" loneAddr.ip returningRow
      returnedDb) :
    (server.onHelloAt (readingAt nowMs) 1 briefHello).1.sent = server.sent ++
      [(1, { seq := server.seq + 1, payload := server.helloReply (readingAt nowMs) true "" 1 5 })] := by
  obtain ⟨told, greets, sent⟩ := returner_told inv returner
  rw [sent, accepted_answer sent greets.accepted, greets.playerId, greets.balance]
  rfl

/-- The player boards a fresh server, which gives it the longest acceptance. -/
theorem acceptance_fits (sized : Sized F acceptedSize refusedSize) (off : OffZero F) (fits : AnswersFit cfg) :
    acceptedSize cfg.serverName.utf8ByteSize ≤ payloadLimit := by
  obtain ⟨epochMs, nowMs, shows⟩ := off.clock
  have opened : Reachable (F := F) returningDb _ [] := .start (returning_opened cfg epochMs)
  have untroubled : Untroubled (Server.opened (F := F) cfg returningDb
      (FiniteMap.empty.insert (tokenHash "a") 1) epochMs 1).host :=
    ⟨rfl, rfl, rfl, by simp [Server.opened, Host.bound]⟩
  obtain ⟨batch, maintenanceCursor, polled, host, events⟩ := @poll_boards _ loneAddr [0]
    opened.inv.hosted.indexed untroubled rfl rfl (PeerLimits.globalPositive _) (by decide)
  have calling : Reachable _ (returningServer cfg epochMs batch.host) _ := Reachable.poll 0 _ opened polled
  have present : batch.host.peers.get? loneAddr = some (boardingPeer loneAddr 0) := by
    rw [host]
    exact FiniteMap.get?_insert_self _ _ _
  have located := calling.inv.hosted.indexed.peerAddr_of present
  have returner := returner_lone cfg epochMs nowMs batch.host located
  have unheard : Unheard cfg epochMs nowMs (returningServer cfg epochMs batch.host) :=
    ⟨rfl, rfl, rfl, rfl, rfl, rfl, shows⟩
  generalize returningServer cfg epochMs batch.host = server at calling returner unheard
  obtain ⟨reply, shape, whole, accepted, words, player, gold, name⟩ := unheard.reply off true "" 1 5
  have told := returner_accepted calling.inv returner
  rw [shape] at told
  have length := sized.accepted_eq _ reply whole words accepted (by simp [player]) (by simp [gold])
  rw [name] at length
  rw [← length]
  exact (fits _ server _ calling unheard.settings (readingAt nowMs) 1 briefHello _ (by
    rw [told, List.drop_left]
    exact List.mem_singleton_self _)).1

end Returning

/-- Every answer fits just when the server's name leaves room for the longest acceptance and for the longest
refusal. -/
theorem answers_fit_iff (sized : Sized F acceptedSize refusedSize) (off : OffZero F) (cfg : ValidConfig F) :
    AnswersFit cfg ↔ NameFits acceptedSize refusedSize cfg.toConfig :=
  ⟨fun fits => ⟨acceptance_fits sized off fits, refusal_fits sized off fits⟩, answers_fit_of_short sized⟩

end Delivery

/-! The contract's own layout of an answer. -/
section Layout
open BufferLayout

/-- The fields of an answer that are left out when they are zero. -/
inductive Number where
  | accepted | playerId | balanceGold | weatherSeed | weatherEpochDay | day | timeOfDay | moonPhase
  | cellSizeM | aoiRadiusCells | snapshotHz | tickHz | seq

-- The tables in the order in which they are created, each with its fields in the order in which they are pushed;
-- the places of strings, vectors and tables and the two version numbers are always written.
def tailPieces (features : List String) (written : Number → Bool) : List Piece :=
  features.map (fun feature => .text feature.utf8ByteSize) ++
    [ .vector features.length,
      .table [⟨5, .word, written .cellSizeM⟩, ⟨1, .word, true⟩, ⟨0, .short, true⟩,
        ⟨4, .byte, written .aoiRadiusCells⟩, ⟨3, .byte, written .snapshotHz⟩, ⟨2, .byte, written .tickHz⟩],
      .table [⟨2, .word, written .moonPhase⟩, ⟨1, .word, written .timeOfDay⟩, ⟨0, .word, written .day⟩],
      .table [⟨0, .long, written .weatherSeed⟩, ⟨1, .word, written .weatherEpochDay⟩],
      .table [⟨4, .long, written .balanceGold⟩, ⟨2, .long, written .playerId⟩, ⟨7, .word, true⟩, ⟨6, .word, true⟩,
        ⟨5, .word, true⟩, ⟨3, .word, true⟩, ⟨1, .word, true⟩, ⟨0, .byte, written .accepted⟩],
      .table [⟨2, .word, true⟩, ⟨0, .word, written .seq⟩, ⟨1, .byte, true⟩] ]

/-- The numbers of a refusal without a player or gold, or of an acceptance; only the weather's first day may be
zero. -/
def fullNumbers (accepted firstDay : Bool) : Number → Bool
  | .accepted | .playerId | .balanceGold => accepted
  | .weatherEpochDay => firstDay
  | _ => true

def answerSize (accepted : Bool) (reason name : Nat) : Nat :=
  sizeCeiling (.text reason :: .text name :: tailPieces serverFeatures (fullNumbers accepted true))

theorem size_full (accepted firstDay : Bool) (reason name : Nat) :
    size (.text reason :: .text name :: tailPieces serverFeatures (fullNumbers accepted firstDay)) =
      answerSize accepted reason name := by
  have reached : ∀ accepted firstDay, ∀ position ∈ [0, 4],
      (Builder.writeAll ⟨position, .word, []⟩ (tailPieces serverFeatures (fullNumbers accepted firstDay))).finish =
        endCeiling position (tailPieces serverFeatures (fullNumbers accepted true)) := by decide +kernel
  exact size_eq_ceiling reason name (reached accepted firstDay)

theorem tailPieces_within {written larger : Number → Bool}
    (within : ∀ number, written number = true → larger number = true) :
    List.Forall₂ Piece.Within (tailPieces serverFeatures written) (tailPieces serverFeatures larger) := by
  unfold tailPieces
  repeat' constructor
  all_goals first | exact fun _ => rfl | exact within _

/-- A longer reason makes no shorter answer, and neither does a number more. -/
theorem size_le_answerSize {written : Number → Bool} {accepted : Bool} {reason longer name : Nat}
    (within : ∀ number, written number = true → fullNumbers accepted true number = true) (below : reason ≤ longer) :
    size (.text reason :: .text name :: tailPieces serverFeatures written) ≤ answerSize accepted longer name :=
  size_le (.cons (.text below) (.cons (.text le_rfl) (tailPieces_within within)))

section Encoder
variable {F : Type} [Platform F] [DecidableEq F]

def nonzero (seq : UInt32) (hello : ServerHello F) : Number → Bool
  | .accepted => hello.accepted
  | .playerId => hello.playerId != 0
  | .balanceGold => hello.balanceGold != 0
  | .weatherSeed => hello.weatherSeed != 0
  | .weatherEpochDay => hello.weatherEpochDay != 0
  | .day => hello.clock.day != 0
  | .timeOfDay => decide (hello.clock.timeOfDay ≠ Platform.zero)
  | .moonPhase => decide (hello.clock.moonPhase ≠ Platform.zero)
  | .cellSizeM => decide (hello.capabilities.cellSizeM ≠ Platform.zero)
  | .aoiRadiusCells => hello.capabilities.aoiRadiusCells != 0
  | .snapshotHz => hello.capabilities.snapshotHz != 0
  | .tickHz => hello.capabilities.tickHz != 0
  | .seq => seq != 0

def helloPieces (seq : UInt32) (hello : ServerHello F) : List Piece :=
  .text hello.reason.utf8ByteSize :: .text hello.serverName.utf8ByteSize ::
    tailPieces hello.capabilities.features (nonzero seq hello)

/-- As many bytes as the contract's builder writes. -/
def layoutBytes (envelope : Envelope F) : WireProtocol.Bytes :=
  match envelope.payload with
  | .serverHello hello => List.replicate (size (helloPieces envelope.seq hello)) 0
  | _ => []

theorem Whole.nonzero_eq {seq : UInt32} {hello : ServerHello F} (whole : Whole seq hello) {accepted : Bool}
    (answer : hello.accepted = accepted ∧ (hello.playerId != 0) = accepted ∧ (hello.balanceGold != 0) = accepted) :
    nonzero seq hello = fullNumbers accepted (hello.weatherEpochDay != 0) := by
  obtain ⟨-, numbered, ⟨tick, snapshot⟩, radius, cell, day, timeOfDay, moonPhase, weather⟩ := whole
  obtain ⟨same, player, gold⟩ := answer
  funext number
  cases number <;> simp only [nonzero, fullNumbers] <;> first | assumption | simpa

theorem layoutBytes_length (seq : UInt32) (hello : ServerHello F) :
    (layoutBytes { seq, payload := .serverHello hello }).length = size (helloPieces seq hello) :=
  List.length_replicate

/-- Of an encoder that writes as much as the contract's builder, the sizes of the answers are known. -/
theorem layout_sized [Codec F] (laid : ∀ seq (hello : ServerHello F),
    (Codec.encode { seq, payload := .serverHello hello }).length = size (helloPieces seq hello)) :
    Sized F (answerSize true 0) (answerSize false) := by
  have refusedWithin : ∀ {seq} {hello : ServerHello F}, hello.accepted = false → hello.playerId = 0 →
      hello.balanceGold = 0 →
      ∀ number, nonzero seq hello number = true → fullNumbers false true number = true := by
    intro seq hello accepted player gold number
    cases number <;> simp [nonzero, fullNumbers, accepted, player, gold]
  have acceptedWithin : ∀ {written : Number → Bool} number, written number = true →
      fullNumbers true true number = true := by
    intro written number
    cases number <;> exact fun _ => rfl
  constructor
  · intro seq hello features silent
    rw [laid, helloPieces, features, silent]
    exact size_le_answerSize acceptedWithin le_rfl
  · intro seq hello whole silent accepted player gold
    rw [laid, helloPieces, whole.features, silent,
      whole.nonzero_eq ⟨accepted, bne_iff_ne.mpr player, bne_iff_ne.mpr gold⟩]
    exact size_full _ _ _ _
  · intro seq hello features accepted player gold
    rw [laid, helloPieces, features]
    exact size_le_answerSize (refusedWithin accepted player gold) le_rfl
  · intro seq hello whole accepted player gold
    rw [laid, helloPieces, whole.features,
      whole.nonzero_eq ⟨accepted, by simp [player], by simp [gold]⟩]
    exact size_full _ _ _ _
  · intro name reason longer below
    simp only
    rw [← size_full false true reason name]
    exact size_le_answerSize (fun _ => id) below

/-- An answer with a name beyond the payload is refused by the transport. -/
theorem layoutBytes_refused {reply : ServerHello F} (long : payloadLimit < reply.serverName.utf8ByteSize)
    (host : Host) (peer : PeerId) (seq : UInt32) (delivered : Bool) :
    host.sendUnreliable peer (layoutBytes { seq, payload := .serverHello reply }) delivered =
      .ok (.error .payloadExceedsMtu) := by
  have size : reply.serverName.utf8ByteSize ≤ (layoutBytes { seq, payload := .serverHello reply }).length := by
    rw [layoutBytes_length]
    exact text_le_size (by simp [helloPieces])
  have beyond : (layoutBytes { seq, payload := .serverHello reply }).length >
      WireProtocol.mtu - WireProtocol.headerSize := long.trans_le size
  simp only [Host.sendUnreliable, beyond, if_true]

end Encoder

/-! Names of single letters. -/

/-- No check looks at the name. -/
theorem validate_named {F : Type} [Platform F] (cfg : Config F) (serverName : String) :
    { cfg with serverName }.validate = cfg.validate := rfl

def named {F : Type} [Platform F] (cfg : ValidConfig F) (letters : Nat) : ValidConfig F :=
  { cfg.toConfig with
    serverName := repeated 'a' letters
    valid := (validate_named _ _).trans cfg.valid }

/-- Rational metres and days. -/
local instance exactMetres : Platform ℚ where
  zero := 0
  one := 1
  isFinite _ := true
  clamp value limit := max (-limit) (min value limit)
  maxWorldCoordM := 10000000
  maxVelocityMps := 10000
  cellIndex position size := ⌊position / size⌋
  cellSizeInRange size := decide (1 ≤ size ∧ size ≤ 1000000)
  clockFromEpoch epochMs nowMs :=
    let totalDays : ℚ := (nowMs.toInt - epochMs.toInt).toNat / 1200000
    let day := ⌊totalDays⌋.toNat
    { day := UInt32.ofNat day
      timeOfDay := Int.fract totalDays
      moonPhase := (day % 30 : Nat) / 30 }

theorem exactMetres_offZero : OffZero ℚ := by
  refine ⟨by decide +kernel, 0, 1800000, ?_⟩
  decide +kernel

local instance layoutCodec : Codec ℚ where
  encode := layoutBytes
  decode _ := none

def metricConfig : ValidConfig ℚ := ValidConfig.default 1024 rfl (by decide +kernel)

theorem nameFits_named {acceptedSize : Nat → Nat} {refusedSize : Nat → Nat → Nat} (letters : Nat) :
    NameFits acceptedSize refusedSize (named metricConfig letters).toConfig ↔
      acceptedSize letters ≤ 1023 ∧ refusedSize 51 letters ≤ 1023 := by
  have name : (named metricConfig letters).serverName.utf8ByteSize = letters := repeated_size letters
  have digits : (512 : Nat).repr.utf8ByteSize = 3 := by decide +kernel
  have longest : (longestRefusal (named metricConfig letters).maxWireStringLenUsize).utf8ByteSize = 51 := by
    rw [longestRefusal_size, show (named metricConfig letters).maxWireStringLenUsize = 512 from rfl, digits]
  have limit : payloadLimit = 1023 := rfl
  constructor
  · rintro ⟨accepted, refused⟩
    rw [name, limit] at accepted
    rw [longest, name, limit] at refused
    exact ⟨accepted, refused⟩
  · rintro ⟨accepted, refused⟩
    refine ⟨?_, ?_⟩
    · rwa [name, limit]
    · rwa [longest, name, limit]

/-- With the contract's builder and the default limit a name may have 687 bytes. -/
theorem answers_fit_named : AnswersFit (named metricConfig 687) ∧ ¬ AnswersFit (named metricConfig 688) := by
  rw [answers_fit_iff (layout_sized layoutBytes_length) exactMetres_offZero, answers_fit_iff (layout_sized layoutBytes_length) exactMetres_offZero,
    nameFits_named, nameFits_named]
  decide +kernel

/-- Validation lets a name through with which no player can be accepted. -/
theorem long_name_undelivered : ¬ AnswersFit (named metricConfig 2000) := by
  intro fits
  have accepted := acceptance_fits (layout_sized layoutBytes_length) exactMetres_offZero fits
  have name : (named metricConfig 2000).serverName.utf8ByteSize = 2000 := repeated_size 2000
  rw [name] at accepted
  exact absurd accepted (by decide +kernel)

end Layout
end SailwindOnline.HelloSizes
