import SailwindOnline.NetClient

/-!
The client's state reporter. Each frame it may send the pose of the player's
boat; a frame that is due, with a boat or without, puts the next one off by the
period of the advertised snapshot rate.
-/

namespace SailwindOnline.Sync
variable {F : Type}

def defaultSnapshotHz : Int := 4

/-- What a frame reads of the client; no pose is no boat to report. -/
structure ReporterFrame (F : Type) where
  handshakeComplete : Bool
  nowMs : Int
  snapshotHz : UInt8
  boat : Option (Net.BoatPose F)

structure StateReporter where
  nextSendMs : Int

namespace StateReporter

def intervalMs (hz : UInt8) : Int := if 0 < hz then 1000 / hz.toNat else 1000 / defaultSnapshotHz

/-- The pose is sent at the time of the frame. -/
def tick (reporter : StateReporter) (frame : ReporterFrame F) : StateReporter × Option (Int × Net.BoatPose F) :=
  if !frame.handshakeComplete then (reporter, none)
  else if frame.nowMs < reporter.nextSendMs then (reporter, none)
  else
    ({ nextSendMs := frame.nowMs + intervalMs frame.snapshotHz },
      frame.boat.map fun pose => (frame.nowMs, pose))

def sends : StateReporter → List (ReporterFrame F) → List (Int × Net.BoatPose F)
  | _, [] => []
  | reporter, frame :: rest => (reporter.tick frame).2.toList ++ (reporter.tick frame).1.sends rest

theorem intervalMs_nonneg (hz : UInt8) : 0 ≤ intervalMs hz := by
  unfold intervalMs
  split
  · exact Int.ediv_nonneg (by omega) (Int.natCast_nonneg _)
  · decide

/-- A frame is passed over, or it is due and the next one waits for the interval. -/
theorem tick_cases (reporter : StateReporter) (frame : ReporterFrame F) :
    reporter.tick frame = (reporter, none) ∨
      (frame.handshakeComplete = true ∧ reporter.nextSendMs ≤ frame.nowMs ∧
        reporter.tick frame = ({ nextSendMs := frame.nowMs + intervalMs frame.snapshotHz },
          frame.boat.map fun pose => (frame.nowMs, pose))) := by
  unfold tick
  cases complete : frame.handshakeComplete with
  | false => exact .inl rfl
  | true =>
      by_cases early : frame.nowMs < reporter.nextSendMs
      · exact .inl (by simp [early])
      · exact .inr ⟨rfl, not_lt.mp early, by simp [early]⟩

theorem sends_due (reporter : StateReporter) (frames : List (ReporterFrame F)) :
    ∀ sent ∈ reporter.sends frames, reporter.nextSendMs ≤ sent.1 := by
  induction frames generalizing reporter with
  | nil => simp [sends]
  | cons frame rest ih =>
      intro sent member
      rw [sends, List.mem_append] at member
      rcases tick_cases reporter frame with passed | ⟨-, due, ticked⟩
      · rw [passed] at member
        simp only [Option.toList_none, List.not_mem_nil, false_or] at member
        exact ih reporter sent member
      · rw [ticked] at member
        rcases member with now | later
        · obtain ⟨pose, -, rfl⟩ := Option.map_eq_some_iff.mp (Option.mem_toList.mp now)
          exact due
        · have waited : frame.nowMs + intervalMs frame.snapshotHz ≤ sent.1 := ih _ sent later
          have forward := intervalMs_nonneg frame.snapshotHz
          omega

/-- At one advertised rate any two poses are sent at least its period apart. -/
theorem sends_spaced {hz : UInt8} (reporter : StateReporter) (frames : List (ReporterFrame F))
    (advertised : ∀ frame ∈ frames, frame.handshakeComplete = true → frame.snapshotHz = hz) :
    (reporter.sends frames).Pairwise fun earlier later => earlier.1 + intervalMs hz ≤ later.1 := by
  induction frames generalizing reporter with
  | nil => exact .nil
  | cons frame rest ih =>
      rw [List.forall_mem_cons] at advertised
      rw [sends]
      rcases tick_cases reporter frame with passed | ⟨complete, -, ticked⟩
      · rw [passed]
        exact ih reporter advertised.2
      · rw [ticked, List.pairwise_append]
        refine ⟨?_, ih _ advertised.2, ?_⟩
        · cases frame.boat <;> simp
        · intro earlier now later after
          obtain ⟨pose, -, rfl⟩ := Option.map_eq_some_iff.mp (Option.mem_toList.mp now)
          have waited := sends_due _ rest later after
          rw [advertised.1 complete] at waited
          exact waited

end StateReporter
end SailwindOnline.Sync

namespace SailwindOnline.Net.NetClient
variable {F N : Type} [Library N]

/-- A frame of the reporter that drives this client. -/
def reporterFrame (client : NetClient F N) (boat : Option (BoatPose F)) : Sync.ReporterFrame F :=
  { handshakeComplete := client.handshakeComplete
    nowMs := client.nowMs
    snapshotHz := client.snapshotHz
    boat }

/-- The handshake that makes the client ready leaves it with the rate the server advertised. -/
theorem onServerHello_rate [Platform F] {client : NetClient F N} {hello : ServerHello F}
    (waiting : client.status = .handshaking) (ready : (client.onServerHello hello).status = .ready) :
    ∃ capabilities, hello.capabilities = some capabilities ∧
      (0 < capabilities.snapshotHz → (client.onServerHello hello).snapshotHz = capabilities.snapshotHz) := by
  have ended : client.endHandshakeAttempt.status ≠ .ready := nofun
  unfold onServerHello at ready ⊢
  simp only [waiting, ne_eq, not_true_eq_false, if_false] at ready ⊢
  split at ready
  · exact absurd ready ended
  rename_i accepted
  split at ready
  · exact absurd ready ended
  · rename_i capabilities held
    split at ready
    · exact absurd ready ended
    · rename_i version
      refine ⟨capabilities, held, fun positive => ?_⟩
      simp only [accepted, version, Bool.false_eq_true, if_false, positive, if_true]
      cases hello.clock <;> rfl

end SailwindOnline.Net.NetClient
