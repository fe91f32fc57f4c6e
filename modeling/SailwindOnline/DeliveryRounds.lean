import Mathlib.Data.List.Nodup
import Mathlib.Logic.Function.Basic

/-!
Parcels carried round a captured audience. A parcel names its audience when it
is captured and visits it in order; lanes are queues of parcels worked from the
front, and a lane may be discarded whole. A member of the audience is known by
the moment its connection opened, so that a later connection under the same
name is told apart. Every history kept by these rules hands a parcel to the
connections it was captured for and to nobody else, each at most once, and each
lane in the order of its captures.
-/

namespace SailwindOnline.DeliveryRounds

structure Captive (Peer : Type) where
  peer : Peer
  opened : Nat

/-- A member examined; `holder` is when the connection its name then stood for had opened. -/
structure Visit (Peer : Type) extends Captive Peer where
  holder : Option Nat
  inView : Bool
  delivered : Bool

structure Slip (Load Lane : Type) where
  number : Nat
  lane : Lane
  load : Load

structure Parcel (Peer Load Lane : Type) extends Slip Load Lane where
  captives : List (Captive Peer)
  visits : List (Visit Peer) := []

/-- One delivery, as the log keeps it. -/
structure Handed (Peer Load Lane : Type) where
  slip : Slip Load Lane
  visit : Visit Peer

/-- `now` counts captures and openings, so that no two of them share a moment. -/
structure Mail (Peer Load Lane : Type) where
  now : Nat := 0
  opened : Peer → Nat := fun _ => 0
  lanes : Lane → List (Parcel Peer Load Lane) := fun _ => []
  completed : List (Parcel Peer Load Lane) := []
  handed : List (Handed Peer Load Lane) := []

section Operations
variable {Peer Load Lane : Type} [DecidableEq Lane]

namespace Mail

def setLane (mail : Mail Peer Load Lane) (lane : Lane) (parcels : List (Parcel Peer Load Lane)) :
    Mail Peer Load Lane :=
  { mail with lanes := Function.update mail.lanes lane parcels }

def discard (mail : Mail Peer Load Lane) (lane : Lane) : Mail Peer Load Lane := mail.setLane lane []

def capture (mail : Mail Peer Load Lane) (lane : Lane) (load : Load) (captives : List (Captive Peer)) :
    Mail Peer Load Lane :=
  { mail.setLane lane (mail.lanes lane ++ [{ number := mail.now, lane, load, captives }]) with
    now := mail.now + 1 }

def examine (mail : Mail Peer Load Lane) (lane : Lane) (holder : Peer → Option Nat)
    (inView : Load → Peer → Bool) (delivered : Bool) : Mail Peer Load Lane :=
  match mail.lanes lane with
  | [] => mail
  | parcel :: rest =>
    match parcel.captives[parcel.visits.length]? with
    | none => mail
    | some captive =>
      let visit : Visit Peer :=
        { captive with holder := holder captive.peer, inView := inView parcel.load captive.peer, delivered }
      { mail.setLane lane ({ parcel with visits := parcel.visits ++ [visit] } :: rest) with
        handed := if delivered then mail.handed ++ [⟨parcel.toSlip, visit⟩] else mail.handed }

def finish (mail : Mail Peer Load Lane) (lane : Lane) : Mail Peer Load Lane :=
  match mail.lanes lane with
  | [] => mail
  | parcel :: rest => { mail.setLane lane rest with completed := mail.completed ++ [parcel] }

/-- Connections that open now are stamped with this moment. -/
def advance (mail : Mail Peer Load Lane) (opens : Peer → Bool) : Mail Peer Load Lane :=
  { mail with
    now := mail.now + 1
    opened := fun peer => if opens peer then mail.now else mail.opened peer }

end Mail

/-- Where a parcel stands in its round. -/
structure Parcel.Fair (parcel : Parcel Peer Load Lane) : Prop where
  once : (parcel.captives.map Captive.peer).Nodup
  earlier : ∀ captive ∈ parcel.captives, captive.opened < parcel.number
  inTurn : parcel.visits.map Visit.toCaptive <+: parcel.captives
  delivered_iff : ∀ visit ∈ parcel.visits,
    visit.delivered = true ↔ visit.holder = some visit.opened ∧ visit.inView = true

/-- The deliveries of one parcel, as its visits tell them. -/
def Parcel.deliveries (parcel : Parcel Peer Load Lane) : List (Handed Peer Load Lane) :=
  (parcel.visits.filter Visit.delivered).map fun visit => ⟨parcel.toSlip, visit⟩

def Mail.handedFor (mail : Mail Peer Load Lane) (number : Nat) : List (Handed Peer Load Lane) :=
  mail.handed.filter fun entry => entry.slip.number = number

/-- Deliveries of one lane come in the order of its captures, and no round meets a name twice. -/
def InOrder (early late : Handed Peer Load Lane) : Prop :=
  early.slip.lane = late.slip.lane →
    early.slip.number < late.slip.number ∨
      early.slip.number = late.slip.number ∧ early.visit.peer ≠ late.visit.peer

structure Mail.Sound (mail : Mail Peer Load Lane) : Prop where
  sited : ∀ lane, ∀ parcel ∈ mail.lanes lane, parcel.lane = lane
  fair : ∀ lane, ∀ parcel ∈ mail.lanes lane, parcel.Fair
  past : ∀ lane, ∀ parcel ∈ mail.lanes lane, parcel.number < mail.now
  sorted : ∀ lane, (mail.lanes lane).Pairwise fun early late => early.number < late.number
  apart : ∀ lane other, ∀ parcel ∈ mail.lanes lane, ∀ rival ∈ mail.lanes other,
    parcel.number = rival.number → lane = other
  accounted : ∀ lane, ∀ parcel ∈ mail.lanes lane, mail.handedFor parcel.number = parcel.deliveries
  finished : ∀ parcel ∈ mail.completed, parcel.Fair ∧ parcel.number < mail.now ∧
    parcel.visits.map Visit.toCaptive = parcel.captives ∧ mail.handedFor parcel.number = parcel.deliveries
  retired : ∀ parcel ∈ mail.completed, ∀ lane, ∀ rival ∈ mail.lanes lane, parcel.number ≠ rival.number
  logged : ∀ entry ∈ mail.handed, entry.slip.number < mail.now ∧
    entry.visit.holder = some entry.visit.opened ∧ entry.visit.opened < entry.slip.number
  frontier : ∀ entry ∈ mail.handed, ∀ parcel ∈ mail.lanes entry.slip.lane,
    entry.slip.number < parcel.number ∨
      entry.slip.number = parcel.number ∧ entry.visit.peer ∈ parcel.visits.map fun visit => visit.peer
  inOrder : mail.handed.Pairwise InOrder

/-! Each operation keeps the history sound. -/

variable {mail next : Mail Peer Load Lane} {lane : Lane} {parcel : Parcel Peer Load Lane}
  {rest : List (Parcel Peer Load Lane)}

omit [DecidableEq Lane] in
theorem Mail.Sound.empty : ({} : Mail Peer Load Lane).Sound := by
  constructor <;> simp

omit [DecidableEq Lane] in
theorem Mail.Sound.sublanes (sound : mail.Sound)
    (lanes : ∀ lane, (next.lanes lane).Sublist (mail.lanes lane)) (now : mail.now ≤ next.now)
    (completed : next.completed = mail.completed) (handed : next.handed = mail.handed) : next.Sound where
  sited lane parcel member := sound.sited lane parcel ((lanes lane).mem member)
  fair lane parcel member := sound.fair lane parcel ((lanes lane).mem member)
  past lane parcel member := Nat.lt_of_lt_of_le (sound.past lane parcel ((lanes lane).mem member)) now
  sorted lane := (sound.sorted lane).sublist (lanes lane)
  apart lane other parcel member rival held :=
    sound.apart lane other parcel ((lanes lane).mem member) rival ((lanes other).mem held)
  accounted lane parcel member := by
    rw [Mail.handedFor, handed]
    exact sound.accounted lane parcel ((lanes lane).mem member)
  finished parcel member := by
    rw [completed] at member
    obtain ⟨fair, past, whole, accounted⟩ := sound.finished parcel member
    refine ⟨fair, Nat.lt_of_lt_of_le past now, whole, ?_⟩
    rw [Mail.handedFor, handed]
    exact accounted
  retired parcel member lane rival held :=
    sound.retired parcel (completed ▸ member) lane rival ((lanes lane).mem held)
  logged entry member := by
    rw [handed] at member
    obtain ⟨past, holder, opened⟩ := sound.logged entry member
    exact ⟨Nat.lt_of_lt_of_le past now, holder, opened⟩
  frontier entry member parcel held :=
    sound.frontier entry (handed ▸ member) parcel ((lanes _).mem held)
  inOrder := handed ▸ sound.inOrder

theorem Mail.setLane_sublanes {parcels : List (Parcel Peer Load Lane)}
    (fewer : parcels.Sublist (mail.lanes lane)) (other : Lane) :
    ((mail.setLane lane parcels).lanes other).Sublist (mail.lanes other) := by
  by_cases own : other = lane
  · subst own
    simpa [setLane] using fewer
  · simp [setLane, own]

theorem Mail.discard_empty (empty : mail.lanes lane = []) : mail.discard lane = mail := by
  simp only [Mail.discard, Mail.setLane, ← empty, Function.update_eq_self]

theorem Mail.Sound.discard (sound : mail.Sound) (lane : Lane) : (mail.discard lane).Sound :=
  sound.sublanes (Mail.setLane_sublanes (List.nil_sublist _)) (Nat.le_refl _) rfl rfl

omit [DecidableEq Lane] in
theorem Mail.Sound.advance (sound : mail.Sound) (opens : Peer → Bool) : (mail.advance opens).Sound :=
  sound.sublanes (fun _ => List.Sublist.refl _) (Nat.le_succ _) rfl rfl

theorem Mail.Sound.finish (sound : mail.Sound) (front : mail.lanes lane = parcel :: rest)
    (whole : parcel.visits.length = parcel.captives.length) : (mail.finish lane).Sound := by
  have member : parcel ∈ mail.lanes lane := front ▸ List.mem_cons_self
  have others : ∀ other, ∀ rival ∈ (mail.setLane lane rest).lanes other, parcel.number ≠ rival.number := by
    intro other rival held same
    have own := sound.apart lane other parcel member rival
      ((Mail.setLane_sublanes (front ▸ List.sublist_cons_self parcel rest) other).mem held) same
    subst own
    have order := sound.sorted lane
    rw [front, List.pairwise_cons] at order
    have later := order.1 rival (by simpa [Mail.setLane] using held)
    omega
  have left : (mail.setLane lane rest).Sound :=
    sound.sublanes (Mail.setLane_sublanes (front ▸ List.sublist_cons_self parcel rest)) (Nat.le_refl _) rfl rfl
  have round : parcel.visits.map Visit.toCaptive = parcel.captives :=
    (sound.fair lane parcel member).inTurn.eq_of_length (by simpa using whole)
  unfold Mail.finish
  rw [front]
  refine ⟨left.sited, left.fair, left.past, left.sorted, left.apart, left.accounted, ?_, ?_, left.logged,
    left.frontier, left.inOrder⟩
  · intro other done
    rcases List.mem_append.mp done with earlier | last
    · exact left.finished other earlier
    · cases List.mem_singleton.mp last
      exact ⟨sound.fair lane parcel member, sound.past lane parcel member, round,
        sound.accounted lane parcel member⟩
  · intro other done
    rcases List.mem_append.mp done with earlier | last
    · exact left.retired other earlier
    · cases List.mem_singleton.mp last
      exact others

omit [DecidableEq Lane] in
theorem Mail.Sound.none_handed (sound : mail.Sound) : mail.handedFor mail.now = [] := by
  rw [Mail.handedFor, List.filter_eq_nil_iff]
  intro entry member
  have past := (sound.logged entry member).1
  simp only [decide_eq_true_eq]
  omega

theorem Mail.Sound.capture (sound : mail.Sound) (lane : Lane) (load : Load) {captives : List (Captive Peer)}
    (once : (captives.map Captive.peer).Nodup) (earlier : ∀ captive ∈ captives, captive.opened < mail.now) :
    (mail.capture lane load captives).Sound := by
  -- A held parcel is an old one, or the new one in its own lane.
  have held : ∀ other, ∀ parcel ∈ (mail.capture lane load captives).lanes other,
      parcel ∈ mail.lanes other ∨
        other = lane ∧ parcel = { number := mail.now, lane, load, captives } := by
    intro other parcel member
    by_cases own : other = lane
    · subst own
      simp only [Mail.capture, Mail.setLane, Function.update_self, List.mem_append, List.mem_singleton] at member
      exact member.imp_right fun new => ⟨rfl, new⟩
    · simp only [Mail.capture, Mail.setLane, Function.update_of_ne own] at member
      exact Or.inl member
  have fresh : ({ number := mail.now, lane, load, captives } : Parcel Peer Load Lane).Fair :=
    ⟨once, earlier, List.nil_prefix, by simp⟩
  constructor
  case sited =>
    intro other parcel member
    rcases held other parcel member with old | ⟨rfl, rfl⟩
    · exact sound.sited other parcel old
    · rfl
  case fair =>
    intro other parcel member
    rcases held other parcel member with old | ⟨rfl, rfl⟩
    · exact sound.fair other parcel old
    · exact fresh
  case past =>
    intro other parcel member
    rcases held other parcel member with old | ⟨rfl, rfl⟩
    · exact Nat.lt_succ_of_lt (sound.past other parcel old)
    · exact Nat.lt_succ_self _
  case sorted =>
    intro other
    by_cases own : other = lane
    · subst own
      simp only [Mail.capture, Mail.setLane, Function.update_self]
      refine List.pairwise_append.mpr ⟨sound.sorted other, List.pairwise_singleton .., ?_⟩
      intro parcel member new last
      cases List.mem_singleton.mp last
      exact sound.past other parcel member
    · simp only [Mail.capture, Mail.setLane, Function.update_of_ne own]
      exact sound.sorted other
  case apart =>
    intro one other parcel member rival also same
    rcases held one parcel member with old | ⟨rfl, rfl⟩ <;>
      rcases held other rival also with known | ⟨rfl, rfl⟩
    · exact sound.apart one other parcel old rival known same
    · have past := sound.past one parcel old
      simp only at same
      omega
    · have past := sound.past other rival known
      simp only at same
      omega
    · rfl
  case accounted =>
    intro other parcel member
    rcases held other parcel member with old | ⟨rfl, rfl⟩
    · exact sound.accounted other parcel old
    · exact sound.none_handed
  case finished =>
    intro parcel member
    obtain ⟨fair, past, whole, accounted⟩ := sound.finished parcel member
    exact ⟨fair, Nat.lt_succ_of_lt past, whole, accounted⟩
  case retired =>
    intro parcel member other rival also same
    rcases held other rival also with known | ⟨rfl, rfl⟩
    · exact sound.retired parcel member other rival known same
    · have past := (sound.finished parcel member).2.1
      simp only at same
      omega
  case logged =>
    intro entry member
    obtain ⟨past, holder, opened⟩ := sound.logged entry member
    exact ⟨Nat.lt_succ_of_lt past, holder, opened⟩
  case frontier =>
    intro entry member parcel also
    rcases held entry.slip.lane parcel also with known | ⟨here, rfl⟩
    · exact sound.frontier entry member parcel known
    · exact Or.inl (sound.logged entry member).1
  case inOrder => exact sound.inOrder

omit [DecidableEq Lane] in
theorem Parcel.deliveries_visit (parcel : Parcel Peer Load Lane) (visit : Visit Peer) :
    Parcel.deliveries { parcel with visits := parcel.visits ++ [visit] } =
      parcel.deliveries ++ if visit.delivered then [⟨parcel.toSlip, visit⟩] else [] := by
  cases delivered : visit.delivered <;> simp [Parcel.deliveries, List.filter_append, delivered]

omit [DecidableEq Lane] in
/-- One more examined member keeps the round fair. -/
theorem Parcel.Fair.visit (fair : parcel.Fair) {visit : Visit Peer}
    (next : parcel.captives[parcel.visits.length]? = some visit.toCaptive)
    (right : visit.delivered = true ↔ visit.holder = some visit.opened ∧ visit.inView = true) :
    Parcel.Fair { parcel with visits := parcel.visits ++ [visit] } where
  once := fair.once
  earlier := fair.earlier
  inTurn := by
    have turn := List.prefix_iff_eq_take.mp fair.inTurn
    rw [List.length_map] at turn
    simp only [List.map_append, List.map_cons, List.map_nil]
    rw [turn]
    have grown : parcel.captives.take (parcel.visits.length + 1) =
        parcel.captives.take parcel.visits.length ++ [visit.toCaptive] := by
      rw [List.take_add_one, next]
      rfl
    rw [← grown]
    exact List.take_prefix _ _
  delivered_iff := by
    intro other member
    rcases List.mem_append.mp member with earlier | last
    · exact fair.delivered_iff other earlier
    · cases List.mem_singleton.mp last
      exact right

omit [DecidableEq Lane] in
/-- The member whose turn it is was not examined before. -/
theorem Parcel.Fair.unvisited (fair : parcel.Fair) {captive : Captive Peer}
    (next : parcel.captives[parcel.visits.length]? = some captive) :
    captive.peer ∉ parcel.visits.map fun visit => visit.peer := by
  have turn := List.prefix_iff_eq_take.mp fair.inTurn
  rw [List.length_map] at turn
  have split : parcel.captives.take (parcel.visits.length + 1) =
      parcel.visits.map Visit.toCaptive ++ [captive] := by
    rw [List.take_add_one, next, ← turn]
    rfl
  have once := fair.once.sublist ((List.take_sublist (parcel.visits.length + 1) _).map Captive.peer)
  rw [split, List.map_append, List.map_map] at once
  intro again
  exact (List.nodup_append.mp once).2.2 captive.peer again captive.peer (by simp) rfl

theorem Mail.examine_front (front : mail.lanes lane = parcel :: rest) {captive : Captive Peer}
    (next : parcel.captives[parcel.visits.length]? = some captive) (holder : Peer → Option Nat)
    (inView : Load → Peer → Bool) (delivered : Bool) :
    mail.examine lane holder inView delivered =
      { mail.setLane lane ({ parcel with visits := parcel.visits ++ [{ captive with
            holder := holder captive.peer, inView := inView parcel.load captive.peer, delivered }] } :: rest) with
        handed := mail.handed ++ if delivered then [⟨parcel.toSlip, { captive with
          holder := holder captive.peer, inView := inView parcel.load captive.peer, delivered }⟩] else [] } := by
  simp only [examine, front, next]
  cases delivered <;> simp

theorem Mail.Sound.visit (sound : mail.Sound) (front : mail.lanes lane = parcel :: rest) {visit : Visit Peer}
    (next : parcel.captives[parcel.visits.length]? = some visit.toCaptive)
    (right : visit.delivered = true ↔ visit.holder = some visit.opened ∧ visit.inView = true) :
    Mail.Sound
      { mail.setLane lane ({ parcel with visits := parcel.visits ++ [visit] } :: rest) with
        handed := mail.handed ++ if visit.delivered then [⟨parcel.toSlip, visit⟩] else [] } := by
  have member : parcel ∈ mail.lanes lane := front ▸ List.mem_cons_self
  have fair := sound.fair lane parcel member
  have order := sound.sorted lane
  rw [front, List.pairwise_cons] at order
  -- Every other parcel held is an old one with a number of its own.
  have held : ∀ other, ∀ rival ∈ Function.update mail.lanes lane
      ({ parcel with visits := parcel.visits ++ [visit] } :: rest) other,
      (rival ∈ mail.lanes other ∧ rival.number ≠ parcel.number) ∨
        other = lane ∧ rival = { parcel with visits := parcel.visits ++ [visit] } := by
    intro other rival also
    by_cases own : other = lane
    · subst own
      rw [Function.update_self, List.mem_cons] at also
      rcases also with rfl | later
      · exact Or.inr ⟨rfl, rfl⟩
      · have after := order.1 rival later
        exact Or.inl ⟨front ▸ List.mem_cons_of_mem _ later, by omega⟩
    · rw [Function.update_of_ne own] at also
      exact Or.inl ⟨also, fun same => own (sound.apart other lane rival also parcel member same)⟩
  have logs : ∀ number, Mail.handedFor
      { mail.setLane lane ({ parcel with visits := parcel.visits ++ [visit] } :: rest) with
        handed := mail.handed ++ if visit.delivered then [⟨parcel.toSlip, visit⟩] else [] } number =
      mail.handedFor number ++
        if parcel.number = number then (if visit.delivered then [⟨parcel.toSlip, visit⟩] else []) else [] := by
    intro number
    unfold Mail.handedFor
    rw [List.filter_append]
    cases visit.delivered <;> by_cases same : parcel.number = number <;> simp [same]
  have entered : ∀ entry ∈ mail.handed ++ (if visit.delivered then [⟨parcel.toSlip, visit⟩] else []),
      entry ∈ mail.handed ∨ visit.delivered = true ∧ entry = ⟨parcel.toSlip, visit⟩ := by
    intro entry also
    rcases List.mem_append.mp also with old | new
    · exact Or.inl old
    · cases delivered : visit.delivered <;> simp [delivered] at new
      exact Or.inr ⟨rfl, new⟩
  have ahead : ∀ entry ∈ mail.handed, entry.slip.lane = lane →
      entry.slip.number < parcel.number ∨ entry.slip.number = parcel.number ∧
        entry.visit.peer ∈ parcel.visits.map fun visit => visit.peer := by
    rintro entry also rfl
    exact sound.frontier entry also parcel member
  constructor
  case sited =>
    intro other rival also
    rcases held other rival also with ⟨old, -⟩ | ⟨rfl, rfl⟩
    · exact sound.sited other rival old
    · exact sound.sited other parcel member
  case fair =>
    intro other rival also
    rcases held other rival also with ⟨old, -⟩ | ⟨rfl, rfl⟩
    · exact sound.fair other rival old
    · exact fair.visit next right
  case past =>
    intro other rival also
    rcases held other rival also with ⟨old, -⟩ | ⟨rfl, rfl⟩
    · exact sound.past other rival old
    · exact sound.past other parcel member
  case sorted =>
    intro other
    show (Function.update mail.lanes lane _ other).Pairwise _
    by_cases own : other = lane
    · subst own
      rw [Function.update_self]
      exact List.pairwise_cons.mpr order
    · rw [Function.update_of_ne own]
      exact sound.sorted other
  case apart =>
    intro one other rival also third held_third same
    rcases held one rival also with ⟨old, apart⟩ | ⟨rfl, rfl⟩ <;>
      rcases held other third held_third with ⟨known, distinct⟩ | ⟨rfl, rfl⟩
    · exact sound.apart one other rival old third known same
    · exact absurd same apart
    · exact absurd same.symm distinct
    · rfl
  case accounted =>
    intro other rival also
    rw [logs]
    rcases held other rival also with ⟨old, apart⟩ | ⟨rfl, rfl⟩
    · rw [if_neg (Ne.symm apart), List.append_nil]
      exact sound.accounted other rival old
    · rw [if_pos rfl, Parcel.deliveries_visit, sound.accounted other parcel member]
  case finished =>
    intro rival done
    obtain ⟨whole, past, round, accounted⟩ := sound.finished rival done
    refine ⟨whole, past, round, ?_⟩
    rw [logs, if_neg (Ne.symm (sound.retired rival done lane parcel member)), List.append_nil]
    exact accounted
  case retired =>
    intro rival done other third also
    rcases held other third also with ⟨old, -⟩ | ⟨rfl, rfl⟩
    · exact sound.retired rival done other third old
    · exact sound.retired rival done other parcel member
  case logged =>
    intro entry also
    rcases entered entry also with old | ⟨delivered, rfl⟩
    · exact sound.logged entry old
    · exact ⟨sound.past lane parcel member, (right.mp delivered).1,
        fair.earlier _ (List.mem_of_getElem? next)⟩
  case frontier =>
    intro entry also rival waiting
    rcases held _ rival waiting with ⟨old, apart⟩ | ⟨here, rfl⟩
    · rcases entered entry also with known | ⟨-, rfl⟩
      · exact sound.frontier entry known rival old
      · have own : parcel.lane = lane := sound.sited lane parcel member
        simp only [own, front, List.mem_cons] at old
        rcases old with rfl | later
        · exact absurd rfl apart
        · exact Or.inl (order.1 rival later)
    · rcases entered entry also with known | ⟨-, rfl⟩
      · exact (ahead entry known here).imp_right fun visited => ⟨visited.1, by
          simp only [List.map_append, List.mem_append]
          exact Or.inl visited.2⟩
      · exact Or.inr ⟨rfl, by simp⟩
  case inOrder =>
    refine List.pairwise_append.mpr ⟨sound.inOrder, ?_, ?_⟩
    · cases visit.delivered <;> simp
    · intro entry also last new same
      cases delivered : visit.delivered <;> simp [delivered] at new
      subst new
      have own : parcel.lane = lane := sound.sited lane parcel member
      rcases ahead entry also (same.trans own) with earlier | ⟨equal, visited⟩
      · exact Or.inl earlier
      · refine Or.inr ⟨equal, ?_⟩
        intro again
        exact fair.unvisited next (again ▸ visited)

theorem Mail.Sound.examine (sound : mail.Sound) (front : mail.lanes lane = parcel :: rest)
    {captive : Captive Peer} (next : parcel.captives[parcel.visits.length]? = some captive)
    {holder : Peer → Option Nat} {inView : Load → Peer → Bool} {delivered : Bool}
    (right : delivered = true ↔ holder captive.peer = some captive.opened ∧
      inView parcel.load captive.peer = true) :
    (mail.examine lane holder inView delivered).Sound := by
  rw [Mail.examine_front front next]
  exact sound.visit front next right

/-- In one lane, a name is handed the parcels in the order of their capture, each at most once. -/
theorem Mail.Sound.ordered (sound : mail.Sound) [DecidableEq Peer] (lane : Lane) (peer : Peer) :
    ((mail.handed.filter fun entry => entry.slip.lane = lane ∧ entry.visit.peer = peer).map
      fun entry => entry.slip.number).Pairwise (· < ·) := by
  rw [List.pairwise_map]
  have filtered := sound.inOrder.filter fun entry => entry.slip.lane = lane ∧ entry.visit.peer = peer
  refine filtered.imp_of_mem ?_
  intro early late first second order
  have here := of_decide_eq_true (List.mem_filter.mp first).2
  have there := of_decide_eq_true (List.mem_filter.mp second).2
  rcases order (here.1.trans there.1.symm) with earlier | ⟨-, differ⟩
  · exact earlier
  · exact absurd (here.2.trans there.2.symm) differ

end Operations
end SailwindOnline.DeliveryRounds
