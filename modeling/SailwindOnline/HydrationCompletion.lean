import Mathlib.Algebra.BigOperators.Group.Finset.Basic
import SailwindOnline.HydrationPages
import SailwindOnline.MoorageOwnership
import SailwindOnline.ServiceFairness

/-!
Hydration comes to an end. With the scene fixed, every visit to a session with
work left takes something off what remains to be published, walked and read, and
by the end the pages sent for each cell tell of everything in it exactly once.
-/

namespace SailwindOnline.HydrationCompletion
open World (Cell)
open OrderedSet CursorScan Server Persistence SessionIndex SessionRuns TickEffects Traces Interest Hydration
open HydrationPages Moorage ServiceFairness

/-! The account of the pages sent. -/
section Accounts
variable {F : Type} {scene : Scene F} {hydration : CellHydration} {cell : Cell} {pages more : List (Page F)}
  {walked rest : List UInt64} {sent left : List (MooringRow F)}

def playersOn (pages : List (Page F)) : List UInt64 := pages.flatMap Page.players

def mooringsOn (pages : List (Page F)) : List (MooringSnap F) := pages.flatMap Page.moorings

def about (cell : Cell) (pages : List (Page F)) : List (Page F) :=
  pages.filter fun page => decide (page.cell = cell)

theorem playersOn_append (pages more : List (Page F)) : playersOn (pages ++ more) = playersOn pages ++ playersOn more :=
  List.flatMap_append

theorem mooringsOn_append (pages more : List (Page F)) :
    mooringsOn (pages ++ more) = mooringsOn pages ++ mooringsOn more :=
  List.flatMap_append

theorem about_append (cell : Cell) (pages more : List (Page F)) :
    about cell (pages ++ more) = about cell pages ++ about cell more :=
  List.filter_append _ _

def shown (rows : List (MooringRow F)) : List (MooringSnap F) := (rows.filter nameFits).map mooringSnap

/-- The pages of a cell tell of everything in it, once. -/
structure Whole (scene : Scene F) (cell : Cell) (pages : List (Page F)) : Prop where
  some : pages ≠ []
  players : playersOn pages = scene.housed cell
  moorings : mooringsOn pages = shown (scene.berths cell)

/-- A hydration in progress has walked some of the players and, once it has walked them all, sent some
of the moorings. -/
structure Progress (scene : Scene F) (hydration : CellHydration) (pages : List (Page F)) (walked rest : List UInt64)
    (sent left : List (MooringRow F)) : Prop where
  order : ascending scene.players = walked ++ rest
  cursor : hydration.playerCursor = walked.getLast?
  remaining : hydration.playersRemaining = rest.length
  complete : hydration.playersComplete = true ↔ rest = []
  rows : scene.berths hydration.cell = sent ++ left
  paged : hydration.mooringCursor = sent.getLast?.map MooringRow.boatId
  waits : rest ≠ [] → sent = []
  players : playersOn pages = walked.filter (scene.houses hydration.cell)
  moorings : mooringsOn pages = shown sent
  sentAny : hydration.sentAny = !pages.isEmpty

def InProgress (scene : Scene F) (hydration : CellHydration) (pages : List (Page F)) : Prop :=
  ∃ walked rest sent left, Progress scene hydration pages walked rest sent left

theorem Progress.unread (keyed : Keyed scene.moorings)
    (progress : Progress scene hydration pages walked rest sent left) : scene.unread hydration = left := by
  have sorted : (sent ++ left).Pairwise fun early late => early.boatId.toInt < late.boatId.toInt := by
    rw [← progress.rows]
    exact (keyed.filter _).imp fun less => Int64.lt_iff_toInt_lt.mp less
  have after := filter_beyond (fun row : MooringRow F => row.boatId.toInt) sorted
  unfold Scene.unread
  rw [progress.rows, progress.paged, Option.map_map]
  exact after

/-- A scan takes what comes next in the order. -/
theorem Progress.scan (progress : Progress scene hydration pages walked rest sent left) {taken : List UInt64}
    (unfinished : hydration.playersComplete = false)
    (prefixed : taken <+: circle scene.players hydration.playerCursor)
    (within : taken.length ≤ hydration.playersRemaining)
    (some : hydration.playersRemaining ≠ 0 → scene.players.Nonempty → taken ≠ []) :
    taken ≠ [] ∧ ∃ behind, rest = taken ++ behind := by
  have ahead : rest ≠ [] := by
    intro none
    rw [progress.complete.mpr none] at unfinished
    cases unfinished
  have peopled : scene.players.Nonempty := by
    rw [← Finset.card_pos, ← ascending_length, progress.order, List.length_append]
    have positive := List.length_pos_iff.mpr ahead
    omega
  have counted : hydration.playersRemaining ≠ 0 := by
    rw [progress.remaining, List.length_eq_zero_iff.ne]
    exact ahead
  refine ⟨some counted peopled, ?_⟩
  rw [progress.cursor] at prefixed
  have short : taken.length ≤ rest.length := progress.remaining ▸ within
  obtain ⟨behind, split⟩ := List.prefix_of_prefix_length_le prefixed (circle_resumes progress.order) short
  exact ⟨behind, split.symm⟩

theorem Progress.scanned (progress : Progress scene hydration pages walked rest sent left) {taken behind : List UInt64}
    (some : taken ≠ []) (split : rest = taken ++ behind) :
    Progress scene (scanned hydration taken (taken.filter (scene.houses hydration.cell)))
      (pages ++ if (taken.filter (scene.houses hydration.cell)).isEmpty then []
        else [⟨hydration.cell, taken.filter (scene.houses hydration.cell), []⟩])
      (walked ++ taken) behind sent left := by
  subst split
  have unsent : sent = [] := progress.waits (by simp [some])
  constructor
  · rw [progress.order, List.append_assoc]
  · obtain ⟨last, ended⟩ : ∃ last, taken.getLast? = .some last := ⟨_, List.getLast?_eq_some_getLast some⟩
    simp [HydrationPages.scanned, ended]
  · simp [HydrationPages.scanned, progress.remaining]
  · simp [HydrationPages.scanned, progress.remaining, some]
  · exact progress.rows
  · exact progress.paged
  · exact fun _ => unsent
  · rw [playersOn_append, progress.players, List.filter_append]
    congr 1
    split <;> rename_i found
    · rw [List.isEmpty_iff] at found
      exact found.symm
    · simp [playersOn, HydrationPages.scanned]
  · rw [mooringsOn_append, progress.moorings]
    split <;> simp [mooringsOn]
  · simp only [HydrationPages.scanned, progress.sentAny]
    split <;> rename_i found
    · simp [found]
    · simp [found]

theorem Progress.read (progress : Progress scene hydration pages walked [] sent left) {row : MooringRow F}
    {behind : List (MooringRow F)} (next : left = row :: behind) :
    Progress scene (read hydration row)
      (pages ++ if nameFits row then [⟨hydration.cell, [], [mooringSnap row]⟩] else []) walked [] (sent ++ [row])
      behind := by
  subst next
  constructor
  · exact progress.order
  · exact progress.cursor
  · exact progress.remaining
  · exact progress.complete
  · rw [List.append_assoc]
    exact progress.rows
  · simp [HydrationPages.read]
  · exact fun ahead => absurd rfl ahead
  · rw [playersOn_append, progress.players]
    have none : playersOn (if nameFits row then [⟨hydration.cell, [], [mooringSnap row]⟩] else [] : List (Page F)) =
        [] := by split <;> rfl
    rw [none, List.append_nil]
    rfl
  · rw [mooringsOn_append, progress.moorings, shown, shown, List.filter_append, List.map_append]
    congr 1
    split <;> rename_i fit <;> simp [mooringsOn, fit]
  · simp only [HydrationPages.read, progress.sentAny]
    split <;> rename_i fit <;> simp [fit]

theorem Progress.completed (progress : Progress scene hydration pages walked [] sent []) :
    Whole scene hydration.cell (pages ++ if hydration.sentAny then [] else [⟨hydration.cell, [], []⟩]) := by
  have order := progress.order
  have rows := progress.rows
  rw [List.append_nil] at order rows
  constructor
  · rw [progress.sentAny]
    cases pages <;> simp
  · rw [playersOn_append, progress.players, Scene.housed, order]
    split <;> simp [playersOn]
  · rw [mooringsOn_append, progress.moorings, rows]
    split <;> simp [mooringsOn]

/-- What remains of a hydration: players to walk, rows to read and its completion. -/
def toil (scene : Scene F) (hydration : CellHydration) : Nat :=
  hydration.playersRemaining + (scene.unread hydration).length + 1

/-- What one piece of work makes of a hydration in progress. -/
structure Advanced (scene : Scene F) (hydration : CellHydration) (next : Option CellHydration)
    (pages more : List (Page F)) : Prop where
  about : ∀ page ∈ more, page.cell = hydration.cell
  onward : ∀ later, next = some later → later.cell = hydration.cell ∧ InProgress scene later (pages ++ more) ∧
    toil scene later < toil scene hydration
  ended : next = none → Whole scene hydration.cell (pages ++ more)

theorem act_advanced (keyed : Keyed scene.moorings) {next : Option CellHydration} (act : Act scene hydration next more)
    (progress : InProgress scene hydration pages) : Advanced scene hydration next pages more := by
  obtain ⟨walked, rest, sent, left, progress⟩ := progress
  have unread := progress.unread keyed
  cases act with
  | @scans taken unfinished prefixed within some =>
      obtain ⟨met, behind, split⟩ := progress.scan unfinished prefixed within some
      refine ⟨?_, ?_, by rintro ⟨⟩⟩
      · intro page member
        split at member
        · cases member
        · rw [List.mem_singleton.mp member]
      · rintro _ ⟨⟩
        refine ⟨rfl, ⟨_, _, _, _, progress.scanned met split⟩, ?_⟩
        have fewer : 0 < taken.length := List.length_pos_iff.mpr met
        show hydration.playersRemaining - taken.length + (scene.unread hydration).length + 1 < _
        unfold toil
        omega
  | @reads row behind complete next =>
      have none := progress.complete.mp complete
      subst none
      rw [unread] at next
      have later := progress.read next
      refine ⟨?_, ?_, by rintro ⟨⟩⟩
      · intro page member
        split at member
        · rw [List.mem_singleton.mp member]
        · cases member
      · rintro _ ⟨⟩
        refine ⟨rfl, ⟨_, _, _, _, later⟩, ?_⟩
        unfold toil
        rw [later.unread keyed, unread, next, List.length_cons]
        show hydration.playersRemaining + _ + 1 < _
        omega
  | completes complete none =>
      have finished := progress.complete.mp complete
      subst finished
      rw [unread] at none
      subst none
      refine ⟨?_, by rintro _ ⟨⟩, fun _ => progress.completed⟩
      intro page member
      split at member
      · cases member
      · rw [List.mem_singleton.mp member]

end Accounts

/-! The account of a session's whole interest. -/
section Sessions
variable {F : Type} {scene : Scene F} {session prepared later : Session F} {hydration : CellHydration}
  {log pages : List (Page F)}

/-- The pages sent since the session registered, against the state of each cell. -/
structure Filed (scene : Scene F) (session : Session F) (log : List (Page F)) : Prop where
  published : session.publishedCells ⊆ session.sub.cells
  tidy : Tidy session
  untouched : ∀ cell, cell ∉ session.publishedCells ∨ cell ∈ session.hydrationCells → about cell log = []
  active : ∀ hydration, session.activeHydration = some hydration →
    InProgress scene hydration (about hydration.cell log)
  whole : ∀ cell ∈ session.publishedCells, cell ∉ session.hydrationCells →
    (∀ hydration, session.activeHydration = some hydration → hydration.cell ≠ cell) → Whole scene cell (about cell log)

theorem filed_fresh (unpublished : session.publishedCells = ∅) (tidy : Tidy session)
    (idle : session.activeHydration = none) : Filed scene session [] := by
  refine ⟨by simp [unpublished], tidy, fun _ _ => rfl, by simp [idle], by simp [unpublished]⟩

theorem Filed.of_interestOf (filed : Filed scene session log) (same : interestOf later = interestOf session) :
    Filed scene later log := by
  have tidy := tidy_of_interestOf same filed.tidy
  simp only [interestOf, Prod.mk.injEq] at same
  obtain ⟨sub, published, waiting, active⟩ := same
  constructor
  · rw [sub, published]
    exact filed.published
  · exact tidy
  · rw [published, waiting]
    exact filed.untouched
  · rw [active]
    exact filed.active
  · rw [published, waiting, active]
    exact filed.whole

/-- The cells that the next update adds. -/
def announced (session : Session F) : Finset Cell :=
  ((ascending (session.sub.cells \ session.publishedCells)).take aoiCellsPerUpdate).toFinset

theorem announced_subset (session : Session F) : announced session ⊆ session.sub.cells \ session.publishedCells := by
  intro cell member
  exact (mem_ascending _ _).mp (List.mem_of_mem_take (List.mem_toFinset.mp member))

/-- Nothing is published beyond the interest, so an update only adds. -/
theorem applyAoiChunk_announced (within : session.publishedCells ⊆ session.sub.cells) :
    applyAoiChunk session (aoiChunk session) =
      { session with
        publishedCells := session.publishedCells ∪ announced session
        hydrationCells := session.hydrationCells ∪ announced session } := by
  have nothing : ascending (session.publishedCells \ session.sub.cells) = [] := by
    rw [← List.length_eq_zero_iff, ascending_length, Finset.card_eq_zero]
    exact Finset.sdiff_eq_empty_iff_subset.mpr within
  have kept : (session.activeHydration.filter fun _ => true) = session.activeHydration := by
    cases session.activeHydration <;> rfl
  simp [applyAoiChunk, aoiChunk, nothing, announced, kept]

theorem Filed.publish (filed : Filed scene session log) :
    Filed scene (applyAoiChunk session (aoiChunk session)) log := by
  have tidy := tidy_applyAoiChunk filed.tidy
  have wanted := announced_subset session
  rw [applyAoiChunk_announced filed.published] at tidy ⊢
  constructor
  · exact Finset.union_subset filed.published (wanted.trans Finset.sdiff_subset)
  · exact tidy
  · intro cell place
    apply filed.untouched
    rcases place with unpublished | waiting
    · exact Or.inl fun held => unpublished (Finset.mem_union_left _ held)
    · rcases Finset.mem_union.mp waiting with old | new
      · exact Or.inr old
      · exact Or.inl (Finset.mem_sdiff.mp (wanted new)).2
  · exact filed.active
  · intro cell held gone apart
    rw [Finset.mem_union, not_or] at gone
    exact filed.whole cell ((Finset.mem_union.mp held).resolve_right gone.2) gone.1 apart

theorem inProgress_fresh (scene : Scene F) (cell : Cell) : InProgress scene (freshHydration scene cell) [] := by
  refine ⟨[], ascending scene.players, [], scene.berths cell, ?_⟩
  constructor
  · rfl
  · rfl
  · exact (ascending_length _).symm
  · rw [← List.length_eq_zero_iff, ascending_length]
    exact decide_eq_true_iff
  · rfl
  · rfl
  · exact fun _ => rfl
  · rfl
  · rfl
  · rfl

theorem Filed.begin (filed : Filed scene session log) (begins : Begins scene session prepared hydration) :
    Filed scene prepared log ∧ prepared.activeHydration = some hydration := by
  cases begins with
  | standing active => exact ⟨filed, active⟩
  | @fresh cell idle waiting =>
      refine ⟨?_, rfl⟩
      constructor
      · exact filed.published
      · refine ⟨(Finset.erase_subset _ _).trans filed.tidy.waiting, ?_⟩
        rintro _ ⟨⟩
        exact ⟨filed.tidy.waiting waiting, Finset.notMem_erase _ _⟩
      · intro other place
        exact filed.untouched other (place.imp_right Finset.mem_of_mem_erase)
      · rintro _ ⟨⟩
        have blank : about (freshHydration scene cell).cell log = [] := filed.untouched cell (Or.inr waiting)
        rw [blank]
        exact inProgress_fresh scene cell
      · intro other held gone apart
        have different : other ≠ cell := (apart _ rfl).symm
        refine filed.whole other held (fun member => gone ?_) (by simp [idle])
        exact Finset.mem_erase.mpr ⟨different, member⟩

theorem about_same (cell : Cell) (same : ∀ page ∈ pages, page.cell = cell) : about cell pages = pages := by
  apply List.filter_eq_self.mpr
  intro page member
  simpa using same page member

theorem about_other {cell other : Cell} (apart : other ≠ cell) (same : ∀ page ∈ pages, page.cell = cell) :
    about other pages = [] := by
  apply List.filter_eq_nil_iff.mpr
  intro page member
  simpa [same page member] using apart.symm

theorem Filed.act (keyed : Keyed scene.moorings) (filed : Filed scene session log)
    (active : session.activeHydration = some hydration) {next : Option CellHydration}
    (act : Act scene hydration next pages) : Filed scene { session with activeHydration := next } (log ++ pages) := by
  have advanced := act_advanced keyed act (filed.active hydration active)
  obtain ⟨held, gone⟩ := filed.tidy.active hydration active
  have own : about hydration.cell pages = pages := about_same _ advanced.about
  -- The pages of a visit are all about the cell that is being hydrated.
  have others : ∀ cell, cell ≠ hydration.cell → about cell (log ++ pages) = about cell log := by
    intro cell apart
    rw [about_append, about_other apart advanced.about, List.append_nil]
  constructor
  · exact filed.published
  · refine ⟨filed.tidy.waiting, ?_⟩
    intro later kept
    rw [(advanced.onward later kept).1]
    exact ⟨held, gone⟩
  · intro cell place
    have apart : cell ≠ hydration.cell := by
      rintro rfl
      exact place.elim (fun unpublished => unpublished held) gone
    rw [others cell apart]
    exact filed.untouched cell place
  · intro later kept
    obtain ⟨same, progress, -⟩ := advanced.onward later kept
    rw [same, about_append, own]
    exact progress
  · intro cell present absent apart
    by_cases here : cell = hydration.cell
    · subst here
      rw [about_append, own]
      apply advanced.ended
      cases kept : next with
      | none => rfl
      | some later => exact absurd (advanced.onward later kept).1 (apart later kept)
    · rw [others cell here]
      refine filed.whole cell present absent ?_
      intro other standing
      rw [active, Option.some.injEq] at standing
      subst standing
      exact Ne.symm here

theorem Filed.visit (keyed : Keyed scene.moorings) (filed : Filed scene session log)
    (visit : Visit scene session later pages) : Filed scene later (log ++ pages) := by
  cases visit with
  | publishes =>
      rw [List.append_nil]
      exact filed.publish
  | rests settled idle done same =>
      rw [List.append_nil]
      exact filed.of_interestOf same
  | hydrates settled begins act =>
      obtain ⟨begun, active⟩ := filed.begin begins
      exact begun.act keyed active act

theorem visit_sub (visit : Visit scene session later pages) : later.sub = session.sub := by
  cases visit with
  | publishes => rfl
  | rests settled idle done same => exact congrArg Prod.fst same
  | hydrates settled begins act => cases begins <;> rfl

/-! What remains to be done for a session. -/

def HasWork (session : Session F) : Prop :=
  session.publishedCells ≠ session.sub.cells ∨ session.activeHydration ≠ none ∨ session.hydrationCells ≠ ∅

def weight (scene : Scene F) (cell : Cell) : Nat := scene.players.card + (scene.berths cell).length

/-- An upper bound on the visits that a session still needs. -/
def effort (scene : Scene F) (session : Session F) : Nat :=
  (session.sub.cells \ session.publishedCells).sum (fun cell => weight scene cell + 3) +
    session.hydrationCells.sum (fun cell => weight scene cell + 2) +
    (session.activeHydration.map (toil scene)).getD 0

theorem announced_some (within : session.publishedCells ⊆ session.sub.cells)
    (unsettled : session.publishedCells ≠ session.sub.cells) : 0 < (announced session).card := by
  have missing : (session.sub.cells \ session.publishedCells).card ≠ 0 := by
    rw [Ne, Finset.card_eq_zero, Finset.sdiff_eq_empty_iff_subset]
    exact fun covered => unsettled (Finset.Subset.antisymm within covered)
  have unique : ((ascending (session.sub.cells \ session.publishedCells)).take aoiCellsPerUpdate).Nodup :=
    (ascending_nodup _).sublist (List.take_sublist _ _)
  rw [announced, List.toFinset_card_of_nodup unique, List.length_take, ascending_length]
  unfold aoiCellsPerUpdate
  omega

theorem publish_lighter (filed : Filed scene session log)
    (unsettled : session.publishedCells ≠ session.sub.cells) :
    effort scene (applyAoiChunk session (aoiChunk session)) < effort scene session := by
  have wanted := announced_subset session
  have some := announced_some filed.published unsettled
  have apart : Disjoint session.hydrationCells (announced session) := by
    rw [Finset.disjoint_left]
    intro cell waiting new
    exact (Finset.mem_sdiff.mp (wanted new)).2 (filed.tidy.waiting waiting)
  have missing : session.sub.cells \ (session.publishedCells ∪ announced session) =
      (session.sub.cells \ session.publishedCells) \ announced session := sdiff_sdiff_left.symm
  have split := Finset.sum_sdiff (f := fun cell => weight scene cell + 3) wanted
  have grown := Finset.sum_union (f := fun cell => weight scene cell + 2) apart
  -- An announced cell weighs one less as a cell that waits for its hydration.
  have dearer : (announced session).sum (fun cell => weight scene cell + 3) =
      (announced session).sum (fun cell => weight scene cell + 2) + (announced session).card := by
    rw [Finset.card_eq_sum_ones, ← Finset.sum_add_distrib]
  rw [applyAoiChunk_announced filed.published]
  unfold effort
  simp only [missing, grown]
  omega

theorem begin_lighter (begins : Begins scene session prepared hydration) :
    effort scene prepared ≤ effort scene session := by
  cases begins with
  | standing active => exact le_refl _
  | @fresh cell idle waiting =>
      have split := Finset.sum_erase_add session.hydrationCells (fun cell => weight scene cell + 2) waiting
      have light : toil scene (freshHydration scene cell) < weight scene cell + 2 := by
        have fewer : (scene.unread (freshHydration scene cell)).length ≤ (scene.berths cell).length :=
          List.length_filter_le _ _
        show scene.players.card + (scene.unread (freshHydration scene cell)).length + 1 < _
        unfold weight
        omega
      unfold effort
      simp only [idle, Option.map_none, Option.map_some, Option.getD_none, Option.getD_some]
      omega

theorem act_lighter (keyed : Keyed scene.moorings) (filed : Filed scene session log)
    (active : session.activeHydration = some hydration) {next : Option CellHydration}
    (act : Act scene hydration next pages) :
    effort scene { session with activeHydration := next } < effort scene session := by
  have advanced := act_advanced keyed act (filed.active hydration active)
  have lighter : (next.map (toil scene)).getD 0 < toil scene hydration := by
    cases kept : next with
    | none => exact Nat.succ_pos _
    | some later => exact (advanced.onward later kept).2.2
  unfold effort
  simp only [active, Option.map_some, Option.getD_some]
  omega

theorem effort_interestOf (same : interestOf later = interestOf session) :
    effort scene later = effort scene session := by
  simp only [interestOf, Prod.mk.injEq] at same
  obtain ⟨sub, published, waiting, active⟩ := same
  rw [effort, effort, sub, published, waiting, active]

/-- A visit to a session with work left gets some of it done. -/
theorem visit_lighter (keyed : Keyed scene.moorings) (filed : Filed scene session log)
    (visit : Visit scene session later pages) :
    effort scene later ≤ effort scene session ∧ (HasWork session → effort scene later < effort scene session) := by
  cases visit with
  | publishes unsettled =>
      have lighter := publish_lighter filed unsettled
      exact ⟨lighter.le, fun _ => lighter⟩
  | rests settled idle done same =>
      refine ⟨(effort_interestOf same).le, ?_⟩
      rintro (unsettled | busy | waiting)
      · exact absurd settled unsettled
      · exact absurd idle busy
      · exact absurd done waiting
  | hydrates settled begins act =>
      obtain ⟨begun, active⟩ := filed.begin begins
      have lighter := (act_lighter keyed begun active act).trans_le (begin_lighter begins)
      exact ⟨lighter.le, fun _ => lighter⟩

end Sessions

/-! Calls after calls. -/
section Calls
variable {F : Type} [Platform F] {server after : Server F} {peer : PeerId} {session : Session F} {log : List (Page F)}

theorem hasWork_iff (found : server.sessions.get? peer = some session) :
    server.sessionHasAoiWork peer = true ↔ HasWork session := by
  simp [sessionHasAoiWork, found, HasWork, Option.isSome_iff_ne_none, or_assoc]

variable [Codec F]

structure CallFiled (peer : PeerId) (server : Server F) (session later : Session F) (log pages : List (Page F)) :
    Prop where
  kept : (aoiCall server).sessions.get? peer = some later
  sub : later.sub = session.sub
  sends : Sends peer server (aoiCall server) pages
  filed : Filed (sceneOf server) later (log ++ pages)
  lighter : effort (sceneOf server) later ≤ effort (sceneOf server) session
  served : peer ∈ aoiServed server → HasWork session →
    effort (sceneOf server) later < effort (sceneOf server) session

theorem aoiCall_filed (fits : CellSnapshotsFit F) (mooringsFit : MooringPagesFit F)
    (keyed : Keyed server.db.moorings) (found : server.sessions.get? peer = some session)
    (filed : Filed (sceneOf server) session log) :
    ∃ later pages, CallFiled peer server session later log pages := by
  by_cases served : peer ∈ aoiServed server
  · obtain ⟨later, pages, kept, sends, visit⟩ := aoiCall_visit fits mooringsFit found filed.tidy served
    obtain ⟨lighter, busy⟩ := visit_lighter keyed filed visit
    exact ⟨later, pages, kept, visit_sub visit, sends, filed.visit keyed visit, lighter, fun _ => busy⟩
  · have aside := aoiCall_aside served
    refine ⟨session, [], aside.session.trans found, rfl, aside.silent, ?_, le_refl _, fun member => ?_⟩
    · rw [List.append_nil]
      exact filed
    · exact absurd member served

theorem calls_scene (server : Server F) (calls : Nat) : sceneOf (aoiCall^[calls] server) = sceneOf server := by
  induction calls with
  | zero => rfl
  | succ calls ih => rw [Function.iterate_succ_apply', aoiCall_scene, ih]

theorem calls_cfg (server : Server F) (calls : Nat) : (aoiCall^[calls] server).cfg = server.cfg := by
  induction calls with
  | zero => rfl
  | succ calls ih => rw [Function.iterate_succ_apply', (aoiCall_keeps _).cfg, ih]

/-- What any number of calls has sent since the start is filed against the session it left. -/
theorem calls_filed (fits : CellSnapshotsFit F) (mooringsFit : MooringPagesFit F)
    (keyed : Keyed server.db.moorings) (found : server.sessions.get? peer = some session)
    (filed : Filed (sceneOf server) session log) (calls : Nat) :
    ∃ later pages, (aoiCall^[calls] server).sessions.get? peer = some later ∧ later.sub = session.sub ∧
      Sends peer server (aoiCall^[calls] server) pages ∧ Filed (sceneOf server) later (log ++ pages) ∧
      effort (sceneOf server) later ≤ effort (sceneOf server) session := by
  induction calls with
  | zero => exact ⟨session, [], found, rfl, .of_sent_eq rfl, by rwa [List.append_nil], le_refl _⟩
  | succ calls ih =>
      obtain ⟨middle, early, present, sub, sends, kept, light⟩ := ih
      have scene := calls_scene server calls
      have table : (aoiCall^[calls] server).db.moorings = server.db.moorings := congrArg Scene.moorings scene
      rw [← scene] at kept
      obtain ⟨later, late, call⟩ := aoiCall_filed fits mooringsFit (table ▸ keyed) present kept
      obtain ⟨still, same, more, filedLater, lighter, -⟩ := call
      rw [scene] at filedLater lighter
      rw [Function.iterate_succ_apply']
      refine ⟨later, early ++ late, still, same.trans sub, sends.trans more, ?_, lighter.trans light⟩
      rw [← List.append_assoc]
      exact filedLater

/-! The calls as stages of a run. -/
variable {db : Db F} {trace : List (Stage F)} {stage : Stage F} {pending : List Event}

def callStages : Nat → Server F → List (Stage F)
  | 0, _ => []
  | calls + 1, server => ⟨server, .tick (.aoi fun _ => false), aoiCall server⟩ :: callStages calls (aoiCall server)

theorem run_calls (run : Run db trace server pending) (calls : Nat) :
    Run db (trace ++ callStages calls server) (aoiCall^[calls] server) pending := by
  induction calls generalizing trace server with
  | zero =>
      rw [callStages, List.append_nil]
      exact run
  | succ calls ih =>
      have next : Run db (trace ++ [⟨server, .tick (.aoi fun _ => false), aoiCall server⟩]) (aoiCall server) pending :=
        .tick (.aoi fun _ => false) run
      have whole := ih next
      rw [List.append_assoc] at whole
      exact whole

theorem callStages_calls (calls : Nat) (server : Server F) :
    (callStages calls server).filter Rota.aoi.calls = callStages calls server ∧
      (callStages calls server).length = calls := by
  induction calls generalizing server with
  | zero => exact ⟨rfl, rfl⟩
  | succ calls ih =>
      obtain ⟨all, long⟩ := ih (aoiCall server)
      rw [callStages, List.filter_cons_of_pos rfl, all, List.length_cons, long]
      exact ⟨rfl, rfl⟩

theorem mem_callStages {calls : Nat} (member : stage ∈ callStages calls server) :
    ∃ before, stage.before = aoiCall^[before] server := by
  induction calls generalizing server with
  | zero => cases member
  | succ calls ih =>
      rcases List.mem_cons.mp member with rfl | later
      · exact ⟨0, rfl⟩
      · obtain ⟨before, same⟩ := ih later
        exact ⟨before + 1, same⟩

/-- A round of calls serves every session with work left, so its effort runs out. -/
theorem calls_settle (fits : CellSnapshotsFit F) (mooringsFit : MooringPagesFit F)
    (keyed : Keyed server.db.moorings) (run : Run db trace server pending)
    (found : server.sessions.get? peer = some session) (filed : Filed (sceneOf server) session log) :
    ∃ calls, (aoiCall^[calls] server).sessionHasAoiWork peer = false := by
  generalize size : effort (sceneOf server) session = bound
  induction bound using Nat.strong_induction_on generalizing server session log trace with
  | _ bound ih =>
      by_contra endless
      have busy : ∀ calls, (aoiCall^[calls] server).sessionHasAoiWork peer = true := by
        intro calls
        by_contra idle
        exact endless ⟨calls, Bool.eq_false_iff.mpr idle⟩
      have round := run_calls run ((server.cfg.maxTransportPeersUsize + (Rota.aoi.limit - 1)) / Rota.aoi.limit)
      obtain ⟨all, long⟩ := callStages_calls
        ((server.cfg.maxTransportPeersUsize + (Rota.aoi.limit - 1)) / Rota.aoi.limit) server
      obtain ⟨stage, listed, -, served⟩ := run_served round (by rw [calls_cfg, all, long]) (by
        intro stage listed _
        obtain ⟨before, same⟩ := mem_callStages listed
        rw [same]
        exact (run_interest (run_calls run before)).scheduled peer (busy before))
      obtain ⟨before, same⟩ := mem_callStages listed
      rw [same] at served
      obtain ⟨middle, early, present, sub, sends, kept, light⟩ := calls_filed fits mooringsFit keyed found filed before
      have scene := calls_scene server before
      have table : (aoiCall^[before] server).db.moorings = server.db.moorings := congrArg Scene.moorings scene
      rw [← scene] at kept light
      obtain ⟨later, late, call⟩ := aoiCall_filed fits mooringsFit (table ▸ keyed) present kept
      have lighter := call.served served ((hasWork_iff present).mp (busy before))
      have sceneAfter := aoiCall_scene (aoiCall^[before] server)
      have tableAfter : (aoiCall (aoiCall^[before] server)).db.moorings = server.db.moorings :=
        (congrArg Scene.moorings sceneAfter).trans table
      have next := run_calls run (before + 1)
      rw [Function.iterate_succ_apply'] at next
      obtain ⟨calls, settled⟩ := ih (effort (sceneOf (aoiCall (aoiCall^[before] server))) later) (by
        rw [sceneAfter, ← size, ← scene]
        exact lighter.trans_le light) (tableAfter ▸ keyed) next call.kept (sceneAfter ▸ call.filed) rfl
      refine endless ⟨calls + (before + 1), ?_⟩
      rw [Function.iterate_add_apply, Function.iterate_succ_apply']
      exact settled

theorem registered_filed (run : Run db (trace ++ [stage]) server pending)
    (vacant : stage.before.sessions.get? peer = none) (found : server.sessions.get? peer = some session) :
    Filed (sceneOf server) session [] := by
  obtain ⟨logs, -, each⟩ := (stage_interest run).told
  have own := each peer session found
  rw [vacant] at own
  obtain ⟨unpublished, tidy, -⟩ := own
  obtain ⟨-, -, same⟩ := run.unsnoc
  exact filed_fresh unpublished tidy (stage_fresh run vacant (same ▸ found))

/-- What the snapshots of one cell tell of it. -/
structure CellTold (server : Server F) (cell : Cell) (pages : List (Page F)) : Prop where
  sent : pages ≠ []
  located : ∀ other session, server.sessions.get? other = some session → session.cell = some cell →
    (playersOn pages).count session.playerId = 1
  present : ∀ player ∈ playersOn pages, ∃ other session, server.sessions.get? other = some session ∧
    session.playerId = player ∧ session.cell = some cell
  moored : mooringsOn pages = (server.db.moorings.filter fun row =>
    decide (row.cellX = cell.cx ∧ row.cellZ = cell.cz ∧ row.name.utf8ByteSize ≤ maxMooringNameBytes)).map mooringSnap
  ascending : (mooringsOn pages).Pairwise fun early late => early.boatId.toInt64 < late.boatId.toInt64

omit [Codec F] in
theorem whole_told {cell : Cell} {pages : List (Page F)} (agree : SessionsAgree noStray server)
    (keyed : Keyed server.db.moorings) (whole : Whole (sceneOf server) cell pages) : CellTold server cell pages := by
  have rows : (sceneOf server).berths cell = server.db.moorings.filter fun row =>
      decide (row.cellX = cell.cx ∧ row.cellZ = cell.cz) := rfl
  have housed : ∀ player, player ∈ playersOn pages ↔ ∃ other session, server.sessions.get? other = some session ∧
      session.playerId = player ∧ session.cell = some cell := by
    intro player
    rw [whole.players, Scene.housed, List.mem_filter, mem_ascending]
    show player ∈ server.playerOrder ∧ houses server cell player = true ↔ _
    constructor
    · rintro ⟨member, here⟩
      obtain ⟨other, session, found, own, lookup⟩ := SnapshotSchedule.sessionByPlayer_of agree member
      refine ⟨other, session, found, own, ?_⟩
      simpa [houses, lookup] using here
    · rintro ⟨other, session, found, own, here⟩
      have owner := (agree.owner_iff player other).mpr ⟨session, found, own⟩
      refine ⟨?_, ?_⟩
      · rw [agree.order]
        exact (FiniteMap.mem_keys_iff_exists _ _).mpr ⟨other, owner⟩
      · simp [houses, sessionByPlayer, owner, found, own, here]
  have unique : (playersOn pages).Nodup := by
    rw [whole.players]
    exact (ascending_nodup _).filter _
  constructor
  · exact whole.some
  · intro other session found here
    exact List.count_eq_one_of_mem unique ((housed session.playerId).mpr ⟨other, session, found, rfl, here⟩)
  · intro player member
    exact (housed player).mp member
  · rw [whole.moorings, shown, rows, List.filter_filter]
    congr 1
    apply List.filter_congr
    intro row _
    rw [nameFits, ← Bool.decide_and, decide_eq_decide]
    tauto
  · rw [whole.moorings, shown, List.pairwise_map, rows]
    exact (keyed.filter _).filter _

/-- The snapshots of `cell` that `peer` was sent between two moments. -/
def cellPages (peer : PeerId) (cell : Cell) (server after : Server F) : List (Page F) :=
  about cell (pagesTo peer (after.sent.drop server.sent.length))

/-- While everyone and everything stays put, a session that registers is shown the whole of every cell
of its block, each entity once. -/
theorem hydration_completes (fits : CellSnapshotsFit F) (mooringsFit : MooringPagesFit F) (keyed : Keyed db.moorings)
    (run : Run db (trace ++ [stage]) server pending) (vacant : stage.before.sessions.get? peer = none)
    (found : server.sessions.get? peer = some session) :
    (∃ calls, (aoiCall^[calls] server).sessionHasAoiWork peer = false) ∧
      ∀ calls, (aoiCall^[calls] server).sessionHasAoiWork peer = false →
        ∃ center, session.cell = some center ∧
          ∀ cell : Cell, cell.chebyshevDistance center ≤ server.cfg.aoiRadiusI32 →
            CellTold server cell (cellPages peer cell server (aoiCall^[calls] server)) := by
  have filed := registered_filed run vacant found
  have table : Keyed server.db.moorings := (MoorageOwnership.run_tableSteps keyed run).2
  refine ⟨calls_settle fits mooringsFit table run found filed, ?_⟩
  intro calls settled
  obtain ⟨center, here, -, centred⟩ := run.inv.agree.cells peer session found
  have block := ((run_interest run).blocks peer session found).cells center centred
  refine ⟨center, here, fun cell near => ?_⟩
  obtain ⟨later, pages, kept, sub, ⟨posts, grown, told⟩, done, -⟩ :=
    calls_filed fits mooringsFit table found filed calls
  have sent : (aoiCall^[calls] server).sent.drop server.sent.length = posts := by rw [grown, List.drop_left]
  rw [List.nil_append] at done
  rw [cellPages, sent, told]
  have rested : ¬ HasWork later := by
    rw [← hasWork_iff kept, settled]
    exact Bool.false_ne_true
  rw [HasWork, not_or, not_or, not_not, not_not, not_not] at rested
  obtain ⟨published, idle, waited⟩ := rested
  refine whole_told run.inv.agree table (done.whole cell ?_ ?_ ?_)
  · rw [published, sub, block, List.mem_toFinset, World.mem_cellsInRadius]
    exact near
  · rw [waited]
    exact Finset.notMem_empty _
  · intro hydration active
    rw [idle] at active
    cases active

end Calls

/-! Two clients at the origin of a server with moorings in two cells, one of them named beyond the limit. -/

def berthedAt (boatId cellX : Int) (name : String) : MooringRow Int :=
  { boatId := Int64.ofInt boatId
    owner := 1
    cellX
    cellZ := 0
    pos := (0, 0, 0)
    rot := (0, 0, 0, 1)
    name
    createdAt := 0 }

def harbourDb : Db Int :=
  { emptyDb with
    moorings := [berthedAt (-5) 0 "sloop", berthedAt 3 1 "ketch",
      berthedAt 6 0 (String.ofList (List.replicate 900 'x')),
      berthedAt 7 0 "yawl"] }

def harbourServer : Server Int := Server.opened freshServer.cfg harbourDb FiniteMap.empty 0 0

def awaitingServer : Server Int :=
  handleAll (polledBy harbourServer joinScript) 1000 [.connected 1, .connected 2, .data 1 [1]]

def dockedServer : Server Int := (awaitingServer.handleEvent (calmAt 4000) (.data 2 [2])).1

theorem docked_run : ∃ trace, Run harbourDb
    (trace ++ [⟨awaitingServer, .handle (calmAt 4000) (.data 2 [2]), dockedServer⟩]) dockedServer [] := by
  have opened : Server.new freshServer.cfg harbourDb 0 0 = .ok harbourServer := rfl
  have begun : Run harbourDb [] harbourServer [] := .start opened
  have seen : (harbourServer.host.pollWithWork 0 joinScript).toOption.map
      (fun after => after.events.map Prod.fst) = some joinEvents := by decide +kernel
  have waiting := polledBy_run begun joinScript seen
  have greeted : Run harbourDb _ awaitingServer [.data 2 [2]] :=
    handleAll_run [.connected 1, .connected 2, .data 1 [1]] 1000 waiting
  exact ⟨_, .handle (calmAt 4000) greeted⟩

theorem hydration_completes_docked :
    ∃ calls, (aoiCall^[calls] dockedServer).sessionHasAoiWork 2 = false ∧
      (playersOn (cellPages 2 ⟨0, 0⟩ dockedServer (aoiCall^[calls] dockedServer))).count 1 = 1 ∧
      (mooringsOn (cellPages 2 ⟨0, 0⟩ dockedServer (aoiCall^[calls] dockedServer))).map MooringSnap.name =
        ["sloop", "yawl"] := by
  obtain ⟨trace, run⟩ := docked_run
  have keyed : Keyed harbourDb.moorings := by unfold Keyed; decide +kernel
  have fits : CellSnapshotsFit Int := by
    intro seq cell players boats _ _
    exact (by decide : (List.replicate 64 (0 : UInt8)).length ≤ payloadLimit)
  have mooringsFit : MooringPagesFit Int := by
    intro seq cell mooring _
    exact (by decide : (List.replicate 64 (0 : UInt8)).length ≤ payloadLimit)
  have vacant : (awaitingServer.sessions.get? 2).isNone = true := by decide +kernel
  have seated : (dockedServer.sessions.get? 2).map Session.cell = some (some ⟨0, 0⟩) := by decide +kernel
  have first : (dockedServer.sessions.get? 1).map (fun session => (session.playerId, session.cell)) =
      some (1, some ⟨0, 0⟩) := by decide +kernel
  have near : (⟨0, 0⟩ : Cell).chebyshevDistance ⟨0, 0⟩ ≤ dockedServer.cfg.aoiRadiusI32 := by decide +kernel
  have rows : ((dockedServer.db.moorings.filter fun row => decide (row.cellX = 0 ∧ row.cellZ = 0 ∧
      row.name.utf8ByteSize ≤ maxMooringNameBytes)).map mooringSnap).map MooringSnap.name = ["sloop", "yawl"] := by
    decide +kernel
  obtain ⟨session, found, here⟩ := Option.map_eq_some_iff.mp seated
  obtain ⟨other, present, both⟩ := Option.map_eq_some_iff.mp first
  rw [Prod.mk.injEq] at both
  obtain ⟨⟨calls, settled⟩, told⟩ :=
    hydration_completes fits mooringsFit keyed run (Option.isNone_iff_eq_none.mp vacant) found
  obtain ⟨center, placed, cells⟩ := told calls settled
  rw [here, Option.some.injEq] at placed
  subst placed
  have origin := cells ⟨0, 0⟩ near
  refine ⟨calls, settled, ?_, ?_⟩
  · have once := origin.located 1 other present both.2
    rwa [both.1] at once
  · rw [origin.moored]
    exact rows

end SailwindOnline.HydrationCompletion
