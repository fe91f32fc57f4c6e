import Mathlib.Data.List.Basic
import Mathlib.Data.Set.Insert
import Mathlib.Logic.Function.Basic

/-!
Identifiers that are issued, used and issued again. Each issue opens an
incarnation of the identifier at some origin; the incarnation speaks any number
of times and is then closed, or evicted without a word. An identifier retired
in an epoch is not issued again before the epoch ends, so all the marks an
epoch leaves about one identifier belong to one incarnation.
-/

namespace SailwindOnline.Incarnations

inductive Mark (Id Origin Word Reason : Type) where
  | opened (id : Id) (origin : Origin)
  | spoke (id : Id) (origin : Origin) (word : Word)
  | closed (id : Id) (origin : Origin) (reason : Reason)
  | evicted (id : Id) (origin : Origin)

variable {Id Origin Word Reason : Type}

namespace Mark

def id : Mark Id Origin Word Reason → Id
  | .opened id _ | .spoke id _ _ | .closed id _ _ | .evicted id _ => id

def origin : Mark Id Origin Word Reason → Origin
  | .opened _ origin | .spoke _ origin _ | .closed _ origin _ | .evicted _ origin => origin

end Mark

inductive Ending (Reason : Type) where
  | closed (reason : Reason)
  | evicted

/-- One whole incarnation of an identifier. -/
structure Incarnation (Origin Word Reason : Type) where
  origin : Origin
  words : List Word
  ending : Ending Reason

def openMarks (id : Id) (origin : Origin) (words : List Word) : List (Mark Id Origin Word Reason) :=
  .opened id origin :: words.map (.spoke id origin)

def Ending.mark (id : Id) (origin : Origin) : Ending Reason → Mark Id Origin Word Reason
  | .closed reason => .closed id origin reason
  | .evicted => .evicted id origin

def Incarnation.marks (id : Id) (life : Incarnation Origin Word Reason) :
    List (Mark Id Origin Word Reason) :=
  openMarks id life.origin life.words ++ [life.ending.mark id life.origin]

structure Table (Id Origin : Type) where
  live : Id → Option Origin
  retired : Set Id

variable [DecidableEq Id]

def about (id : Id) (history : List (Mark Id Origin Word Reason)) : List (Mark Id Origin Word Reason) :=
  history.filter (fun mark => mark.id = id)

/-- The marks left so far about `id` are finished incarnations and, while it is live, one open one. -/
def Spelled (id : Id) (history : List (Mark Id Origin Word Reason)) (current : Option Origin) : Prop :=
  ∃ past : List (Incarnation Origin Word Reason),
    match current with
    | none => about id history = past.flatMap (Incarnation.marks id)
    | some origin => ∃ words,
        about id history = past.flatMap (Incarnation.marks id) ++ openMarks id origin words

inductive Step : Table Id Origin → Mark Id Origin Word Reason → Table Id Origin → Prop
  | issue {table : Table Id Origin} {id : Id} {origin : Origin}
      (vacant : table.live id = none) (rested : id ∉ table.retired) :
      Step table (.opened id origin) { table with live := Function.update table.live id (some origin) }
  | speak {table : Table Id Origin} {id : Id} {origin : Origin} (word : Word)
      (held : table.live id = some origin) : Step table (.spoke id origin word) table
  | close {table : Table Id Origin} {id : Id} {origin : Origin} (reason : Reason)
      (held : table.live id = some origin) :
      Step table (.closed id origin reason)
        { live := Function.update table.live id none, retired := insert id table.retired }
  | evict {table : Table Id Origin} {id : Id} {origin : Origin}
      (held : table.live id = some origin) :
      Step table (.evicted id origin)
        { live := Function.update table.live id none, retired := insert id table.retired }

inductive Steps : Table Id Origin → List (Mark Id Origin Word Reason) → Table Id Origin → Prop
  | refl (table : Table Id Origin) : Steps table [] table
  | snoc {first middle last : Table Id Origin} {marks : List (Mark Id Origin Word Reason)}
      {mark : Mark Id Origin Word Reason} (before : Steps first marks middle)
      (step : Step middle mark last) : Steps first (marks ++ [mark]) last

variable {first middle last table after : Table Id Origin}
variable {marks later history : List (Mark Id Origin Word Reason)} {mark : Mark Id Origin Word Reason}

theorem Steps.single (step : Step table mark after) : Steps table [mark] after :=
  Steps.snoc (Steps.refl table) step

theorem Steps.trans (before : Steps first marks middle) (next : Steps middle later last) :
    Steps first (marks ++ later) last := by
  induction next with
  | refl => simpa using before
  | snoc _ step ih =>
      rw [← List.append_assoc]
      exact Steps.snoc ih step

theorem about_snoc_other {id : Id} (other : mark.id ≠ id) :
    about id (history ++ [mark]) = about id history := by
  simp [about, other]

theorem about_snoc_own (id : Id) (own : mark.id = id) :
    about id (history ++ [mark]) = about id history ++ [mark] := by
  simp [about, own]

theorem spelled_other {id : Id} {current : Option Origin} (other : mark.id ≠ id)
    (spelled : Spelled id history current) : Spelled id (history ++ [mark]) current := by
  unfold Spelled at spelled ⊢
  simpa only [about_snoc_other other] using spelled

theorem spelled_end {id : Id} {origin : Origin} (ending : Ending Reason)
    (spelled : Spelled id history (some origin)) :
    Spelled id (history ++ [ending.mark id origin]) none := by
  obtain ⟨past, words, spelling⟩ := spelled
  refine ⟨past ++ [⟨origin, words, ending⟩], ?_⟩
  have own : (ending.mark id origin : Mark Id Origin Word Reason).id = id := by cases ending <;> rfl
  rw [about_snoc_own id own, spelling]
  simp [Incarnation.marks]

/-- Each mark extends the spelling of its own identifier and of no other. -/
theorem Step.spelled (step : Step table mark after) (id : Id)
    (spelled : Spelled id history (table.live id)) :
    Spelled id (history ++ [mark]) (after.live id) := by
  cases step with
  | @issue issued origin vacant rested =>
      by_cases same : issued = id
      · subst same
        rw [vacant] at spelled
        obtain ⟨past, spelling⟩ := spelled
        simp only [Function.update_self]
        exact ⟨past, [], by rw [about_snoc_own issued rfl, spelling]; rfl⟩
      · simp only [Function.update_of_ne (Ne.symm same)]
        exact spelled_other same spelled
  | @speak speaker origin word held =>
      by_cases same : speaker = id
      · subst same
        rw [held] at spelled ⊢
        obtain ⟨past, words, spelling⟩ := spelled
        exact ⟨past, words ++ [word], by rw [about_snoc_own speaker rfl, spelling]; simp [openMarks]⟩
      · exact spelled_other same spelled
  | @close closed origin reason held =>
      by_cases same : closed = id
      · subst same
        rw [held] at spelled
        simp only [Function.update_self]
        exact spelled_end (.closed reason) spelled
      · simp only [Function.update_of_ne (Ne.symm same)]
        exact spelled_other same spelled
  | @evict evicted origin held =>
      by_cases same : evicted = id
      · subst same
        rw [held] at spelled
        simp only [Function.update_self]
        exact spelled_end .evicted spelled
      · simp only [Function.update_of_ne (Ne.symm same)]
        exact spelled_other same spelled

theorem Steps.spelled (steps : Steps table marks after) (id : Id)
    (spelled : Spelled id history (table.live id)) :
    Spelled id (history ++ marks) (after.live id) := by
  induction steps with
  | refl => simpa using spelled
  | snoc _ step ih =>
      rw [← List.append_assoc]
      exact step.spelled id ih

-- `id` still stands for the incarnation at `origin`: live there, or retired and not yet reissued.
def Bound (table : Table Id Origin) (id : Id) (origin : Origin) : Prop :=
  table.live id = some origin ∨ (table.live id = none ∧ id ∈ table.retired)

theorem Step.bound_mark (step : Step table mark after) : Bound after mark.id mark.origin := by
  cases step with
  | issue vacant rested => exact Or.inl (by simp [Mark.id, Mark.origin])
  | speak word held => exact Or.inl held
  | close reason held => exact Or.inr (by simp [Mark.id])
  | evict held => exact Or.inr (by simp [Mark.id])

theorem Step.bound (step : Step table mark after) {id : Id} {origin : Origin}
    (bound : Bound table id origin) : Bound after id origin := by
  cases step with
  | @issue issued place vacant rested =>
      have other : id ≠ issued := by
        rintro rfl
        rcases bound with held | ⟨-, gone⟩
        · rw [vacant] at held
          cases held
        · exact rested gone
      simpa [Bound, Function.update_of_ne other] using bound
  | speak word held => exact bound
  | @close closed place reason held =>
      by_cases same : id = closed
      · exact Or.inr (by simp [same])
      · simpa [Bound, Function.update_of_ne same, same] using bound
  | @evict evicted place held =>
      by_cases same : id = evicted
      · exact Or.inr (by simp [same])
      · simpa [Bound, Function.update_of_ne same, same] using bound

theorem Steps.bound (steps : Steps table marks after) {id : Id} {origin : Origin}
    (bound : Bound table id origin) : Bound after id origin := by
  induction steps with
  | refl => exact bound
  | snoc _ step ih => exact step.bound ih

/-- Within an epoch every mark about an identifier names the origin it stands for at the end. -/
theorem Steps.bound_marks (steps : Steps table marks after) :
    ∀ mark ∈ marks, Bound after mark.id mark.origin := by
  induction steps with
  | refl => simp
  | snoc _ step ih =>
      intro mark member
      rcases List.mem_append.mp member with earlier | final
      · exact step.bound (ih mark earlier)
      · rw [List.mem_singleton.mp final]
        exact step.bound_mark

/-- An incarnation is only ever opened as the first mark its identifier leaves in the epoch. -/
theorem Steps.opened_first (steps : Steps table (marks ++ mark :: later) after)
    {id : Id} {origin : Origin} (opens : mark = .opened id origin) : ∀ earlier ∈ marks, earlier.id ≠ id := by
  generalize whole : marks ++ mark :: later = all at steps
  induction steps generalizing later with
  | refl => simp at whole
  | snoc before step ih =>
      rcases List.eq_nil_or_concat later with rfl | ⟨rest, tail, rfl⟩
      · obtain ⟨rfl, rfl⟩ := List.append_inj' whole rfl |>.imp_right List.singleton_inj.mp
        intro earlier member same
        have bound := before.bound_marks earlier member
        subst opens
        cases step with
        | issue vacant rested =>
            rw [same] at bound
            rcases bound with held | ⟨-, gone⟩
            · rw [vacant] at held
              cases held
            · exact rested gone
      · rw [List.concat_eq_append, ← List.cons_append, ← List.append_assoc] at whole
        exact ih (List.append_inj' whole rfl).1

/-- A live incarnation stays live through the epoch, or a mark records its end. -/
theorem Steps.live_or_ended (steps : Steps table marks after) {id : Id} {origin : Origin}
    (live : table.live id = some origin) :
    after.live id = some origin ∨ ∃ ending : Ending Reason, ending.mark id origin ∈ marks := by
  induction steps with
  | refl => exact Or.inl live
  | snoc _ step ih =>
      rcases ih with held | ⟨ending, member⟩
      · cases step with
        | @issue issued place vacant rested =>
            have other : id ≠ issued := by
              rintro rfl
              rw [vacant] at held
              cases held
            exact Or.inl (by simpa [Function.update_of_ne other] using held)
        | speak word speaking => exact Or.inl held
        | @close closed place reason closing =>
            by_cases same : id = closed
            · subst same
              rw [held, Option.some.injEq] at closing
              exact Or.inr ⟨.closed reason, by simp [Ending.mark, closing]⟩
            · exact Or.inl (by simpa [Function.update_of_ne same] using held)
        | @evict evicted place evicting =>
            by_cases same : id = evicted
            · subst same
              rw [held, Option.some.injEq] at evicting
              exact Or.inr ⟨.evicted, by simp [Ending.mark, evicting]⟩
            · exact Or.inl (by simpa [Function.update_of_ne same] using held)
      · exact Or.inr ⟨ending, List.mem_append_left _ member⟩

theorem Steps.split (steps : Steps first (marks ++ later) last) :
    ∃ middle, Steps first marks middle ∧ Steps middle later last := by
  generalize whole : marks ++ later = all at steps
  induction steps generalizing later with
  | refl =>
      obtain ⟨rfl, rfl⟩ := List.append_eq_nil_iff.mp whole
      exact ⟨_, .refl _, .refl _⟩
  | snoc before step ih =>
      rcases List.eq_nil_or_concat later with rfl | ⟨rest, tail, rfl⟩
      · rw [List.append_nil] at whole
        subst whole
        exact ⟨_, before.snoc step, .refl _⟩
      · rw [List.concat_eq_append, ← List.append_assoc] at whole
        obtain ⟨same, tail_eq⟩ := List.append_inj' whole rfl
        cases tail_eq
        obtain ⟨middle, earlier, next⟩ := ih same
        rw [List.concat_eq_append]
        exact ⟨middle, earlier, next.snoc step⟩

/-- Whoever speaks is live to the end of the epoch, or a later mark records its end. -/
theorem Steps.spoke_live_or_ended {id : Id} {origin : Origin} {word : Word}
    (steps : Steps table (marks ++ .spoke id origin word :: later) after) :
    after.live id = some origin ∨ ∃ ending : Ending Reason, ending.mark id origin ∈ later := by
  rw [← List.singleton_append, ← List.append_assoc] at steps
  obtain ⟨middle, spoken, rest⟩ := Steps.split steps
  have held : middle.live id = some origin := by
    generalize whole : marks ++ [.spoke id origin word] = all at spoken
    cases spoken with
    | refl => simp at whole
    | snoc before step =>
        obtain ⟨rfl, same⟩ := List.append_inj' whole rfl
        cases same
        cases step with
        | speak _ held => exact held
  exact rest.live_or_ended held

end SailwindOnline.Incarnations
