import Mathlib.Algebra.BigOperators.Group.List.Basic
import Mathlib.Algebra.Ring.Int.Defs
import SailwindOnline.Runs

/-!
An append-only journal of signed postings to accounts, keyed by an idempotency
id. A posting is admitted once, and only while the account's total stays in
`0..=cap`. The journal itself is the whole state: balances are sums of it.
-/

namespace SailwindOnline.Journal

structure Entry (Id Account : Type) where
  id : Id
  account : Account
  amount : Int
  deriving DecidableEq

variable {Id Account : Type} [DecidableEq Id] [DecidableEq Account]

def total (log : List (Entry Id Account)) (account : Account) : Int :=
  ((log.filter (fun entry => entry.account = account)).map Entry.amount).sum

def recorded (log : List (Entry Id Account)) (id : Id) : Bool :=
  log.any (fun entry => entry.id = id)

inductive Verdict where
  | replayed
  | posted
  | refused
  deriving DecidableEq

def post (cap : Int) (log : List (Entry Id Account)) (entry : Entry Id Account) :
    Verdict × List (Entry Id Account) :=
  if recorded log entry.id then (.replayed, log)
  else if 0 ≤ total log entry.account + entry.amount ∧
      total log entry.account + entry.amount ≤ cap then (.posted, log ++ [entry])
  else (.refused, log)

structure Sound (cap : Int) (log : List (Entry Id Account)) : Prop where
  unique : (log.map Entry.id).Nodup
  bounded : ∀ account, 0 ≤ total log account ∧ total log account ≤ cap

omit [DecidableEq Id] in
theorem total_nil (account : Account) : total ([] : List (Entry Id Account)) account = 0 := rfl

omit [DecidableEq Id] in
theorem total_append (log more : List (Entry Id Account)) (account : Account) :
    total (log ++ more) account = total log account + total more account := by
  simp [total, List.filter_append]

omit [DecidableEq Id] in
theorem total_snoc (log : List (Entry Id Account)) (entry : Entry Id Account) (account : Account) :
    total (log ++ [entry]) account =
      total log account + if entry.account = account then entry.amount else 0 := by
  rw [total_append]
  by_cases same : entry.account = account <;> simp [total, same]

omit [DecidableEq Account] in
theorem recorded_iff (log : List (Entry Id Account)) (id : Id) :
    recorded log id = true ↔ ∃ entry ∈ log, entry.id = id := by
  simp [recorded]

omit [DecidableEq Account] in
theorem recorded_snoc (log : List (Entry Id Account)) (entry : Entry Id Account) (id : Id) :
    recorded (log ++ [entry]) id = (recorded log id || decide (entry.id = id)) := by
  simp [recorded]

omit [DecidableEq Id] in
theorem sound_nil (cap : Int) (nonneg : 0 ≤ cap) : Sound cap ([] : List (Entry Id Account)) :=
  ⟨List.nodup_nil, fun _ => ⟨Int.le_refl 0, nonneg⟩⟩

/-- What one posting can do: replay or refusal keeps the journal, and a posting
appends exactly its entry under a fresh id within the cap. -/
theorem post_cases (cap : Int) (log : List (Entry Id Account)) (entry : Entry Id Account) :
    (recorded log entry.id = true ∧ post cap log entry = (.replayed, log)) ∨
    (recorded log entry.id = false ∧ 0 ≤ total log entry.account + entry.amount ∧
      total log entry.account + entry.amount ≤ cap ∧
      post cap log entry = (.posted, log ++ [entry])) ∨
    (recorded log entry.id = false ∧
      (total log entry.account + entry.amount < 0 ∨ cap < total log entry.account + entry.amount) ∧
      post cap log entry = (.refused, log)) := by
  unfold post
  cases known : recorded log entry.id with
  | true => exact Or.inl ⟨rfl, rfl⟩
  | false =>
      by_cases fits : 0 ≤ total log entry.account + entry.amount ∧
          total log entry.account + entry.amount ≤ cap
      · exact Or.inr (Or.inl ⟨rfl, fits.1, fits.2, by simp [fits]⟩)
      · refine Or.inr (Or.inr ⟨rfl, by omega, by simp [fits]⟩)

theorem post_sound (cap : Int) (log : List (Entry Id Account)) (entry : Entry Id Account)
    (sound : Sound cap log) : Sound cap (post cap log entry).2 := by
  rcases post_cases cap log entry with ⟨_, same⟩ | ⟨fresh, lower, upper, same⟩ | ⟨_, _, same⟩
  · simpa [same] using sound
  · rw [same]
    constructor
    · rw [List.map_append, List.nodup_append]
      refine ⟨sound.unique, by simp, ?_⟩
      intro old member new here
      obtain ⟨prior, inLog, rfl⟩ := List.mem_map.mp member
      simp only [List.map_cons, List.map_nil, List.mem_singleton] at here
      subst here
      intro collision
      have known := (recorded_iff log entry.id).mpr ⟨prior, inLog, collision⟩
      rw [fresh] at known
      contradiction
    · intro account
      rw [total_snoc]
      by_cases own : entry.account = account
      · subst own
        simpa using And.intro lower upper
      · simpa [own] using sound.bounded account
  · simpa [same] using sound

theorem run_sound (cap : Int) (nonneg : 0 ≤ cap) (entries : List (Entry Id Account)) :
    Sound cap (Runs.final (post cap) [] entries) :=
  Runs.invariant_always (post cap) (Sound cap) (fun log entry => post_sound cap log entry)
    entries [] (sound_nil cap nonneg)

/-- The net amount an id's owner has posted since that id was recorded. -/
def laterNet (log : List (Entry Id Account)) (id : Id) : Int :=
  match log with
  | [] => 0
  | entry :: rest => if entry.id = id then total rest entry.account else laterNet rest id

omit [DecidableEq Account] in
theorem not_recorded_iff (log : List (Entry Id Account)) (id : Id) :
    recorded log id = false ↔ ∀ entry ∈ log, entry.id ≠ id := by
  simp [recorded]

theorem laterNet_split (before after : List (Entry Id Account)) (entry : Entry Id Account)
    (first : recorded before entry.id = false) :
    laterNet (before ++ entry :: after) entry.id = total after entry.account := by
  induction before with
  | nil => simp [laterNet]
  | cons head rest ih =>
      have distinct := (not_recorded_iff (head :: rest) entry.id).mp first
      have tail : recorded rest entry.id = false :=
        (not_recorded_iff rest entry.id).mpr (fun e member => distinct e (List.mem_cons_of_mem head member))
      simp only [List.cons_append, laterNet, distinct head List.mem_cons_self, ↓reduceIte]
      exact ih tail

theorem laterNet_unrecorded (log : List (Entry Id Account)) (id : Id)
    (absent : recorded log id = false) : laterNet log id = 0 := by
  induction log with
  | nil => rfl
  | cons head rest ih =>
      have distinct := (not_recorded_iff (head :: rest) id).mp absent
      have tail : recorded rest id = false :=
        (not_recorded_iff rest id).mpr (fun e member => distinct e (List.mem_cons_of_mem head member))
      simp only [laterNet, distinct head List.mem_cons_self, ↓reduceIte]
      exact ih tail

omit [DecidableEq Account] in
/-- A unique id sits at one position: everything before it carries other ids. -/
theorem recorded_before_unique (before after : List (Entry Id Account)) (entry : Entry Id Account)
    (unique : ((before ++ entry :: after).map Entry.id).Nodup) : recorded before entry.id = false := by
  rw [not_recorded_iff]
  intro prior member collision
  rw [List.map_append, List.nodup_append] at unique
  exact unique.2.2 prior.id (List.mem_map_of_mem member) entry.id (by simp) collision

end SailwindOnline.Journal
