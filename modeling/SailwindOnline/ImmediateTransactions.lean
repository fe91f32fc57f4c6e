import Mathlib.Logic.Function.Basic

/-!
Transactions behind one write lock. A call waits for the lock, works on a
private copy of the store one statement at a time, and either commits its copy
or is rolled back; other connections may run at any moment in between. Since
only the holder of the lock works, whatever commits is what the call would have
done alone on the store it found.
-/

namespace SailwindOnline.ImmediateTransactions

/-- What one statement of a transaction does. -/
inductive Turn (Place Store Result Error : Type) where
  | next (place : Place) (work : Store)
  | commit (work : Store) (result : Result)
  | fail (error : Error)

structure Program (Call Place Store Result Error : Type) where
  enter : Place
  execute : Call → Place → Store → Turn Place Store Result Error

inductive Phase (Call Place Store : Type) where
  | idle
  | waiting (call : Call)
  | inside (call : Call) (place : Place) (work : Store)

structure Finished (Conn Call Result Error : Type) where
  conn : Conn
  call : Call
  result : Except Error Result

structure System (Conn Call Place Store Result Error : Type) where
  disk : Store
  holder : Option Conn := none
  phases : Conn → Phase Call Place Store := fun _ => .idle
  log : List (Finished Conn Call Result Error) := []

/-- A connection starts a call, takes its next step, or sees it fail. -/
inductive Action (Conn Call Error : Type) where
  | submit (conn : Conn) (call : Call)
  | advance (conn : Conn)
  | abort (conn : Conn) (error : Error)

section Semantics
variable {Conn Call Place Store Result Error : Type} [DecidableEq Conn]

def System.set (system : System Conn Call Place Store Result Error) (conn : Conn)
    (phase : Phase Call Place Store) : System Conn Call Place Store Result Error :=
  { system with phases := Function.update system.phases conn phase }

def System.finish (system : System Conn Call Place Store Result Error) (conn : Conn) (call : Call)
    (result : Except Error Result) : System Conn Call Place Store Result Error :=
  { system with
    holder := if system.holder = some conn then none else system.holder
    phases := Function.update system.phases conn .idle
    log := system.log ++ [⟨conn, call, result⟩] }

/-- `none` is a step the connection cannot take now. -/
def step (program : Program Call Place Store Result Error) (system : System Conn Call Place Store Result Error) :
    Action Conn Call Error → Option (System Conn Call Place Store Result Error)
  | .submit conn call =>
    match system.phases conn with
    | .idle => some (system.set conn (.waiting call))
    | _ => none
  | .advance conn =>
    match system.phases conn with
    | .idle => none
    | .waiting call =>
      if system.holder = none then
        some { system.set conn (.inside call program.enter system.disk) with holder := some conn }
      else none
    | .inside call place work =>
      match program.execute call place work with
      | .next place work => some (system.set conn (.inside call place work))
      | .commit work result => some (({ system with disk := work }).finish conn call (.ok result))
      | .fail error => some (system.finish conn call (.error error))
  | .abort conn error =>
    match system.phases conn with
    | .idle => none
    | .waiting call | .inside call _ _ => some (system.finish conn call (.error error))

inductive Run (program : Program Call Place Store Result Error) (start : Store) :
    System Conn Call Place Store Result Error → Prop
  | start : Run program start { disk := start }
  | step {system after : System Conn Call Place Store Result Error} (run : Run program start system)
      (action : Action Conn Call Error) (done : step program system action = some after) : Run program start after

def steps (program : Program Call Place Store Result Error) (system : System Conn Call Place Store Result Error) :
    List (Action Conn Call Error) → Option (System Conn Call Place Store Result Error)
  | [] => some system
  | action :: rest => (step program system action).bind fun after => steps program after rest

theorem run_steps {program : Program Call Place Store Result Error} {start : Store}
    {system after : System Conn Call Place Store Result Error} (run : Run program start system)
    (actions : List (Action Conn Call Error)) (done : steps program system actions = some after) :
    Run program start after := by
  induction actions generalizing system with
  | nil =>
      cases done
      exact run
  | cons action rest ih =>
      obtain ⟨middle, first, later⟩ := Option.bind_eq_some_iff.mp done
      exact ih (run.step action first) later

end Semantics

/-! A call on its own. -/
section Alone
variable {Call Place Store Result Error : Type} (program : Program Call Place Store Result Error) (call : Call)
  (disk : Store)

/-- Where a call that found `disk` can be, if nobody interferes. -/
inductive Reaches : Place → Store → Prop
  | enter : Reaches program.enter disk
  | next {place later : Place} {work after : Store} (before : Reaches place work)
      (executed : program.execute call place work = .next later after) : Reaches later after

def Completes (after : Store) (result : Result) : Prop :=
  ∃ place work, Reaches program call disk place work ∧ program.execute call place work = .commit after result

def Fails (error : Error) : Prop :=
  ∃ place work, Reaches program call disk place work ∧ program.execute call place work = .fail error

end Alone

/-! Serialization. -/
section Serialization
variable {Conn Call Place Store Result Error : Type} [DecidableEq Conn]
  {program : Program Call Place Store Result Error} {start : Store}
  {system after : System Conn Call Place Store Result Error} {action : Action Conn Call Error}

/-- Whoever is inside a transaction holds the lock, and has seen the store as it is. -/
def Exclusive (program : Program Call Place Store Result Error)
    (system : System Conn Call Place Store Result Error) : Prop :=
  ∀ conn call place work, system.phases conn = .inside call place work →
    system.holder = some conn ∧ Reaches program call system.disk place work

/-- All a step can do to the store and to the results handed out. -/
inductive StepEffect (program : Program Call Place Store Result Error)
    (system : System Conn Call Place Store Result Error) (action : Action Conn Call Error)
    (after : System Conn Call Place Store Result Error) : Prop
  | silent (disk : after.disk = system.disk) (log : after.log = system.log)
  | failed (conn : Conn) (call : Call) (error : Error) (disk : after.disk = system.disk)
      (log : after.log = system.log ++ [⟨conn, call, .error error⟩])
      (cause : action = .abort conn error ∨ Fails program call system.disk error)
  | committed (conn : Conn) (call : Call) (result : Result)
      (completes : Completes program call system.disk after.disk result)
      (log : after.log = system.log ++ [⟨conn, call, .ok result⟩])

theorem Exclusive.set (exclusive : Exclusive program system) {conn : Conn} {phase : Phase Call Place Store}
    (sound : ∀ call place work, phase = .inside call place work →
      system.holder = some conn ∧ Reaches program call system.disk place work) :
    Exclusive program (system.set conn phase) := by
  intro other call place work found
  simp only [System.set, Function.update_apply] at found
  split at found <;> rename_i same
  · subst same
    exact sound call place work found
  · exact exclusive other call place work found

/-- A call that ends leaves nobody inside but those who were, so nobody if it held the lock. -/
theorem Exclusive.finish (exclusive : Exclusive program system) {conn : Conn} {call : Call}
    {result : Except Error Result} {disk : Store}
    (kept : system.holder = some conn ∨ disk = system.disk) :
    Exclusive program (({ system with disk := disk }).finish conn call result) := by
  intro other held place work found
  simp only [System.finish, Function.update_apply] at found ⊢
  split at found <;> rename_i same
  · cases found
  · obtain ⟨holds, reached⟩ := exclusive other held place work found
    have apart : system.holder ≠ some conn := by
      rw [holds]
      exact fun equal => same (Option.some.inj equal)
    refine ⟨by rw [if_neg apart, holds], ?_⟩
    rw [kept.resolve_left apart]
    exact reached

theorem step_effect (exclusive : Exclusive program system) (done : step program system action = some after) :
    Exclusive program after ∧ StepEffect program system action after := by
  cases action with
  | submit conn call =>
      simp only [step] at done
      split at done
      · cases done
        exact ⟨exclusive.set (by rintro _ _ _ ⟨⟩), .silent rfl rfl⟩
      · cases done
  | advance conn =>
      simp only [step] at done
      split at done <;> rename_i phase
      · cases done
      · split at done <;> rename_i free
        · cases done
          refine ⟨?_, .silent rfl rfl⟩
          intro other held place work found
          simp only [System.set, Function.update_apply] at found
          split at found <;> rename_i same
          · cases found
            exact ⟨congrArg some same.symm, .enter⟩
          · have holds := (exclusive other held place work found).1
            rw [free] at holds
            cases holds
        · cases done
      · obtain ⟨holds, reached⟩ := exclusive _ _ _ _ phase
        split at done <;> rename_i executed <;> cases done
        · refine ⟨exclusive.set ?_, .silent rfl rfl⟩
          rintro _ _ _ ⟨⟩
          exact ⟨holds, reached.next executed⟩
        · exact ⟨exclusive.finish (Or.inl holds), .committed conn _ _ ⟨_, _, reached, executed⟩ rfl⟩
        · exact ⟨exclusive.finish (Or.inr rfl), .failed conn _ _ rfl rfl (Or.inr ⟨_, _, reached, executed⟩)⟩
  | abort conn error =>
      simp only [step] at done
      split at done
      · cases done
      all_goals
        cases done
        exact ⟨exclusive.finish (Or.inr rfl), .failed conn _ _ rfl rfl (Or.inl rfl)⟩

/-- The results of `log`, in the order they were handed out, are those of calls made one after another. -/
inductive Serial (program : Program Call Place Store Result Error) (start : Store) :
    List (Finished Conn Call Result Error) → Store → Prop
  | nil : Serial program start [] start
  | failed {log : List (Finished Conn Call Result Error)} {disk : Store} (earlier : Serial program start log disk)
      (conn : Conn) (call : Call) (error : Error) : Serial program start (log ++ [⟨conn, call, .error error⟩]) disk
  | committed {log : List (Finished Conn Call Result Error)} {disk after : Store} {call : Call} {result : Result}
      (earlier : Serial program start log disk) (conn : Conn)
      (completes : Completes program call disk after result) :
      Serial program start (log ++ [⟨conn, call, .ok result⟩]) after

theorem run_serial (run : Run program start system) :
    Exclusive program system ∧ Serial program start system.log system.disk := by
  induction run with
  | start => exact ⟨by rintro _ _ _ _ ⟨⟩, .nil⟩
  | step run action done ih =>
      obtain ⟨exclusive, effect⟩ := step_effect ih.1 done
      refine ⟨exclusive, ?_⟩
      cases effect with
      | silent disk log =>
          rw [disk, log]
          exact ih.2
      | failed conn call error disk log cause =>
          rw [disk, log]
          exact ih.2.failed conn call error
      | committed conn call result completes log =>
          rw [log]
          exact ih.2.committed conn completes

end Serialization
end SailwindOnline.ImmediateTransactions
