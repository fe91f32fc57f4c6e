import Mathlib.Data.List.Count
import Mathlib.Data.List.Induction

/-!
`SailwindApi.Ready` and the poller that signals it. Any number of threads
subscribe and unsubscribe while the game loop polls; what one thread does under
the gate, and each call of a handler, is one move, and the moves come in any
order. A handler is a single delegate, compared as delegates are.
-/

namespace SailwindOnline.ReadySignal

/-- `owed` holds the handlers whose subscribers found the API ready and have not called them yet, `calling` what is
left of the invocation list of `SignalReady` and its first failure, `called` every handler called so far. -/
structure Api (Handler Failure : Type) where
  ready : List Handler := []
  isReady : Bool := false
  signaled : Bool := false
  signaling : Bool := false
  calling : Option (List Handler × Option Failure) := none
  owed : List Handler := []
  called : List Handler := []
deriving DecidableEq, Repr

/-- A poll reads no marker when there is none to read or reading it throws. -/
inductive Move (Handler Failure : Type) where
  | subscribe (value : Option Handler)
  | unsubscribe (value : Option Handler)
  | poll (marker : Option Bool)
  | enterSignal
  | call (failure : Option Failure)
  | leaveSignal
  | fire (handler : Handler)
deriving DecidableEq, Repr

section Moves
variable {Handler Failure : Type} [DecidableEq Handler]

/-- Removing a delegate takes its last occurrence off the invocation list. -/
def removeLast (handlers : List Handler) (handler : Handler) : List Handler := (handlers.reverse.erase handler).reverse

def without (handlers : List Handler) : Option Handler → List Handler
  | none => handlers
  | some handler => removeLast handlers handler

namespace Api

-- `none` where the move cannot be made: the game loop is one thread, and a call needs a handler to be called.
def step (api : Api Handler Failure) : Move Handler Failure → Option (Api Handler Failure)
  | .subscribe value =>
    some
      { api with
        ready := api.ready ++ value.toList
        owed := if api.isReady then api.owed ++ value.toList else api.owed }
  | .unsubscribe value => some { api with ready := without api.ready value }
  | .poll marker =>
    if api.signaling || api.calling.isSome then none
    else if api.signaled then some api
    else if marker = some true then some { api with signaled := true, signaling := true }
    else some api
  | .enterSignal =>
    if !api.signaling then none
    else if api.isReady then some { api with signaling := false }
    else some { api with signaling := false, isReady := true, calling := some (api.ready, none) }
  | .call failure =>
    match api.calling with
    | some (handler :: rest, firstFailure) =>
      some { api with calling := some (rest, firstFailure.or failure), called := api.called ++ [handler] }
    | _ => none
  | .leaveSignal =>
    match api.calling with
    | some ([], _) => some { api with calling := none }
    | _ => none
  | .fire handler =>
    if handler ∈ api.owed then
      some { api with owed := api.owed.erase handler, called := api.called ++ [handler] }
    else none

def run (api : Api Handler Failure) : List (Move Handler Failure) → Option (Api Handler Failure)
  | [] => some api
  | move :: rest => (api.step move).bind (run · rest)

/-- The calls still to come. -/
def outstanding (api : Api Handler Failure) : List Handler := (api.calling.map Prod.fst).getD [] ++ api.owed

end Api

/-- The subscriptions that a stretch of moves leaves standing. -/
def standing (moves : List (Move Handler Failure)) : List Handler :=
  moves.foldl (fun handlers move =>
    match move with
    | .subscribe value => handlers ++ value.toList
    | .unsubscribe value => without handlers value
    | _ => handlers) []

def subscriptions (moves : List (Move Handler Failure)) : List Handler :=
  moves.flatMap fun move =>
    match move with
    | .subscribe value => value.toList
    | _ => []

/-! What a run leaves. -/

namespace Api

theorem run_append (api : Api Handler Failure) (early late : List (Move Handler Failure)) :
    api.run (early ++ late) = (api.run early).bind (run · late) := by
  induction early generalizing api with
  | nil => rfl
  | cons move rest ih =>
      simp only [List.cons_append, run]
      cases api.step move with
      | none => rfl
      | some next => exact ih next

theorem run_snoc (api : Api Handler Failure) (moves : List (Move Handler Failure)) (move : Move Handler Failure) :
    api.run (moves ++ [move]) = (api.run moves).bind (step · move) := by
  rw [run_append]
  congr 1
  funext next
  simp [run]

end Api

theorem standing_snoc (moves : List (Move Handler Failure)) (move : Move Handler Failure) :
    standing (moves ++ [move]) =
      match move with
      | .subscribe value => standing moves ++ value.toList
      | .unsubscribe value => without (standing moves) value
      | _ => standing moves := by
  rw [standing, List.foldl_append, ← standing]
  rfl

omit [DecidableEq Handler] in
theorem subscriptions_snoc (moves : List (Move Handler Failure)) (move : Move Handler Failure) :
    subscriptions (moves ++ [move]) = subscriptions moves ++ subscriptions [move] := by
  simp [subscriptions]

/-- Before the signal nobody was called. Since then each subscription that stood at the signal, and each one made
later, has been called or is still to be called. -/
inductive Phase : List (Move Handler Failure) → Api Handler Failure → Prop
  | waiting {moves : List (Move Handler Failure)} {api : Api Handler Failure} (unsignaled : .enterSignal ∉ moves)
      (ready : api.ready = standing moves) (unready : api.isReady = false) (idle : api.calling = none)
      (unowed : api.owed = []) (uncalled : api.called = []) (armed : api.signaling = api.signaled)
      (cause : api.signaled = true → .poll (some true) ∈ moves) : Phase moves api
  | opened {early late : List (Move Handler Failure)} {api : Api Handler Failure} (first : .enterSignal ∉ early)
      (only : .enterSignal ∉ late) (cause : .poll (some true) ∈ early) (ready : api.isReady = true)
      (signaled : api.signaled = true) (entered : api.signaling = false)
      (counts : ∀ handler, api.called.count handler + api.outstanding.count handler =
        (standing early).count handler + (subscriptions late).count handler) :
      Phase (early ++ .enterSignal :: late) api

namespace Phase
variable {moves early late : List (Move Handler Failure)} {api next : Api Handler Failure}

/-- Moves after the signal pass calls on: what is called is taken off what is outstanding. -/
theorem later {move : Move Handler Failure} (first : .enterSignal ∉ early) (only : .enterSignal ∉ late)
    (cause : .poll (some true) ∈ early) (other : move ≠ .enterSignal) (ready : next.isReady = true)
    (signaled : next.signaled = true) (entered : next.signaling = false)
    (counts : ∀ handler, api.called.count handler + api.outstanding.count handler =
      (standing early).count handler + (subscriptions late).count handler)
    (passed : ∀ handler, next.called.count handler + next.outstanding.count handler =
      api.called.count handler + api.outstanding.count handler + (subscriptions [move]).count handler) :
    Phase (early ++ .enterSignal :: late ++ [move]) next := by
  have shape : early ++ .enterSignal :: late ++ [move] = early ++ .enterSignal :: (late ++ [move]) := by simp
  rw [shape]
  refine .opened first ?_ cause ready signaled entered ?_
  · intro member
    rcases List.mem_append.mp member with old | new
    · exact only old
    · exact other (List.mem_singleton.mp new).symm
  · intro handler
    rw [subscriptions_snoc, List.count_append, passed, counts, Nat.add_assoc]

theorem step {move : Move Handler Failure} (phase : Phase moves api) (stepped : api.step move = some next) :
    Phase (moves ++ [move]) next := by
  cases phase with
  | waiting unsignaled ready unready idle unowed uncalled armed cause =>
      have quiet : move ≠ .enterSignal → .enterSignal ∉ moves ++ [move] := by
        intro other member
        rcases List.mem_append.mp member with old | new
        · exact unsignaled old
        · exact other (List.mem_singleton.mp new).symm
      have still : next.ready = standing (moves ++ [move]) → next.isReady = false → next.calling = none →
          next.owed = [] → next.called = [] → move ≠ .enterSignal → next.signaling = next.signaled →
          (next.signaled = true → .poll (some true) ∈ moves ++ [move]) → Phase (moves ++ [move]) next :=
        fun ready unready idle unowed uncalled other armed cause =>
          .waiting (quiet other) ready unready idle unowed uncalled armed cause
      have before : api.signaled = true → .poll (some true) ∈ moves ++ [move] := fun signaled =>
        List.mem_append_left _ (cause signaled)
      cases move with
      | subscribe value =>
          cases stepped
          exact still (by rw [standing_snoc, ready]) unready idle (by simp [unready, unowed]) uncalled (by simp) armed before
      | unsubscribe value =>
          cases stepped
          exact still (by rw [standing_snoc, ready]) unready idle unowed uncalled (by simp) armed before
      | poll marker =>
          simp only [Api.step] at stepped
          split at stepped
          · cases stepped
          · split at stepped
            · cases stepped
              exact still (by rw [standing_snoc, ready]) unready idle unowed uncalled (by simp) armed before
            · split at stepped <;> rename_i seen
              · cases stepped
                subst seen
                refine still (by rw [standing_snoc, ready]) unready idle unowed uncalled (by simp) rfl ?_
                exact fun _ => List.mem_append_right _ List.mem_cons_self
              · cases stepped
                exact still (by rw [standing_snoc, ready]) unready idle unowed uncalled (by simp) armed before
      | enterSignal =>
          simp only [Api.step] at stepped
          split at stepped <;> rename_i entering
          · cases stepped
          · rw [if_neg (by simp [unready])] at stepped
            cases stepped
            have signaled : api.signaled = true := by
              rw [← armed]
              simpa using entering
            refine .opened unsignaled (by simp) (cause signaled) rfl signaled rfl ?_
            intro handler
            simp [Api.outstanding, uncalled, unowed, ready, subscriptions]
      | call failure =>
          simp only [Api.step, idle] at stepped
          cases stepped
      | leaveSignal =>
          simp only [Api.step, idle] at stepped
          cases stepped
      | fire handler =>
          simp only [Api.step, unowed] at stepped
          rw [if_neg (by simp)] at stepped
          cases stepped
  | opened first only cause ready signaled entered counts =>
      cases move with
      | subscribe value =>
          cases stepped
          refine later first only cause (by simp) ready signaled entered counts ?_
          intro handler
          simp only [Api.outstanding, ready, if_true, subscriptions, List.flatMap_cons, List.flatMap_nil, List.append_nil,
            List.count_append]
          omega
      | unsubscribe value =>
          cases stepped
          refine later first only cause (by simp) ready signaled entered counts ?_
          intro handler
          simp [Api.outstanding, subscriptions]
      | poll marker =>
          simp only [Api.step, signaled, if_true] at stepped
          split at stepped
          · cases stepped
          · cases stepped
            refine later first only cause (by simp) ready signaled entered counts ?_
            intro handler
            simp [subscriptions]
      | enterSignal =>
          simp only [Api.step, entered, Bool.not_false, if_true] at stepped
          cases stepped
      | call failure =>
          simp only [Api.step] at stepped
          split at stepped
          · rename_i handler rest firstFailure calling
            cases stepped
            refine later first only cause (by simp) ready signaled entered counts ?_
            intro other
            simp only [Api.outstanding, calling, Option.map_some, Option.getD_some, List.count_append,
              List.cons_append, List.count_cons, List.count_nil, subscriptions, List.flatMap_cons, List.flatMap_nil,
              List.append_nil]
            omega
          · cases stepped
      | leaveSignal =>
          simp only [Api.step] at stepped
          split at stepped
          · rename_i firstFailure calling
            cases stepped
            refine later first only cause (by simp) ready signaled entered counts ?_
            intro other
            simp [Api.outstanding, calling, subscriptions]
          · cases stepped
      | fire handler =>
          simp only [Api.step] at stepped
          split at stepped <;> rename_i listed
          · cases stepped
            refine later first only cause (by simp) ready signaled entered counts ?_
            intro other
            have held := List.count_pos_iff.mpr listed
            simp only [Api.outstanding, List.count_append, List.count_cons, List.count_nil, subscriptions,
              List.flatMap_cons, List.flatMap_nil, List.count_erase]
            by_cases own : handler = other
            · subst own
              simp only [beq_self_eq_true, if_true]
              omega
            · simp [own]
          · cases stepped

end Phase

theorem run_phase {moves : List (Move Handler Failure)} {api : Api Handler Failure}
    (ran : ({} : Api Handler Failure).run moves = some api) : Phase moves api := by
  induction moves using List.reverseRecOn generalizing api with
  | nil =>
      cases ran
      exact .waiting (by simp) rfl rfl rfl rfl rfl rfl (by simp)
  | append_singleton moves move ih =>
      rw [Api.run_snoc] at ran
      obtain ⟨before, reached, stepped⟩ := Option.bind_eq_some_iff.mp ran
      exact (ih reached).step stepped

/-! What is left to do can be done, whatever the handlers throw. -/

/-- The moves that make the outstanding calls; `failure` is what each handler throws. -/
def settling (failure : Handler → Option Failure) (api : Api Handler Failure) : List (Move Handler Failure) :=
  (match api.calling with
    | none => []
    | some (handlers, _) => handlers.map (fun handler => .call (failure handler)) ++ [.leaveSignal]) ++
    api.owed.map .fire

theorem calls_run (failure : Handler → Option Failure) (handlers : List Handler) (api : Api Handler Failure)
    {firstFailure : Option Failure} (calling : api.calling = some (handlers, firstFailure)) :
    api.run (handlers.map (fun handler => .call (failure handler)) ++ [.leaveSignal]) =
      some { api with calling := none, called := api.called ++ handlers } := by
  induction handlers generalizing api firstFailure with
  | nil => simp [Api.run, Api.step, calling]
  | cons handler rest ih =>
      simp only [List.map_cons, List.cons_append, Api.run, Api.step, calling, Option.bind_some]
      rw [ih _ rfl]
      simp

theorem fires_run (owed : List Handler) (api : Api Handler Failure) (owing : api.owed = owed) :
    api.run (owed.map .fire) = some { api with owed := [], called := api.called ++ owed } := by
  induction owed generalizing api with
  | nil =>
      simp only [List.map_nil, Api.run, List.append_nil]
      rw [← owing]
  | cons handler rest ih =>
      have listed : handler ∈ api.owed := by simp [owing]
      simp only [List.map_cons, Api.run, Api.step, if_pos listed, Option.bind_some]
      rw [ih _ (by simp [owing])]
      simp

/-- A throwing handler keeps none of the others from being called. -/
theorem settles (failure : Handler → Option Failure) (api : Api Handler Failure) :
    ∃ done, api.run (settling failure api) = some done ∧ done.outstanding = [] := by
  unfold settling
  cases calling : api.calling with
  | none =>
      refine ⟨_, fires_run api.owed api rfl, ?_⟩
      simp [Api.outstanding, calling]
  | some left =>
      rcases left with ⟨handlers, firstFailure⟩
      have called := calls_run failure handlers api calling
      simp only [Api.run_append, called, Option.bind_some]
      exact ⟨_, fires_run api.owed _ rfl, by simp [Api.outstanding]⟩

/-- In every order of the moves: nobody is called before a poll has read the marker; the signal is given once; each
subscription that stands then, and each one made later, is called once, or is still to be called; and what is still
to be called can be, whatever the handlers throw. -/
theorem ready_once {moves : List (Move Handler Failure)} {api : Api Handler Failure}
    (ran : ({} : Api Handler Failure).run moves = some api) :
    (.enterSignal ∉ moves → api.called = []) ∧
    (.enterSignal ∈ moves → ∃ early late, moves = early ++ .enterSignal :: late ∧ .enterSignal ∉ early ++ late ∧
      .poll (some true) ∈ early ∧ ∀ handler, api.called.count handler + api.outstanding.count handler =
        (standing early).count handler + (subscriptions late).count handler) ∧
    ∀ failure : Handler → Option Failure, ∃ done, api.run (settling failure api) = some done ∧ done.outstanding = [] := by
  have phase := run_phase ran
  refine ⟨?_, ?_, fun failure => settles failure api⟩
  · intro unsignaled
    cases phase with
    | waiting _ ready unready idle unowed uncalled => exact uncalled
    | opened first only cause ready signaled entered counts => exact absurd (by simp) unsignaled
  · intro signaled
    cases phase with
    | waiting unsignaled => exact absurd signaled unsignaled
    | @opened early late _ first only cause ready _ entered counts =>
        refine ⟨early, late, rfl, ?_, cause, counts⟩
        intro member
        exact (List.mem_append.mp member).elim first only

end Moves

/-! Two subscribers before the signal, one withdrawn, and one after it. -/

def morning : List (Move String String) :=
  [.subscribe (some "net"), .subscribe (some "chart"), .poll none, .unsubscribe (some "chart"), .poll (some true),
    .enterSignal, .subscribe (some "chart"), .call (some "broken"), .fire "chart", .leaveSignal]

theorem ready_once_morning : ∃ api, ({} : Api String String).run morning = some api ∧ api.called = ["net", "chart"] ∧
    ∀ failure : String → Option String, ∃ done, api.run (settling failure api) = some done ∧ done.outstanding = [] := by
  have ran : (({} : Api String String).run morning).map Api.called = some ["net", "chart"] := by decide +kernel
  obtain ⟨api, reached, called⟩ := Option.map_eq_some_iff.mp ran
  exact ⟨api, reached, called, (ready_once reached).2.2⟩

end SailwindOnline.ReadySignal
