import Mathlib.Data.List.Basic

/-!
Finite runs of a deterministic machine that answers every input. A run is its
final state and the list of its answers. The rules below turn facts about one
step into facts about every run; nothing here names a particular machine.
-/

namespace SailwindOnline.Runs

section OneMachine
variable {State Input Output : Type}

def final (step : State → Input → Output × State) : State → List Input → State
  | state, [] => state
  | state, input :: rest => final step (step state input).2 rest

def outputs (step : State → Input → Output × State) : State → List Input → List Output
  | _, [] => []
  | state, input :: rest => (step state input).1 :: outputs step (step state input).2 rest

variable (step : State → Input → Output × State)

@[simp] theorem final_nil (state : State) : final step state [] = state := rfl

theorem final_append (state : State) (before after : List Input) :
    final step state (before ++ after) = final step (final step state before) after := by
  induction before generalizing state with
  | nil => rfl
  | cons input rest ih => exact ih (step state input).2

theorem final_snoc (state : State) (before : List Input) (input : Input) :
    final step state (before ++ [input]) = (step (final step state before) input).2 := by
  rw [final_append]
  rfl

/-- One step preserving an invariant on admitted inputs lifts to every run. -/
theorem invariant_final (Inv : State → Prop) (Admitted : Input → Prop)
    (preserved : ∀ state input, Admitted input → Inv state → Inv (step state input).2)
    (inputs : List Input) (admitted : ∀ input ∈ inputs, Admitted input)
    (state : State) (holds : Inv state) : Inv (final step state inputs) := by
  induction inputs generalizing state with
  | nil => exact holds
  | cons input rest ih =>
      have head := preserved state input (admitted input List.mem_cons_self) holds
      exact ih (fun later member => admitted later (List.mem_cons_of_mem input member)) _ head

theorem invariant_always (Inv : State → Prop)
    (preserved : ∀ state input, Inv state → Inv (step state input).2)
    (inputs : List Input) (state : State) (holds : Inv state) : Inv (final step state inputs) :=
  invariant_final step Inv (fun _ => True) (fun s i _ => preserved s i) inputs
    (fun _ _ => trivial) state holds

end OneMachine

section TwoMachines
variable {Left Right Input Output : Type}
variable (left : Left → Input → Output × Left) (right : Right → Input → Output × Right)

theorem related_final (Rel : Left → Right → Prop) (Admitted : Input → Prop)
    (preserved : ∀ a b input, Admitted input → Rel a b → Rel (left a input).2 (right b input).2)
    (inputs : List Input) (admitted : ∀ input ∈ inputs, Admitted input)
    (a : Left) (b : Right) (related : Rel a b) :
    Rel (final left a inputs) (final right b inputs) := by
  induction inputs generalizing a b with
  | nil => exact related
  | cons input rest ih =>
      have head := preserved a b input (admitted input List.mem_cons_self) related
      exact ih (fun later member => admitted later (List.mem_cons_of_mem input member)) _ _ head

/-- Answer lists agree exactly when the two machines agree at every position. -/
theorem outputs_eq_iff (inputs : List Input) (a : Left) (b : Right) :
    outputs left a inputs = outputs right b inputs ↔
      ∀ before input after, inputs = before ++ input :: after →
        (left (final left a before) input).1 = (right (final right b before) input).1 := by
  induction inputs generalizing a b with
  | nil => simp [outputs]
  | cons head rest ih =>
      constructor
      · intro same before input after split
        have parts := List.cons.inj same
        cases before with
        | nil =>
            obtain ⟨rfl, rfl⟩ := List.cons.inj split
            exact parts.1
        | cons first tail =>
            obtain ⟨rfl, remainder⟩ := List.cons.inj split
            exact (ih _ _).mp parts.2 tail input after remainder
      · intro everywhere
        have first := everywhere [] head rest rfl
        have later : outputs left (left a head).2 rest = outputs right (right b head).2 rest := by
          apply (ih _ _).mpr
          intro before input after split
          exact everywhere (head :: before) input after (by rw [split]; rfl)
        exact List.cons_eq_cons.mpr ⟨first, later⟩

end TwoMachines
end SailwindOnline.Runs
