import Mathlib.Data.List.Basic

/-!
Codes that say where they end. What follows such a code can be anything, and the
coded value can still be told from the front, up to what the code lets be seen
of it.
-/

namespace SailwindOnline.SelfDelimiting

variable {α β σ τ : Type} {code : α → List σ} {view : α → τ}

/-- A text that starts with a code starts with only one, as far as `view` sees, and goes on in one way. -/
def Delimited (code : α → List σ) (view : α → τ) : Prop :=
  ∀ left right rest tail, code left ++ rest = code right ++ tail → view left = view right ∧ rest = tail

theorem delimited_of_separate (separate : ∀ left right, code left <+: code right → left = right) :
    Delimited code id := by
  intro left right rest tail same
  have equal : left = right := by
    rcases List.append_eq_append_iff.mp same with ⟨gap, longer, -⟩ | ⟨gap, longer, -⟩
    · exact separate left right ⟨gap, longer.symm⟩
    · exact (separate right left ⟨gap, longer.symm⟩).symm
  subst equal
  exact ⟨rfl, List.append_cancel_left same⟩

theorem Delimited.terminated (delimited : Delimited code view) {stop : σ}
    (apart : ∀ value rest tail, code value ++ rest ≠ stop :: tail) :
    Delimited (fun values : List α => values.flatMap code ++ [stop]) (List.map view) := by
  intro left
  induction left with
  | nil =>
      intro right rest tail same
      cases right with
      | nil => exact ⟨rfl, List.append_cancel_left same⟩
      | cons value more =>
          simp only [List.flatMap_cons, List.append_assoc] at same
          exact absurd same.symm (apart value _ _)
  | cons value more ih =>
      intro right rest tail same
      cases right with
      | nil =>
          simp only [List.flatMap_cons, List.append_assoc] at same
          exact absurd same (apart value _ _)
      | cons other others =>
          simp only [List.flatMap_cons, List.append_assoc] at same
          obtain ⟨first, same⟩ := delimited value other _ _ same
          simp only [← List.append_assoc] at same
          obtain ⟨later, same⟩ := ih others rest tail same
          exact ⟨congrArg₂ List.cons first later, same⟩

/-- Each code is followed by `between`, the last one by `final`. -/
def separated (code : α → List σ) (between final : List σ) : List α → List σ
  | [] => []
  | value :: rest => code value ++ (if rest.isEmpty then final else between) ++ separated code between final rest

theorem Delimited.separated (delimited : Delimited code view) {between final : List σ}
    (apart : ∀ rest tail, between ++ rest ≠ final ++ tail) {left right : List α} {rest tail : List σ}
    (some : left ≠ []) (others : right ≠ [])
    (same : separated code between final left ++ rest = separated code between final right ++ tail) :
    left.map view = right.map view ∧ rest = tail := by
  induction left generalizing right with
  | nil => exact absurd rfl some
  | cons value more ih =>
      cases right with
      | nil => exact absurd rfl others
      | cons other further =>
          simp only [SelfDelimiting.separated, List.append_assoc] at same
          obtain ⟨first, same⟩ := delimited value other _ _ same
          cases more with
          | nil =>
              cases further with
              | nil =>
                  simp only [List.isEmpty_nil, if_true, SelfDelimiting.separated, List.nil_append] at same
                  exact ⟨congrArg (fun head => [head]) first, List.append_cancel_left same⟩
              | cons next final => exact absurd same.symm (apart _ _)
          | cons following final =>
              cases further with
              | nil => exact absurd same (apart _ _)
              | cons next last =>
                  -- Both go on after the separator.
                  have later := List.append_cancel_left same
                  obtain ⟨mapped, ended⟩ := ih (List.cons_ne_nil _ _) (List.cons_ne_nil _ _) later
                  exact ⟨congrArg₂ List.cons first mapped, ended⟩

end SailwindOnline.SelfDelimiting
