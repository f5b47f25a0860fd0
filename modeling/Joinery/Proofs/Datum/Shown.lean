import Joinery.Choice
import Joinery.Proofs.Outcome

/-!
What showing a value can fail at: a whole number of too many digits, which is a wrong value, or a part
that lies too deep.
-/
namespace Joinery
namespace Datum

def TooDeep (d : Datum) : Prop := d.deeperThan mostShown = true

theorem deeperThan_of_succ {levels : Nat} {d : Datum} (deep : d.deeperThan (levels + 1) = true) :
    d.deeperThan levels = true := by
  induction levels generalizing d with
  | zero => rfl
  | succ levels ih =>
    cases d with
    | list items =>
      obtain ⟨d, member, inner⟩ := List.any_eq_true.mp deep
      exact List.any_eq_true.mpr ⟨d, member, ih inner⟩
    | object fields =>
      obtain ⟨field, member, inner⟩ := List.any_eq_true.mp deep
      exact List.any_eq_true.mpr ⟨field, member, ih inner⟩
    | null | bool _ | number _ | text _ => cases deep

theorem deeperThan_of_le {levels most : Nat} {d : Datum} (fewer : levels ≤ most)
    (deep : d.deeperThan most = true) : d.deeperThan levels = true := by
  induction fewer with
  | refl => exact deep
  | step _ ih => exact ih (deeperThan_of_succ deep)

theorem unshownWithin_cases {levels : Nat} {d : Datum} {f : Fault}
    (fails : d.unshownWithin levels = some f) :
    f = .tooLongToShow ∨ f = .nestedTooDeep ∧ d.deeperThan levels = true := by
  induction levels generalizing d with
  | zero => exact Or.inr ⟨(Option.some.inj fails).symm, rfl⟩
  | succ levels ih =>
    cases d with
    | number n =>
      cases n with
      | whole n =>
        simp only [unshownWithin] at fails
        split at fails
        · cases fails
        · exact Or.inl (Option.some.inj fails).symm
      | real x => cases fails
    | list items =>
      obtain ⟨d, member, inner⟩ := List.exists_of_findSome?_eq_some fails
      refine (ih inner).imp_right fun ⟨deep, part⟩ => ⟨deep, ?_⟩
      exact List.any_eq_true.mpr ⟨d, member, part⟩
    | object fields =>
      obtain ⟨field, member, inner⟩ := List.exists_of_findSome?_eq_some fails
      refine (ih inner).imp_right fun ⟨deep, part⟩ => ⟨deep, ?_⟩
      exact List.any_eq_true.mpr ⟨field, member, part⟩
    | null | bool _ | text _ => cases fails

theorem not_tooDeep_number (n : Numeral) : ¬ (number n).TooDeep := by simp [TooDeep, mostShown, deeperThan]

theorem not_tooDeep_text (s : String) : ¬ (text s).TooDeep := by simp [TooDeep, mostShown, deeperThan]

theorem not_tooDeep_null : ¬ null.TooDeep := by simp [TooDeep, mostShown, deeperThan]

theorem asText_error {d : Datum} {f : Fault} (fails : d.asText = .error f) :
    f = .tooLongToShow ∨ f = .nestedTooDeep ∧ d.TooDeep := by
  unfold asText at fails
  split at fails
  · cases fails
  · split at fails
    · cases fails
    · rename_i g found
      obtain rfl := Except.error.inj fails
      exact unshownWithin_cases found

theorem givenText_error {d : Datum} {f : Fault} (fails : d.givenText = .error f) :
    f = .tooLongToShow ∨ f = .nestedTooDeep ∧ d.TooDeep := by
  unfold givenText at fails
  split at fails
  · exact asText_error fails
  · cases fails

/-- A value whose text can be taken where one is asked for. -/
def HasText (d : Datum) : Prop := ∃ s, d.givenText = .ok s

theorem hasText_text (s : String) : (text s).HasText := by
  by_cases blank : s = ""
  · exact ⟨"", by simp [givenText, isGiven, blank]⟩
  · exact ⟨s, by simp [givenText, isGiven, blank, asText]⟩

theorem hasText_of_not_given {d : Datum} (nothing : d.isGiven = false) : d.HasText :=
  ⟨"", by simp [givenText, nothing]⟩

theorem hasText_null : null.HasText := hasText_of_not_given rfl

end Datum

theorem Fault.raised_cases (f : Fault) :
    f.raised = f ∨ f.raised = .tooLongToShow ∨
      f.raised = .nestedTooDeep ∧ ∃ d ∈ f.shownValues, d.TooDeep := by
  cases unshown : f.shownValues.findSome? Datum.unshown? with
  | none => exact Or.inl (by rw [raised, unshown]; rfl)
  | some g =>
    obtain ⟨d, member, fails⟩ := List.exists_of_findSome?_eq_some unshown
    have same : f.raised = g := by rw [raised, unshown]; rfl
    rw [same]
    exact Or.inr ((Datum.unshownWithin_cases fails).imp_right fun ⟨deep, part⟩ =>
      ⟨deep, d, member, part⟩)

end Joinery
