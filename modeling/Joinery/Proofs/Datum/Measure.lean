import Joinery.Datum.Measure
import Joinery.Proofs.Number.Units
import Joinery.Proofs.Outcome

/-!
Measures and counts read again. What was read as a measure or as a count reads as itself, in
whatever field.
-/
namespace Joinery.Datum
open Number

theorem finite_of_read {d : Datum} {x : Float} (read : d.finite? = .ok (some x)) :
    x.isFinite = true := by
  cases d with
  | number n =>
    obtain ⟨y, -, same⟩ := map_ok.mp read
    split at same
    · cases same
      assumption
    · cases same
  | text s => exact (Option.filter_eq_some_iff.mp (Except.ok.inj read)).2
  | null => cases read
  | bool b => cases read
  | list items => cases read
  | object fields => cases read

theorem finite?_real {x : Float} (finite : x.isFinite = true) :
    (Datum.real x).finite? = .ok (some x) := by
  change Except.ok (if x.isFinite then some x else none) = _
  rw [if_pos finite]

theorem measure_of_nonNegative {d : Datum} {field : String} {x : Float}
    (read : d.nonNegative field = .ok x) : x.isFinite = true ∧ ¬ x < 0 := by
  obtain ⟨found, finite, rest⟩ := bind_ok.mp read
  cases found with
  | none => cases rest
  | some y =>
    simp only at rest
    split at rest
    · cases rest
    · obtain rfl := Except.ok.inj rest
      exact ⟨finite_of_read finite, by assumption⟩

theorem nonNegative_again {d : Datum} {field : String} {x : Float}
    (read : d.nonNegative field = .ok x) (other : String) :
    (Datum.real x).nonNegative other = .ok x := by
  obtain ⟨finite, above⟩ := measure_of_nonNegative read
  rw [nonNegative, finite?_real finite]
  simp [Except.bind, above]

theorem count_again {d : Datum} {least n : Nat} {field : String} (read : d.count least field = .ok n)
    (other : String) : (Datum.nat n).count least other = .ok n := by
  obtain ⟨z, whole, rfl⟩ := map_ok.mp read
  obtain ⟨found, finite, rest⟩ := bind_ok.mp whole
  cases found with
  | none => cases rest
  | some x =>
    simp only at rest
    split at rest
    · rename_i holds
      obtain rfl := Except.ok.inj rest
      simp only [Bool.and_eq_true, isWhole, beq_iff_eq, decide_eq_true_eq] at holds
      obtain ⟨⟨isFinite, divides⟩, bound⟩ := holds
      have value : wholePart x * 2 ^ (0 + 1074 : Int).toNat = units x :=
        Int.ediv_mul_cancel (Int.dvd_of_emod_eq_zero divides)
      obtain ⟨again, same⟩ := nearest_exact isFinite (e := 0) (by decide) value
      have natural : ((wholePart x).toNat : Int) = wholePart x := by omega
      have double : (Datum.nat (wholePart x).toNat).finite? = .ok (some (nearest (wholePart x) 0)) := by
        simp only [finite?, nat, Numeral.toFloat, ofInt?, natural, if_pos again, Except.map]
      have wholeAgain : isWhole (nearest (wholePart x) 0) = true := by
        simp only [isWhole, again, same, divides, Bool.and_self, beq_self_eq_true]
      have partAgain : wholePart (nearest (wholePart x) 0) = wholePart x := by
        rw [wholePart, same, ← wholePart]
      simp only [count, wholeAtLeast, double, Except.bind, wholeAgain, partAgain]
      simp [bound, Except.map]
    · cases rest

end Joinery.Datum
