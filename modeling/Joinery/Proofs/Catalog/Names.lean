import Joinery.Catalog.Template
import Joinery.Proofs.Outcome
import Joinery.Proofs.Text.Runs

/-!
Lists of names as they are read: trimmed, without blanks and without repetition. Such a list reads as
itself.
-/
namespace Joinery
open Text

theorem eraseDups_again (xs : List String) : xs.eraseDups.eraseDups = xs.eraseDups := by
  induction length : xs.length using Nat.strongRecOn generalizing xs with
  | _ n ih =>
    cases xs with
    | nil => rfl
    | cons a rest =>
      generalize others : (rest.filter fun b => !b == a) = kept
      have short : kept.length < n := by
        have := List.length_filter_le (fun b => !b == a) rest
        rw [others] at this
        simp only [List.length_cons] at length
        omega
      have apart : kept.eraseDups.filter (fun b => !b == a) = kept.eraseDups := by
        apply List.filter_eq_self.mpr
        intro b member
        rw [List.mem_eraseDups, ← others] at member
        exact (List.mem_filter.mp member).2
      rw [List.eraseDups_cons, others, List.eraseDups_cons, apart, ih kept.length short kept rfl]

theorem nodup_eraseDups (xs : List String) : xs.eraseDups.Nodup := by
  induction length : xs.length using Nat.strongRecOn generalizing xs with
  | _ n ih =>
    cases xs with
    | nil => exact List.nodup_nil
    | cons a rest =>
      have short : (rest.filter fun b => !b == a).length < n := by
        have := List.length_filter_le (fun b => !b == a) rest
        simp only [List.length_cons] at length
        omega
      rw [List.eraseDups_cons, List.nodup_cons]
      refine ⟨?_, ih _ short _ rfl⟩
      rw [List.mem_eraseDups, List.mem_filter]
      simp

section
variable {items : List Datum} {names : List String} (read : distinctNames items = .ok names)
include read

theorem nodup_distinctNames : names.Nodup := by
  obtain ⟨texts, -, rfl⟩ := map_ok.mp read
  exact nodup_eraseDups _

theorem mem_distinctNames {s : String} (member : s ∈ names) : trim s = s ∧ s ≠ "" := by
  obtain ⟨texts, -, rfl⟩ := map_ok.mp read
  obtain ⟨mapped, some⟩ := List.mem_filter.mp (List.mem_eraseDups.mp member)
  obtain ⟨d, -, rfl⟩ := List.mem_map.mp mapped
  exact ⟨trim_trim _, by simpa using some⟩

theorem distinctNames_again : distinctNames (names.map Datum.text) = .ok names := by
  have trimmed : names.map trim = names :=
    (List.map_congr_left fun s member => (mem_distinctNames read member).1).trans (List.map_id _)
  have kept : names.filter (· != "") = names := by
    apply List.filter_eq_self.mpr
    intro s member
    simpa using (mem_distinctNames read member).2
  have once : names.eraseDups = names := by
    obtain ⟨texts, -, rfl⟩ := map_ok.mp read
    exact eraseDups_again _
  have texts : (names.map Datum.text).mapM Datum.asText = .ok names := mapM_map_ok fun _ _ => rfl
  rw [distinctNames, texts, Except.map, trimmed, kept, once]

end

end Joinery
