import Joinery.Identity
import Joinery.Proofs.Catalog.Names
import Mathlib

/-!
Fresh names. Numerals tell numbers apart, so that a name that is taken is the name of one number only.
A search that counts on from a number while its name is taken therefore ends after no more increments
than there are names taken, and a fresh name is the one that it ends at.
-/
namespace Joinery

theorem numbered_injective (stem : String) : Function.Injective (numbered stem) := by
  intro m n same
  have numerals : toString m = toString n := String.append_right_inj (stem ++ "-") |>.mp same
  exact Nat.repr_injective numerals

def candidates (stem : String) (taken : List String) : List String :=
  let count := taken.eraseDups.length
  (List.range' (count + 1) (count + 1)).map (numbered stem)

theorem candidates_nodup (stem : String) (taken : List String) : (candidates stem taken).Nodup :=
  (List.nodup_range' 1).map (numbered_injective stem)

/-- There is one candidate more than there are names taken, so that they cannot all be taken. -/
theorem exists_free_candidate (stem : String) (taken : List String) :
    ∃ id ∈ candidates stem taken, id ∉ taken := by
  by_contra none
  push Not at none
  have among := List.subperm_of_subset (candidates_nodup stem taken) fun id candidate =>
    List.mem_eraseDups.mpr (none id candidate)
  have few := among.length_le
  rw [candidates, List.length_map, List.length_range'] at few
  omega

theorem freshId_number (stem : String) (taken : List String) :
    ∃ n ≤ taken.eraseDups.length,
      freshId stem taken = numbered stem (taken.eraseDups.length + 1 + n) ∧
      numbered stem (taken.eraseDups.length + 1 + n) ∉ taken ∧
      ∀ i < n, numbered stem (taken.eraseDups.length + 1 + i) ∈ taken := by
  let count := taken.eraseDups.length
  let free : Nat → Bool := fun k => !taken.contains (numbered stem k)
  obtain ⟨id, candidate, unused⟩ := exists_free_candidate stem taken
  obtain ⟨k, listed, rfl⟩ := List.mem_map.mp candidate
  have some : ((List.range' (count + 1) (count + 1)).find? free).isSome :=
    List.find?_isSome.mpr ⟨k, listed, by simpa [free] using unused⟩
  obtain ⟨m, found⟩ := Option.isSome_iff_exists.mp some
  obtain ⟨first, within, earlier⟩ := List.find?_range'_eq_some.mp found
  obtain ⟨low, high⟩ := List.mem_range'_1.mp within
  have name : freshId stem taken = numbered stem m := by
    have search : freshId stem taken =
        (((List.range' (count + 1) (count + 1)).map (numbered stem)).find?
          fun id => !taken.contains id).getD (numbered stem (2 * count + 1)) := rfl
    rw [search, List.find?_map, show (fun id => !taken.contains id) ∘ numbered stem = free from rfl,
      found]
    rfl
  obtain ⟨n, rfl⟩ := Nat.exists_eq_add_of_le low
  refine ⟨n, by omega, name, by simpa [free] using first, ?_⟩
  intro i less
  simpa [free] using earlier (count + 1 + i) (by omega) (by omega)

theorem freshId_not_mem (stem : String) (taken : List String) : freshId stem taken ∉ taken := by
  obtain ⟨n, -, name, free, -⟩ := freshId_number stem taken
  exact name ▸ free

/-! The search as a loop. -/

/-- From a number a search counts on while the name of the number is taken. It ends after some
increments at a number whose name is free. -/
inductive Search (stem : String) (taken : List String) : Nat → Nat → Nat → Prop where
  | stop {k : Nat} : numbered stem k ∉ taken → Search stem taken k 0 k
  | count {k increments last : Nat} : numbered stem k ∈ taken →
      Search stem taken (k + 1) increments last → Search stem taken k (increments + 1) last

section
variable {stem : String} {taken : List String}

theorem search_of_taken {k n : Nat} (before : ∀ i < n, numbered stem (k + i) ∈ taken)
    (free : numbered stem (k + n) ∉ taken) : Search stem taken k n (k + n) := by
  induction n generalizing k with
  | zero => exact .stop free
  | succ n ih =>
    have next (i : Nat) : k + 1 + i = k + (i + 1) := by omega
    have later : Search stem taken (k + 1) n (k + 1 + n) := by
      refine ih (fun i less => ?_) (by rwa [next])
      rw [next]
      exact before (i + 1) (by omega)
    rw [next] at later
    exact .count (before 0 n.succ_pos) later

/-- A search goes one way only. -/
theorem Search.unique {k n m last other : Nat} (one : Search stem taken k n last)
    (two : Search stem taken k m other) : m = n ∧ other = last := by
  induction one generalizing m with
  | stop free =>
    cases two with
    | stop _ => exact ⟨rfl, rfl⟩
    | count used _ => exact absurd used free
  | count used _ ih =>
    cases two with
    | stop free => exact absurd used free
    | count _ later =>
      obtain ⟨rfl, rfl⟩ := ih later
      exact ⟨rfl, rfl⟩

end

theorem length_eraseDups (taken : List String) : taken.eraseDups.length = taken.toFinset.card := by
  have same : taken.eraseDups.toFinset = taken.toFinset := by
    ext id
    rw [List.mem_toFinset, List.mem_toFinset, List.mem_eraseDups]
  rw [← same, List.toFinset_card_of_nodup (nodup_eraseDups taken)]

/-- The search for a fresh name starts past the number of names taken and ends, after at most as many
increments, at the least number from there on whose name is free. That name is the fresh one. -/
theorem fresh_name_found (stem : String) (taken : List String) :
    ∃ increments last, Search stem taken (taken.toFinset.card + 1) increments last ∧
      (∀ n m, Search stem taken (taken.toFinset.card + 1) n m → n = increments ∧ m = last) ∧
      increments ≤ taken.toFinset.card ∧
      freshId stem taken = numbered stem last ∧ freshId stem taken ∉ taken ∧
      IsLeast {k | taken.toFinset.card < k ∧ numbered stem k ∉ taken} last := by
  obtain ⟨n, few, name, free, before⟩ := freshId_number stem taken
  rw [length_eraseDups] at few name free before
  have search := search_of_taken before free
  refine ⟨n, _, search, fun _ _ other => search.unique other, few, name,
    freshId_not_mem stem taken, ⟨by omega, free⟩, ?_⟩
  rintro k ⟨past, unused⟩
  by_contra less
  have skipped := before (k - (taken.toFinset.card + 1)) (by omega)
  rw [Nat.add_sub_cancel' past] at skipped
  exact unused skipped

theorem fresh_name_found_cut : Search "cut" ["x", "cut-3", "x"] 3 1 4 ∧
    freshId "cut" ["x", "cut-3", "x"] = "cut-4" := by
  have search : Search "cut" ["x", "cut-3", "x"] 3 1 4 := .count (by decide) (.stop (by decide))
  obtain ⟨n, last, -, only, -, name, -⟩ := fresh_name_found "cut" ["x", "cut-3", "x"]
  obtain ⟨-, rfl⟩ := only 1 4 search
  exact ⟨search, name⟩

end Joinery
