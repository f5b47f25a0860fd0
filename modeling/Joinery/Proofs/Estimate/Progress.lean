import Joinery.Proofs.Component.Status

/-!
Completion measures progress. It lies between nothing and a hundred percent, depends on nothing but how
many operations and steps of assembly there are with each status, and does not fall when one more of
them is completed.
-/
namespace Joinery

namespace Estimate
open Number

theorem percent_mono {k l n : Nat} (le : k ≤ l) (most : l ≤ n) (some : 0 < n) (few : n < 2 ^ 63) :
    roundHundredths (ratio k n * 100) ≤ roundHundredths (ratio l n * 100) := by
  rcases Nat.eq_zero_or_pos k with rfl | begun
  · rw [completion_of_none some few]
    rcases Nat.eq_zero_or_pos l with rfl | begun
    · rw [completion_of_none some few]
      decide +kernel
    · have portion : Portion l n := ⟨begun, most, few⟩
      exact zero_le_of_not_lt (holds_roundHundredths _).isFinite
        (roundHundredths_not_lt portion.holds_percent.not_lt)
  · exact Portion.rounded_le ⟨begun, by omega, few⟩ ⟨by omega, most, few⟩ le

theorem percent_all {n : Nat} (some : 0 < n) (few : n < 2 ^ 63) :
    roundHundredths (ratio n n * 100) = 100 := by
  rw [ratio_self some few]
  decide +kernel

/-- What a percentage says of the statuses that it is taken of. -/
structure Gauges (statuses : List Progress) (percent : Float) : Prop where
  least : 0 ≤ percent
  most : percent ≤ 100
  full : statuses ≠ [] → (∀ s ∈ statuses, s = .completed) → percent = 100
  none : (∀ s ∈ statuses, s ≠ .completed) → percent = 0

section
variable {statuses others : List Progress}

theorem completion_of_some (some : statuses ≠ []) :
    completion statuses =
      roundHundredths (ratio (statuses.count .completed) statuses.length * 100) := by
  rw [completion, if_neg (by simpa using some)]

theorem completion_gauges (few : statuses.length < 2 ^ 63) :
    Gauges statuses (completion statuses) := by
  by_cases empty : statuses = []
  · subst empty
    exact ⟨by decide +kernel, by decide +kernel, fun some => absurd rfl some, fun _ => rfl⟩
  have some : 0 < statuses.length := List.length_pos_iff.mpr empty
  have most : statuses.count .completed ≤ statuses.length := List.count_le_length
  rw [completion_of_some empty]
  refine ⟨?_, ?_, fun _ all => ?_, fun none => ?_⟩
  · have least := percent_mono (Nat.zero_le _) most some few
    rwa [completion_of_none some few] at least
  · have highest := percent_mono most (Nat.le_refl _) some few
    rwa [percent_all some few] at highest
  · rw [List.count_eq_length.mpr fun s member => (all s member).symm]
    exact percent_all some few
  · rw [List.count_eq_zero.mpr fun member => none _ member rfl]
    exact completion_of_none some few

theorem completion_eq (length : statuses.length = others.length)
    (completed : statuses.count .completed = others.count .completed) :
    completion statuses = completion others := by
  cases statuses with
  | nil => rw [List.length_eq_zero_iff.mp length.symm]
  | cons s rest =>
    have some : others ≠ [] := by
      rintro rfl
      cases length
    rw [completion_of_some (List.cons_ne_nil s rest), completion_of_some some, length, completed]

theorem completion_perm (perm : statuses.Perm others) : completion statuses = completion others :=
  completion_eq perm.length_eq (perm.count_eq _)

theorem completion_mono (few : others.length < 2 ^ 63) (length : statuses.length = others.length)
    (completed : statuses.count .completed ≤ others.count .completed) :
    completion statuses ≤ completion others := by
  cases statuses with
  | nil =>
    rw [List.length_eq_zero_iff.mp length.symm]
    decide +kernel
  | cons s rest =>
    have some : 0 < others.length := length ▸ Nat.zero_lt_succ _
    rw [completion_of_some (List.cons_ne_nil s rest),
      completion_of_some (List.length_pos_iff.mp some), length]
    exact percent_mono completed List.count_le_length some few

end

/-- One of the statuses is turned into completed, whatever it was. -/
inductive CompletesOne : List Progress → List Progress → Prop
  | turned (before after : List Progress) (s : Progress) :
    CompletesOne (before ++ s :: after) (before ++ .completed :: after)

namespace CompletesOne
variable {statuses others : List Progress} (completes : CompletesOne statuses others)
include completes

theorem length_eq : statuses.length = others.length := by
  cases completes with
  | turned before after s => simp

theorem count_le : statuses.count .completed ≤ others.count .completed := by
  cases completes with
  | turned before after s =>
    rw [List.count_append, List.count_append, List.count_cons_self, List.count_cons]
    split <;> omega

theorem completion_le (few : statuses.length < 2 ^ 63) : completion statuses ≤ completion others :=
  completion_mono (completes.length_eq ▸ few) completes.length_eq completes.count_le

theorem within (before after : List Progress) :
    CompletesOne (before ++ (statuses ++ after)) (before ++ (others ++ after)) := by
  cases completes with
  | turned first last s => simpa using turned (before ++ first) (last ++ after) s

end CompletesOne

end Estimate

open Estimate

namespace Product

def tally (p : Product) (s : Progress) : Nat :=
  (p.placements.map fun entry => entry.component.operations.countP (·.status = s)).sum +
    p.steps.countP (·.status = s)

def leafCount (p : Product) : Nat :=
  (p.placements.map fun entry => entry.component.operations.length).sum + p.steps.length

/-- An operation on one of the components or a step of assembly is completed, whatever else changes. -/
inductive CompletesOne (p q : Product) : Prop
  | operation (before after : List (List Progress)) (old new : List Progress)
    (was : p.components.map Component.statuses = before ++ old :: after)
    (becomes : q.components.map Component.statuses = before ++ new :: after)
    (completes : Estimate.CompletesOne old new)
    (steps : q.steps.map AssemblyStep.status = p.steps.map AssemblyStep.status)
  | step (operations : q.components.map Component.statuses = p.components.map Component.statuses)
    (completes : Estimate.CompletesOne (p.steps.map AssemblyStep.status)
      (q.steps.map AssemblyStep.status))

variable {p q : Product}

theorem count_statuses (p : Product) (s : Progress) : p.statuses.count s = p.tally s := by
  have each : List.count s ∘ Component.statuses ∘ Placement.component =
      fun entry => entry.component.operations.countP (·.status = s) :=
    funext fun entry => entry.component.count_statuses s
  rw [statuses, List.count_append, List.count_flatMap, components, List.map_map, Function.comp_assoc,
    each, List.count, List.countP_map, tally]
  congr

theorem length_statuses (p : Product) : p.statuses.length = p.leafCount := by
  have each : (fun c => c.statuses.length) ∘ Placement.component =
      fun entry => entry.component.operations.length := funext fun _ => List.length_map ..
  rw [statuses, List.length_append, List.length_flatMap, components, List.map_map, each,
    List.length_map, leafCount]

theorem statuses_perm (same : ∀ s, q.tally s = p.tally s) : q.statuses.Perm p.statuses := by
  rw [List.perm_iff_count]
  intro s
  rw [count_statuses, count_statuses, same]

theorem CompletesOne.statuses (completes : p.CompletesOne q) :
    Estimate.CompletesOne p.statuses q.statuses := by
  rw [Product.statuses, Product.statuses, List.flatMap_def, List.flatMap_def]
  cases completes with
  | operation before after old new was becomes completes steps =>
    rw [was, becomes, steps]
    simpa using completes.within before.flatten (after.flatten ++ p.steps.map AssemblyStep.status)
  | step operations completes =>
    rw [operations]
    simpa using completes.within (p.components.map Component.statuses).flatten []

theorem mem_statuses {s : Progress} : s ∈ p.statuses ↔
    (∃ entry ∈ p.placements, ∃ o ∈ entry.component.operations, o.status = s) ∨
      ∃ step ∈ p.steps, step.status = s := by
  simp [statuses, components, Component.statuses]

end Product

/-- Completion measures progress. Whatever the statuses, as many as a list can hold, it is a percentage,
a hundred if all of some are completed and nothing if none is, it depends on nothing but how many there
are of each, and it does not fall when one more is completed. -/
theorem completion_measures_progress :
    (∀ statuses : List Progress, statuses.length < 2 ^ 63 →
      (0 ≤ completion statuses ∧ completion statuses ≤ 100) ∧
      (statuses ≠ [] → (∀ s ∈ statuses, s = .completed) → completion statuses = 100) ∧
      ((∀ s ∈ statuses, s ≠ .completed) → completion statuses = 0) ∧
      (∀ others : List Progress, others.Perm statuses → completion others = completion statuses) ∧
      ∀ others : List Progress, CompletesOne statuses others →
        completion statuses ≤ completion others) ∧
    (∀ c : Component, c.operations.length < 2 ^ 63 →
      (0 ≤ c.completion ∧ c.completion ≤ 100) ∧
      (c.operations ≠ [] → (∀ o ∈ c.operations, o.status = .completed) → c.completion = 100) ∧
      ((∀ o ∈ c.operations, o.status ≠ .completed) → c.completion = 0) ∧
      (∀ d : Component, d.statuses.Perm c.statuses → d.completion = c.completion) ∧
      ∀ d : Component, CompletesOne c.statuses d.statuses → c.completion ≤ d.completion) ∧
    ∀ p : Product, p.leafCount < 2 ^ 63 →
      (0 ≤ p.completion ∧ p.completion ≤ 100) ∧
      (p.leafCount ≠ 0 →
        (∀ entry ∈ p.placements, ∀ o ∈ entry.component.operations, o.status = .completed) →
        (∀ step ∈ p.steps, step.status = .completed) → p.completion = 100) ∧
      ((∀ entry ∈ p.placements, ∀ o ∈ entry.component.operations, o.status ≠ .completed) →
        (∀ step ∈ p.steps, step.status ≠ .completed) → p.completion = 0) ∧
      (∀ q : Product, (∀ s, q.tally s = p.tally s) → q.completion = p.completion) ∧
      ∀ q : Product, p.CompletesOne q → p.completion ≤ q.completion := by
  refine ⟨fun statuses few => ?_, fun c few => ?_, fun p few => ?_⟩
  · obtain ⟨least, most, full, none⟩ := completion_gauges few
    exact ⟨⟨least, most⟩, full, none, fun _ perm => completion_perm perm,
      fun _ completes => completes.completion_le few⟩
  · have few : c.statuses.length < 2 ^ 63 := by rwa [Component.statuses, List.length_map]
    obtain ⟨least, most, full, none⟩ := completion_gauges few
    refine ⟨⟨least, most⟩, fun some all => full (mt List.map_eq_nil_iff.mp some) ?_, fun all => none ?_,
      fun _ perm => completion_perm perm, fun _ completes => completes.completion_le few⟩
    all_goals simpa [Component.statuses] using all
  · have few : p.statuses.length < 2 ^ 63 := by rwa [p.length_statuses]
    obtain ⟨least, most, full, none⟩ := completion_gauges few
    refine ⟨⟨least, most⟩, fun some operations steps => full ?_ fun s member => ?_,
      fun operations steps => none fun s member => ?_,
      fun _ same => completion_perm (Product.statuses_perm same),
      fun _ completes => completes.statuses.completion_le few⟩
    · rwa [← List.length_pos_iff, p.length_statuses, Nat.pos_iff_ne_zero]
    all_goals rcases Product.mem_statuses.mp member with ⟨entry, placed, o, held, rfl⟩ | ⟨step, held, rfl⟩
    · exact operations entry placed o held
    · exact steps step held
    · exact operations entry placed o held
    · exact steps step held

namespace Shelf

def underWay (groups : List (List Progress)) (steps : List Progress) : Product :=
  { product noon with
    placements := groups.map fun group =>
      { placement with
        component := { side with operations := group.map fun s => { operation with status := s } } }
    steps := steps.map fun s => ⟨"join", "Joining", "", [], 5, s, ""⟩ }

def begun : Product := underWay [[.completed, .pending], []] [.inProgress]

end Shelf

theorem shelf_progress :
    Shelf.begun.leafCount < 2 ^ 63 ∧ (0 ≤ Shelf.begun.completion ∧ Shelf.begun.completion ≤ 100) ∧
      (Shelf.underWay [[.inProgress], [.pending]] [.completed]).completion = Shelf.begun.completion ∧
      Shelf.begun.completion ≤ (Shelf.underWay [[.completed, .completed], []] [.inProgress]).completion ∧
      (Shelf.underWay [[.completed], []] [.completed]).completion = 100 ∧
      (Shelf.underWay [[.pending]] [.inProgress]).completion = 0 ∧
      Shelf.side.completion = 0 ∧ completion [.completed] = 100 := by
  obtain ⟨lists, components, products⟩ := completion_measures_progress
  have few : Shelf.begun.leafCount < 2 ^ 63 := by decide +kernel
  obtain ⟨between, -, -, regrouped, completes⟩ := products Shelf.begun few
  refine ⟨few, between, regrouped _ fun s => ?_, completes _ ?_, ?_, ?_, ?_, ?_⟩
  · cases s <;> decide +kernel
  · exact .operation [] [[]] [.completed, .pending] [.completed, .completed] rfl rfl
      (.turned [.completed] [] .pending) rfl
  · exact (products _ (by decide +kernel)).2.1 (by decide +kernel) (by decide +kernel)
      (by decide +kernel)
  · exact (products _ (by decide +kernel)).2.2.1 (by decide +kernel) (by decide +kernel)
  · exact (components _ (by decide +kernel)).2.2.1 (by decide +kernel)
  · exact (lists _ (by decide)).2.1 (by decide) (by decide)

end Joinery
