import Joinery.Proofs.Estimate.Reports
import Joinery.Proofs.Number.Sum

/-!
Totals to the cent. Times and costs are rounded to hundredths where they arise, and what they are summed
to is rounded again, once for a component and once for a product. No hundredth is lost or gained on the
way: every total is the double nearest to the sum of the hundredths of its amounts.
-/
namespace Joinery.Estimate
open Number

/-- The rounded amounts that the totals of a component are made of. -/
structure Amounts where
  minutes : List Float
  costs : List Float
  material : Float

def amounts (rates : RateTable) (c : Component) : Outcome Amounts := do
  let costs ← c.operations.mapM (processCost rates c)
  let material ← materialCost rates c
  return { minutes := c.operations.map (minutes c), costs, material }

namespace Amounts

def all (a : Amounts) : List Float := a.minutes ++ (a.costs ++ [a.material])

def timeCents (a : Amounts) : Int := (a.minutes.map cents).sum
def processCents (a : Amounts) : Int := (a.costs.map cents).sum
def materialCents (a : Amounts) : Int := cents a.material

def weight (a : Amounts) : Nat := centsTogether (a.all.map cents)

def together (parts : List Amounts) : Nat :=
  ((parts.flatMap all).map fun x => (units x).natAbs).sum

end Amounts

structure ComponentSums (stands : Int → Float → Prop) (a : Amounts) (t : ComponentTotals) : Prop where
  totalTime : stands a.timeCents t.totalTime
  materialCost : stands a.materialCents t.materialCost
  processCost : stands a.processCents t.processCost
  totalCost : stands (a.materialCents + a.processCents) t.totalCost

structure ComponentToTheCent (a : Amounts) (t : ComponentTotals) : Prop where
  sums : ComponentSums NearestCents a t
  material : t.materialCost = a.material
  whole : cents t.totalCost = cents t.materialCost + cents t.processCost

structure ProductSums (stands : Int → Float → Prop) (parts : List Amounts) (t : ProductTotals) :
    Prop where
  totalTime : stands (parts.map Amounts.timeCents).sum t.totalTime
  materialCost : stands (parts.map Amounts.materialCents).sum t.materialCost
  processCost : stands (parts.map Amounts.processCents).sum t.processCost
  totalCost : stands ((parts.map Amounts.materialCents).sum + (parts.map Amounts.processCents).sum)
    t.totalCost

structure ProductToTheCent (parts : List Amounts) (t : ProductTotals) : Prop where
  sums : ProductSums NearestCents parts t
  whole : cents t.totalCost = cents t.materialCost + cents t.processCost

variable {rates : RateTable} {params : EstimateParameters}

theorem rounded_of_amounts {c : Component} {a : Amounts} (taken : amounts rates c = .ok a) :
    ∀ x ∈ a.all, ∃ z, x = roundHundredths z := by
  obtain ⟨costs, costed, rest⟩ := bind_ok.mp taken
  obtain ⟨material, priced, same⟩ := bind_ok.mp rest
  obtain rfl := Except.ok.inj same
  intro x member
  simp only [Amounts.all, List.mem_append, List.mem_singleton] at member
  rcases member with member | member | rfl
  · obtain ⟨p, -, rfl⟩ := List.mem_map.mp member
    exact Duration.rounded_compute p.template p.parameters c
  · obtain ⟨p, -, cost⟩ := mapM_result costed x member
    obtain ⟨rate, -, rfl⟩ := map_ok.mp cost
    exact ⟨_, rfl⟩
  · obtain ⟨price, -, rfl⟩ := map_ok.mp priced
    exact ⟨_, rfl⟩

/-! One component. -/

namespace Amounts
variable (a : Amounts)

theorem weight_eq : a.weight =
    centsTogether (a.minutes.map cents) + (centsTogether (a.costs.map cents) + a.materialCents.natAbs) := by
  simp [weight, all, centsTogether, materialCents]

theorem timeCents_le : a.timeCents.natAbs ≤ a.weight := by
  have size := natAbs_sum_le_together (a.minutes.map cents)
  rw [a.weight_eq, timeCents]
  omega

theorem costCents_le : a.materialCents.natAbs + a.processCents.natAbs ≤ a.weight := by
  have size := natAbs_sum_le_together (a.costs.map cents)
  rw [a.weight_eq, processCents]
  omega

theorem materialCents_le : a.materialCents.natAbs ≤ a.weight :=
  Nat.le_trans (Nat.le_add_right _ _) a.costCents_le

theorem processCents_le : a.processCents.natAbs ≤ a.weight :=
  Nat.le_trans (Nat.le_add_left _ _) a.costCents_le

theorem totalCents_le : (a.materialCents + a.processCents).natAbs ≤ a.weight :=
  Nat.le_trans (Int.natAbs_add_le _ _) a.costCents_le

end Amounts

/-- All amounts of a component hold their own hundredths. -/
def Amounts.Settled (a : Amounts) : Prop := ∀ x ∈ a.all, HoldsCents (cents x) x

namespace Amounts.Settled
variable {a : Amounts} (settled : a.Settled)
include settled

theorem of_subset {amounts : List Float} (within : amounts ⊆ a.all) :
    List.Forall₂ HoldsCents (amounts.map cents) amounts := by
  rw [List.forall₂_map_left_iff, List.forall₂_same]
  exact fun x member => settled x (within member)

theorem of_minutes : List.Forall₂ HoldsCents (a.minutes.map cents) a.minutes :=
  settled.of_subset fun x member => by simp [all, member]

theorem of_costs : List.Forall₂ HoldsCents (a.costs.map cents) a.costs :=
  settled.of_subset fun x member => by simp [all, member]

theorem of_material : HoldsCents a.materialCents a.material := settled a.material (by simp [all])

end Amounts.Settled

structure ComponentHolds (a : Amounts) (t : ComponentTotals) : Prop where
  sums : ComponentSums HoldsCents a t
  material : t.materialCost = a.material
  light : a.weight ≤ 2 ^ 48

theorem componentTotals_of_amounts {c : Component} {a : Amounts} (taken : amounts rates c = .ok a)
    (settled : a.Settled) (most : a.weight ≤ 2 ^ 48) :
    ∃ t, componentTotals rates c = .ok t ∧ ComponentHolds a t := by
  have weight := a.weight_eq
  have size := a.costCents_le
  obtain ⟨time, timed, totalTime⟩ := total_of_cents settled.of_minutes (by omega)
  obtain ⟨process, summed, near⟩ := sum_of_cents settled.of_costs (by omega)
  have processCost := near.holds (n := a.processCents) (by omega)
  have totalCost := holds_add settled.of_material near (n := a.processCents) (by omega)
  obtain ⟨costs, costed, rest⟩ := bind_ok.mp taken
  obtain ⟨material, priced, same⟩ := bind_ok.mp rest
  obtain rfl := Except.ok.inj same
  refine ⟨_, by
    simp only [componentTotals, totalsOf, costed, summed, priced, timed, bind, Except.bind]
    rfl, ?_⟩
  exact ⟨⟨totalTime, settled.of_material, processCost, totalCost⟩, rfl, most⟩

theorem ComponentHolds.toTheCent {a : Amounts} {t : ComponentTotals} (holds : ComponentHolds a t) :
    ComponentToTheCent a t := by
  obtain ⟨sums, material, light⟩ := holds
  have time := Nat.le_trans a.timeCents_le light
  have boards := Nat.le_trans a.materialCents_le light
  have process := Nat.le_trans a.processCents_le light
  have whole := Nat.le_trans a.totalCents_le light
  refine ⟨⟨?_, ?_, ?_, ?_⟩, material, ?_⟩
  · exact sums.totalTime.nearestCents time
  · exact sums.materialCost.nearestCents boards
  · exact sums.processCost.nearestCents process
  · exact sums.totalCost.nearestCents whole
  · rw [sums.totalCost.cents_eq whole, sums.materialCost.cents_eq boards, sums.processCost.cents_eq process]

/-! All components of a product. -/

theorem together_weight (parts : List Amounts) :
    centsTogether ((parts.flatMap Amounts.all).map cents) = (parts.map Amounts.weight).sum := by
  induction parts with
  | nil => rfl
  | cons a parts ih =>
    simp only [centsTogether, List.flatMap_cons, List.map_append, List.sum_append, List.map_cons,
      List.sum_cons] at ih ⊢
    rw [ih]
    rfl

theorem cents_le_weight {parts : List Amounts} {n : Amounts → Int}
    (few : ∀ a, (n a).natAbs ≤ a.weight) :
    centsTogether (parts.map n) ≤ (parts.map Amounts.weight).sum := by
  rw [centsTogether, List.map_map]
  exact List.sum_le_sum fun a _ => few a

theorem usable_of_labor {time material : Float} {costs : Float × Float}
    (taken : labor params time material = .ok costs) : params.Usable := by
  obtain ⟨hourly, readHourly, rest⟩ := bind_ok.mp taken
  obtain ⟨overhead, readOverhead, -⟩ := bind_ok.mp rest
  exact ⟨⟨hourly, readHourly⟩, ⟨overhead, readOverhead⟩⟩

section Product
variable {parts : List Amounts} {totals : List ComponentTotals} {n : Amounts → Int}
  {amount : ComponentTotals → Float} (most : (parts.map Amounts.weight).sum ≤ 2 ^ 48)
include most

theorem total_of_components
    (each : List.Forall₂ (fun a t => HoldsCents (n a) (amount t)) parts totals)
    (few : ∀ a, (n a).natAbs ≤ a.weight) :
    ∃ y, total (totals.map amount) = .ok y ∧ HoldsCents (parts.map n).sum y := by
  apply total_of_cents
  · rwa [List.forall₂_map_left_iff, List.forall₂_map_right_iff]
  · exact Nat.le_trans (cents_le_weight few) most

theorem holds_of_total
    (each : List.Forall₂ (fun a t => HoldsCents (n a) (amount t)) parts totals)
    (few : ∀ a, (n a).natAbs ≤ a.weight) {x : Float} (summed : total (totals.map amount) = .ok x) :
    HoldsCents (parts.map n).sum x := by
  obtain ⟨y, same, holds⟩ := total_of_components most each few
  rwa [Except.ok.inj (summed.symm.trans same)]

theorem productSums_of_components (each : List.Forall₂ ComponentHolds parts totals) {t : ProductTotals}
    (sums : SumsOf totals t) : ProductSums HoldsCents parts t where
  totalTime := holds_of_total most (each.imp fun _ _ holds => holds.sums.totalTime)
    Amounts.timeCents_le sums.time
  materialCost := holds_of_total most (each.imp fun _ _ holds => holds.sums.materialCost)
    Amounts.materialCents_le sums.materialCost
  processCost := holds_of_total most (each.imp fun _ _ holds => holds.sums.processCost)
    Amounts.processCents_le sums.processCost
  totalCost := by
    rw [← List.sum_map_add]
    exact holds_of_total most (each.imp fun _ _ holds => holds.sums.totalCost)
      Amounts.totalCents_le sums.totalCost

theorem productTotals_ok_iff (each : List.Forall₂ ComponentHolds parts totals)
    {components : List Component} (taken : components.mapM (componentTotals rates) = .ok totals) :
    (∃ t, productTotals rates params components = .ok t) ↔ params.Usable := by
  constructor
  · rintro ⟨t, success⟩
    obtain ⟨totals, -, summed⟩ := bind_ok.mp success
    obtain ⟨time, -, rest⟩ := bind_ok.mp summed
    obtain ⟨material, -, rest⟩ := bind_ok.mp rest
    obtain ⟨costs, laboured, -⟩ := bind_ok.mp rest
    exact usable_of_labor laboured
  · intro usable
    obtain ⟨time, timed, -⟩ := total_of_components most
      (each.imp fun _ _ holds => holds.sums.totalTime) Amounts.timeCents_le
    obtain ⟨material, priced, -⟩ := total_of_components most
      (each.imp fun _ _ holds => holds.sums.materialCost) Amounts.materialCents_le
    obtain ⟨process, worked, -⟩ := total_of_components most
      (each.imp fun _ _ holds => holds.sums.processCost) Amounts.processCents_le
    obtain ⟨whole, added, -⟩ := total_of_components most
      (each.imp fun _ _ holds => holds.sums.totalCost) Amounts.totalCents_le
    obtain ⟨⟨laborCost, estimatedCost⟩, laboured⟩ := labor_ok usable time material
    exact ⟨_, by
      simp only [productTotals, sumUp, taken, timed, priced, worked, added, laboured, bind, Except.bind]
      rfl⟩

theorem sum_cents_le (few : ∀ a, (n a).natAbs ≤ a.weight) : (parts.map n).sum.natAbs ≤ 2 ^ 48 :=
  Nat.le_trans (natAbs_sum_le_together _) (Nat.le_trans (cents_le_weight few) most)

theorem ProductSums.toTheCent {t : ProductTotals} (sums : ProductSums HoldsCents parts t) :
    ProductToTheCent parts t := by
  have time := sum_cents_le most Amounts.timeCents_le
  have boards := sum_cents_le most Amounts.materialCents_le
  have process := sum_cents_le most Amounts.processCents_le
  have whole := sum_cents_le most Amounts.totalCents_le
  rw [List.sum_map_add] at whole
  refine ⟨⟨?_, ?_, ?_, ?_⟩, ?_⟩
  · exact sums.totalTime.nearestCents time
  · exact sums.materialCost.nearestCents boards
  · exact sums.processCost.nearestCents process
  · exact sums.totalCost.nearestCents whole
  · rw [sums.totalCost.cents_eq whole, sums.materialCost.cents_eq boards, sums.processCost.cents_eq process]

end Product

theorem settled_of_bounded {components : List Component} {parts : List Amounts}
    (taken : components.mapM (amounts rates) = .ok parts)
    (bounded : Amounts.together parts < 10 ^ 12 * unitsPerOne.natAbs) :
    (∀ a ∈ parts, a.Settled) ∧ (parts.map Amounts.weight).sum ≤ 2 ^ 48 := by
  have rounded : ∀ x ∈ parts.flatMap Amounts.all, ∃ z, x = roundHundredths z := by
    intro x member
    obtain ⟨a, inside, amount⟩ := List.mem_flatMap.mp member
    obtain ⟨c, -, made⟩ := mapM_result taken a inside
    exact rounded_of_amounts made x amount
  obtain ⟨holds, most⟩ := holds_cents rounded bounded
  rw [together_weight] at most
  refine ⟨fun a member x amount => ?_, most⟩
  exact holds x (List.mem_flatMap.mpr ⟨a, member, amount⟩)

theorem components_of_amounts {components : List Component} {parts : List Amounts}
    (taken : components.mapM (amounts rates) = .ok parts) (settled : ∀ a ∈ parts, a.Settled)
    (light : ∀ a ∈ parts, a.weight ≤ 2 ^ 48) :
    ∃ totals, components.mapM (componentTotals rates) = .ok totals ∧
      List.Forall₂ ComponentHolds parts totals := by
  simp only [mapM_ok_iff] at taken ⊢
  induction taken with
  | nil => exact ⟨[], .nil, .nil⟩
  | @cons c a components parts made _ ih =>
    obtain ⟨t, totalled, holds⟩ := componentTotals_of_amounts made
      (settled a List.mem_cons_self) (light a List.mem_cons_self)
    obtain ⟨totals, each, rest⟩ := ih (fun b member => settled b (List.mem_cons_of_mem _ member))
      fun b member => light b (List.mem_cons_of_mem _ member)
    exact ⟨t :: totals, .cons totalled each, .cons holds rest⟩

/-- If the sizes of all amounts of a product come to less than 10^12 together, every total of each of
its components and of the product itself is the double nearest to the sum of the hundredths that it is
made of. Only unusable parameters can keep the product from having totals. -/
theorem totals_to_the_cent (rates : RateTable) (params : EstimateParameters)
    (components : List Component) (parts : List Amounts)
    (taken : components.mapM (amounts rates) = .ok parts)
    (bounded : Amounts.together parts < 10 ^ 12 * unitsPerOne.natAbs) :
    (∀ a ∈ parts, ∀ x ∈ a.all, NearestCents (cents x) x) ∧
    (∃ totals, components.mapM (componentTotals rates) = .ok totals ∧
      List.Forall₂ ComponentToTheCent parts totals) ∧
    ((∃ t, productTotals rates params components = .ok t) ↔ params.Usable) ∧
    ∀ t, productTotals rates params components = .ok t → ProductToTheCent parts t := by
  obtain ⟨settled, most⟩ := settled_of_bounded taken bounded
  have light : ∀ a ∈ parts, a.weight ≤ 2 ^ 48 := fun a member =>
    Nat.le_trans (List.single_le_sum (by simp) _ (List.mem_map_of_mem member)) most
  obtain ⟨totals, totalled, holds⟩ := components_of_amounts taken settled light
  refine ⟨?_, ⟨totals, totalled, ?_⟩, productTotals_ok_iff most holds totalled, ?_⟩
  · intro a member x amount
    have size := natAbs_le_together (List.mem_map_of_mem (f := cents) amount)
    exact (settled a member x amount).nearestCents (Nat.le_trans size (light a member))
  · exact holds.imp fun _ _ one => one.toTheCent
  · intro t success
    obtain ⟨others, again, sums⟩ := sumsOf_parts success
    obtain rfl : others = totals := Except.ok.inj (again.symm.trans totalled)
    exact (productSums_of_components most holds sums).toTheCent most

theorem shelf_totals_to_the_cent :
    ∃ parts totals t, (Shelf.product Shelf.noon).components.mapM (amounts .standard) = .ok parts ∧
      Amounts.together parts < 10 ^ 12 * unitsPerOne.natAbs ∧
      (Shelf.product Shelf.noon).components.mapM (componentTotals .standard) = .ok totals ∧
      List.Forall₂ ComponentToTheCent parts totals ∧
      productTotals .standard .standard (Shelf.product Shelf.noon).components = .ok t ∧
      ProductToTheCent parts t := by
  have taken : (Shelf.product Shelf.noon).components.mapM (amounts .standard) = .ok _ :=
    Outcome.eq_value (by decide +kernel)
  have bounded : Amounts.together (Outcome.value
      ((Shelf.product Shelf.noon).components.mapM (amounts .standard)) (by decide +kernel)) <
        10 ^ 12 * unitsPerOne.natAbs := by
    decide +kernel
  obtain ⟨-, ⟨totals, totalled, each⟩, made, sums⟩ :=
    totals_to_the_cent .standard .standard _ _ taken bounded
  have usable : EstimateParameters.standard.Usable := ⟨⟨_, rfl⟩, ⟨_, rfl⟩⟩
  obtain ⟨t, success⟩ := made.mpr usable
  exact ⟨_, totals, t, taken, bounded, totalled, each, success, sums t success⟩

end Joinery.Estimate
