import Joinery.Estimate.Breakdown
import Joinery.Estimate.Summary
import Joinery.Proofs.Product.Fresh

/-!
Reports next to each other. The rows of a breakdown stand in blocks, one block for each placement,
whose sums are the totals in that placement's row of the component summary; the columns of the
component summary sum to the totals of the product, and those of all products to the summary of a
project.
-/
namespace Joinery.Estimate
open Number

/-- A row of the breakdown that tells of an operation on a component. -/
structure OperationRow.Of (rates : RateTable) (c : Component) (p : Operation) (r : OperationRow) :
    Prop where
  component : r.component = c.id
  code : r.code = p.template.code
  name : r.name = p.template.name
  status : r.status = p.status
  minutes : r.minutes = (Duration.compute p.template p.parameters c).minutes
  isOk : r.isOk = (Duration.compute p.template p.parameters c).isOk
  rate : rates.equipmentRate p.usedEquipment = .ok r.rate
  cost : r.cost = roundHundredths (r.rate * r.minutes / 60)

/-- A block of the breakdown and a row of the component summary that tell of one placement. -/
structure ComponentRow.Of (rates : RateTable) (entry : Placement) (block : List OperationRow)
    (row : ComponentRow) : Prop where
  rows : List.Forall₂ (OperationRow.Of rates entry.component) entry.component.operations block
  component : row.component = entry.component.id
  operations : row.operations = block.length
  time : total (block.map OperationRow.minutes) = .ok row.totals.totalTime
  processCost : total (block.map OperationRow.cost) = .ok row.totals.processCost
  totals : componentTotals rates entry.component = .ok row.totals

/-- The breakdown falls into one block of rows for each placement and each row of the summary. -/
inductive InBlocks (rates : RateTable) :
    List Placement → List OperationRow → List ComponentRow → Prop where
  | nil : InBlocks rates [] [] []
  | cons {entry : Placement} {block : List OperationRow} {row : ComponentRow}
      {placements : List Placement} {rows : List OperationRow} {summary : List ComponentRow} :
      row.Of rates entry block → InBlocks rates placements rows summary →
      InBlocks rates (entry :: placements) (block ++ rows) (row :: summary)

structure SumsOf (parts : List ComponentTotals) (totals : ProductTotals) : Prop where
  components : totals.totalComponents = parts.length
  time : total (parts.map ComponentTotals.totalTime) = .ok totals.totalTime
  materialCost : total (parts.map ComponentTotals.materialCost) = .ok totals.materialCost
  processCost : total (parts.map ComponentTotals.processCost) = .ok totals.processCost
  totalCost : total (parts.map ComponentTotals.totalCost) = .ok totals.totalCost

structure ProjectSummary.Of (rates : RateTable) (params : EstimateParameters)
    (products : List Product) (parts : List ProductTotals) (s : ProjectSummary) : Prop where
  each : List.Forall₂ (fun p t => productTotals rates params p.components = .ok t) products parts
  productCount : s.totalProducts = products.length
  componentCount : s.totalComponents = (products.map fun p => p.components.length).sum
  operationCount : s.totalOperations =
    (products.map fun p => (p.components.map fun c => c.operations.length).sum).sum
  cost : total (parts.map ProductTotals.totalCost) = .ok s.totalCost
  time : total (parts.map ProductTotals.totalTime) = .ok s.totalTime

variable {rates : RateTable} {params : EstimateParameters}

theorem operationRow_of {c : Component} {p : Operation} {r : OperationRow}
    (made : operationRow rates c p = .ok r) : r.Of rates c p := by
  obtain ⟨rate, found, rest⟩ := bind_ok.mp made
  obtain ⟨cost, costed, same⟩ := bind_ok.mp rest
  obtain rfl := Except.ok.inj same
  obtain ⟨again, foundAgain, rfl⟩ := map_ok.mp costed
  obtain rfl : again = rate := Except.ok.inj (foundAgain.symm.trans found)
  exact ⟨rfl, rfl, rfl, rfl, rfl, rfl, found, rfl⟩

theorem componentRows_of {c : Component} {block : List OperationRow}
    (made : componentRows rates c = .ok block) :
    List.Forall₂ (OperationRow.Of rates c) c.operations block :=
  (mapM_ok_iff.mp made).imp fun _ _ => operationRow_of

theorem minutes_of_block {c : Component} {block : List OperationRow}
    (rows : List.Forall₂ (OperationRow.Of rates c) c.operations block) :
    c.operations.map (minutes c) = block.map OperationRow.minutes := by
  rw [← List.forall₂_eq_eq_eq, List.forall₂_map_left_iff, List.forall₂_map_right_iff]
  exact rows.imp fun _ _ row => row.minutes.symm

theorem costs_of_block {c : Component} {block : List OperationRow}
    (rows : List.Forall₂ (OperationRow.Of rates c) c.operations block) :
    c.operations.mapM (processCost rates c) = .ok (block.map OperationRow.cost) := by
  rw [mapM_ok_iff, List.forall₂_map_right_iff]
  refine rows.imp fun p r row => ?_
  rw [processCost, costOf, row.rate, row.cost, row.minutes]
  rfl

theorem componentRow_of {entry : Placement} {block : List OperationRow} {row : ComponentRow}
    (listed : componentRows rates entry.component = .ok block)
    (summed : componentRow rates entry = .ok row) : row.Of rates entry block := by
  have rows := componentRows_of listed
  obtain ⟨totals, taken, same⟩ := bind_ok.mp summed
  obtain rfl := Except.ok.inj same
  obtain ⟨costs, process, costed, added, -, timed, worked, -⟩ := componentTotals_parts taken
  obtain rfl : costs = block.map OperationRow.cost :=
    Except.ok.inj (costed.symm.trans (costs_of_block rows))
  refine ⟨rows, rfl, rows.length_eq, ?_, ?_, taken⟩
  · rw [← minutes_of_block rows]
    exact timed
  · rw [total, added, worked]
    rfl

theorem inBlocks_of {placements : List Placement} {blocks : List (List OperationRow)}
    {summary : List ComponentRow}
    (listed : (placements.map Placement.component).mapM (componentRows rates) = .ok blocks)
    (summed : placements.mapM (componentRow rates) = .ok summary) :
    InBlocks rates placements blocks.flatten summary := by
  rw [mapM_ok_iff, List.forall₂_map_left_iff] at listed
  rw [mapM_ok_iff] at summed
  induction listed generalizing summary with
  | nil =>
    cases summed
    exact .nil
  | cons first _ ih =>
    cases summed with
    | cons row rest => exact .cons (componentRow_of first row) (ih rest)

theorem operationRows_of {p : Product} {rows : List OperationRow}
    (made : operationRows rates p = .ok rows) :
    ∃ blocks, p.components.mapM (componentRows rates) = .ok blocks ∧ rows = blocks.flatten := by
  obtain ⟨blocks, listed, rfl⟩ := map_ok.mp made
  exact ⟨blocks, listed, rfl⟩

theorem rows_in_order {components : List Component} {blocks : List (List OperationRow)}
    (listed : components.mapM (componentRows rates) = .ok blocks) :
    List.Forall₂ (fun (work : Component × Operation) r => OperationRow.Of rates work.1 work.2 r)
      (components.flatMap fun c => c.operations.map fun p => (c, p)) blocks.flatten := by
  rw [mapM_ok_iff] at listed
  induction listed with
  | nil => exact .nil
  | cons first _ ih =>
    rw [List.flatMap_cons, List.flatten_cons]
    refine List.rel_append ?_ ih
    rw [List.forall₂_map_left_iff]
    exact componentRows_of first

theorem totals_of_summary {placements : List Placement} {summary : List ComponentRow}
    (summed : placements.mapM (componentRow rates) = .ok summary) :
    (placements.map Placement.component).mapM (componentTotals rates) =
      .ok (summary.map ComponentRow.totals) := by
  rw [mapM_ok_iff] at summed ⊢
  rw [List.forall₂_map_left_iff, List.forall₂_map_right_iff]
  refine summed.imp fun entry row made => ?_
  obtain ⟨totals, taken, same⟩ := bind_ok.mp made
  obtain rfl := Except.ok.inj same
  exact taken

theorem sumsOf_parts {components : List Component} {totals : ProductTotals}
    (taken : productTotals rates params components = .ok totals) :
    ∃ parts, components.mapM (componentTotals rates) = .ok parts ∧ SumsOf parts totals := by
  obtain ⟨parts, each, summed⟩ := bind_ok.mp taken
  obtain ⟨time, timed, rest⟩ := bind_ok.mp summed
  obtain ⟨material, priced, rest⟩ := bind_ok.mp rest
  obtain ⟨⟨laborCost, estimatedCost⟩, -, rest⟩ := bind_ok.mp rest
  obtain ⟨process, worked, rest⟩ := bind_ok.mp rest
  obtain ⟨whole, added, same⟩ := bind_ok.mp rest
  obtain rfl := Except.ok.inj same
  exact ⟨parts, each, rfl, timed, priced, worked, added⟩

theorem sumsOf_summary {p : Product} {summary : List ComponentRow} {totals : ProductTotals}
    (summed : componentSummary rates p = .ok summary)
    (taken : productTotals rates params p.components = .ok totals) :
    SumsOf (summary.map ComponentRow.totals) totals := by
  obtain ⟨parts, each, sums⟩ := sumsOf_parts taken
  obtain rfl : parts = summary.map ComponentRow.totals :=
    Except.ok.inj (each.symm.trans (totals_of_summary summed))
  exact sums

theorem totalComponents_of {components : List Component} {totals : ProductTotals}
    (taken : productTotals rates params components = .ok totals) :
    totals.totalComponents = components.length := by
  obtain ⟨parts, each, sums⟩ := sumsOf_parts taken
  exact sums.components.trans (mapM_ok_iff.mp each).length_eq.symm

theorem projectSummary_of {products : List Product} {s : ProjectSummary}
    (summarized : summarize rates params products = .ok s) :
    ∃ parts, s.Of rates params products parts := by
  obtain ⟨parts, each, rest⟩ := bind_ok.mp summarized
  obtain ⟨cost, costed, rest⟩ := bind_ok.mp rest
  obtain ⟨time, timed, same⟩ := bind_ok.mp rest
  obtain rfl := Except.ok.inj same
  have taken := mapM_ok_iff.mp each
  have counts : products.map (fun p => p.components.length) =
      parts.map ProductTotals.totalComponents := by
    rw [← List.forall₂_eq_eq_eq, List.forall₂_map_left_iff, List.forall₂_map_right_iff]
    exact taken.imp fun _ _ one => (totalComponents_of one).symm
  exact ⟨parts, taken, rfl, by rw [counts], rfl, costed, timed⟩

/-! With rates and parameters that have doubles, all reports can be made. -/

theorem small_of_total {xs : List Float} {x : Float} (summed : total xs = .ok x) : Small 47 x := by
  obtain ⟨y, -, rfl⟩ := map_ok.mp summed
  exact small_roundHundredths y

theorem operationRows_ok (usable : rates.Usable) {p : Product} (fits : p.Listed) :
    ∃ rows, operationRows rates p = .ok rows := by
  have each : ∀ c ∈ p.components, ∃ block, componentRows rates c = .ok block := by
    intro c placed
    refine mapM_ok fun o member => ?_
    obtain ⟨rate, found⟩ :=
      usable.equipmentRate (Operation.usedEquipment_hasText (fits.equipment c placed o member))
    exact ⟨_, by
      simp only [operationRow, processCost, costOf, found, bind, Except.bind, Except.map]
      rfl⟩
  obtain ⟨blocks, listed⟩ := mapM_ok each
  exact ⟨blocks.flatten, by rw [operationRows, listed]; rfl⟩

theorem componentSummary_ok (usable : rates.Usable) {p : Product} (listed : p.Listed) :
    ∃ summary, componentSummary rates p = .ok summary := by
  refine mapM_ok fun entry member => ?_
  have placed : entry.component ∈ p.components := List.mem_map_of_mem member
  obtain ⟨totals, taken, -⟩ := componentTotals_ok usable (listed.operations entry.component placed)
    (listed.equipment entry.component placed)
  exact ⟨_, by
    simp only [componentRow, taken, bind, Except.bind]
    rfl⟩

theorem summarize_ok (usable : rates.Usable) (usableParams : params.Usable)
    {products : List Product} (listed : ∀ p ∈ products, p.Listed)
    (short : products.length < 2 ^ 63) : ∃ s, summarize rates params products = .ok s := by
  have each : ∀ p ∈ products, ∃ t, productTotals rates params p.components = .ok t ∧
      Small 47 t.totalCost ∧ Small 47 t.totalTime := by
    intro p member
    obtain ⟨⟨components, operations⟩, equipment⟩ := listed p member
    obtain ⟨t, taken⟩ := productTotals_ok usable usableParams components operations equipment
    obtain ⟨parts, -, sums⟩ := sumsOf_parts taken
    exact ⟨t, taken, small_of_total sums.totalCost, small_of_total sums.time⟩
  obtain ⟨parts, taken, length, small⟩ := mapM_each each
  have shortParts : parts.length < 2 ^ 63 := by omega
  obtain ⟨cost, costed⟩ := total_of_parts (fun t member => (small t member).1) shortParts
  obtain ⟨time, timed⟩ := total_of_parts (fun t member => (small t member).2) shortParts
  exact ⟨_, by
    simp only [summarize, taken, costed, timed, bind, Except.bind]
    rfl⟩

/-- All reports on products, at one table of rates and with one set of parameters, agree with each
other, and they can all be made if the rates and parameters have doubles. -/
theorem reports_agree (rates : RateTable) (params : EstimateParameters) :
    (∀ (p : Product) (rows : List OperationRow), operationRows rates p = .ok rows →
      List.Forall₂ (fun (work : Component × Operation) r => OperationRow.Of rates work.1 work.2 r)
        (p.components.flatMap fun c => c.operations.map fun o => (c, o)) rows) ∧
    (∀ (p : Product) (rows : List OperationRow) (summary : List ComponentRow),
      operationRows rates p = .ok rows → componentSummary rates p = .ok summary →
      InBlocks rates p.placements rows summary) ∧
    (∀ (p : Product) (summary : List ComponentRow) (totals : ProductTotals),
      componentSummary rates p = .ok summary →
      productTotals rates params p.components = .ok totals →
      SumsOf (summary.map ComponentRow.totals) totals) ∧
    (∀ (products : List Product) (s : ProjectSummary), summarize rates params products = .ok s →
      ∃ parts, s.Of rates params products parts) ∧
    (rates.Usable → params.Usable → ∀ products : List Product, (∀ p ∈ products, p.Listed) →
      products.length < 2 ^ 63 →
      (∀ p ∈ products, (∃ rows, operationRows rates p = .ok rows) ∧
        (∃ summary, componentSummary rates p = .ok summary) ∧
        ∃ totals, productTotals rates params p.components = .ok totals) ∧
      ∃ s, summarize rates params products = .ok s) := by
  refine ⟨?_, ?_, ?_, ?_, ?_⟩
  · intro p rows made
    obtain ⟨blocks, listed, rfl⟩ := operationRows_of made
    exact rows_in_order listed
  · intro p rows summary made summed
    obtain ⟨blocks, listed, rfl⟩ := operationRows_of made
    exact inBlocks_of listed summed
  · intro p summary totals summed taken
    exact sumsOf_summary summed taken
  · intro products s summarized
    exact projectSummary_of summarized
  · intro usable usableParams products listed short
    refine ⟨?_, summarize_ok usable usableParams listed short⟩
    intro p member
    have fits := listed p member
    exact ⟨operationRows_ok usable fits, componentSummary_ok usable fits,
      productTotals_ok usable usableParams fits.components fits.operations fits.equipment⟩

theorem shelf_reports_agree :
    ∃ rows summary totals s,
      operationRows .standard (Shelf.product Shelf.noon) = .ok rows ∧
      componentSummary .standard (Shelf.product Shelf.noon) = .ok summary ∧
      productTotals .standard .standard (Shelf.product Shelf.noon).components = .ok totals ∧
      summarize .standard .standard [Shelf.product Shelf.noon, Shelf.product Shelf.noon] = .ok s ∧
      InBlocks .standard (Shelf.product Shelf.noon).placements rows summary ∧
      SumsOf (summary.map ComponentRow.totals) totals ∧
      ∃ parts, s.Of .standard .standard [Shelf.product Shelf.noon, Shelf.product Shelf.noon]
        parts := by
  obtain ⟨-, inBlocks, sums, ofProject, made⟩ := reports_agree .standard .standard
  have listed : ∀ p ∈ [Shelf.product Shelf.noon, Shelf.product Shelf.noon], p.Listed := by
    intro p member
    obtain rfl : p = Shelf.product Shelf.noon := by simpa using member
    exact Product.refresh_listed (Shelf.draft_listed _)
  have usable : RateTable.standard.Usable := ⟨⟨_, rfl⟩, ⟨_, rfl⟩⟩
  have usableParams : EstimateParameters.standard.Usable := ⟨⟨_, rfl⟩, ⟨_, rfl⟩⟩
  obtain ⟨each, s, summarized⟩ := made usable usableParams _ listed (by decide)
  obtain ⟨⟨rows, breakdown⟩, ⟨summary, summed⟩, totals, taken⟩ := each _ List.mem_cons_self
  exact ⟨rows, summary, totals, s, breakdown, summed, taken, summarized,
    inBlocks _ _ _ breakdown summed, sums _ _ _ summed taken, ofProject _ _ summarized⟩

end Joinery.Estimate
