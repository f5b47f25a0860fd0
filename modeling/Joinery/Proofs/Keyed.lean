import Joinery.Keyed
import Mathlib

/-!
What a table holds after a name is set, and after many are.
-/
namespace Joinery.Keyed
variable {α : Type}

theorem get?_cons (key name : String) (value : α) (rest : Keyed α) :
    get? ((key, value) :: rest) name = if name = key then some value else rest.get? name := by
  simp only [get?, List.lookup]
  by_cases same : name = key
  · simp [same]
  · have apart : (name == key) = false := beq_false_of_ne same
    simp [same, apart]

theorem mem_of_get? {table : Keyed α} {name : String} {value : α}
    (found : table.get? name = some value) : (name, value) ∈ table := by
  obtain ⟨before, after, same, -⟩ := List.lookup_eq_some_iff.mp found
  exact same ▸ List.mem_append_cons_self

theorem set_cons_self (key : String) (old value : α) (rest : Keyed α) :
    set ((key, old) :: rest) key value = (key, value) :: rest := by
  simp [set]

theorem set_cons_other {other key : String} (apart : other ≠ key) (old value : α) (rest : Keyed α) :
    set ((other, old) :: rest) key value = (other, old) :: set rest key value := by
  simp [set, apart]

theorem get?_set (table : Keyed α) (key name : String) (value : α) :
    (table.set key value).get? name = if name = key then some value else table.get? name := by
  induction table with
  | nil => exact get?_cons key name value []
  | cons entry rest ih =>
    obtain ⟨other, old⟩ := entry
    by_cases here : other = key
    · subst here
      rw [set_cons_self, get?_cons, get?_cons]
      split <;> rfl
    · rw [set_cons_other here, get?_cons, get?_cons, ih]
      by_cases same : name = other
      · simp [same, here]
      · simp [same]

theorem get?_append (first second : Keyed α) (name : String) :
    get? (first ++ second) name = (first.get? name).or (second.get? name) := List.lookup_append

theorem get?_setAll (table entries : Keyed α) (name : String) :
    (table.setAll entries).get? name = (get? entries.reverse name).or (table.get? name) := by
  induction entries generalizing table with
  | nil => rfl
  | cons entry rest ih =>
    obtain ⟨key, value⟩ := entry
    have first : table.setAll ((key, value) :: rest) = (table.set key value).setAll rest := rfl
    have single : get? [(key, value)] name = if name = key then some value else none :=
      get?_cons key name value []
    rw [first, ih, get?_set, List.reverse_cons, get?_append, single, Option.or_assoc]
    split <;> rfl

theorem has_iff_mem_names {table : Keyed α} {name : String} :
    table.has name = true ↔ name ∈ table.names := by
  simp [has, get?, names]

theorem has_reverse {table : Keyed α} {name : String} :
    has table.reverse name = true ↔ name ∈ table.names := by
  rw [has_iff_mem_names]
  simp [names]

theorem has_setAll {table entries : Keyed α} {name : String} :
    (table.setAll entries).has name = true ↔ name ∈ entries.names ∨ table.has name = true := by
  rw [← has_reverse]
  simp only [has, get?_setAll, Option.isSome_or, Bool.or_eq_true]

theorem get?_setAll_other {table entries : Keyed α} {name : String} (absent : name ∉ entries.names) :
    (table.setAll entries).get? name = table.get? name := by
  have none : get? entries.reverse name = none := by
    rw [← Option.not_isSome_iff_eq_none]
    exact mt has_reverse.mp absent
  rw [get?_setAll, none, Option.none_or]

theorem get?_of_mem {table : Keyed α} {name : String} {value : α} (distinct : table.names.Nodup)
    (member : (name, value) ∈ table) : table.get? name = some value := by
  induction table with
  | nil => cases member
  | cons entry rest ih =>
    obtain ⟨key, old⟩ := entry
    obtain ⟨fresh, others⟩ := List.nodup_cons.mp distinct
    rw [get?_cons]
    rcases List.mem_cons.mp member with same | later
    · obtain ⟨rfl, rfl⟩ := Prod.mk.inj same
      exact if_pos rfl
    · have listed : name ∈ names rest := List.mem_map_of_mem later
      have apart : name ≠ key := fun same => fresh (same ▸ listed)
      rw [if_neg apart]
      exact ih others later

theorem get?_iff_mem {table : Keyed α} {name : String} {value : α} (distinct : table.names.Nodup) :
    table.get? name = some value ↔ (name, value) ∈ table :=
  ⟨mem_of_get?, get?_of_mem distinct⟩

theorem get?_reverse {table : Keyed α} (distinct : table.names.Nodup) (name : String) :
    get? table.reverse name = table.get? name := by
  have reversed : (names table.reverse).Nodup := by
    rw [names, List.map_reverse, List.nodup_reverse]
    exact distinct
  apply Option.ext
  intro value
  rw [get?_iff_mem reversed, get?_iff_mem distinct, List.mem_reverse]

/-! Tables as lists: which entries they hold and where. -/

theorem set_absent {table : Keyed α} {key : String} (absent : key ∉ table.names) (value : α) :
    table.set key value = table ++ [(key, value)] := by
  induction table with
  | nil => rfl
  | cons entry rest ih =>
    obtain ⟨other, old⟩ := entry
    obtain ⟨apart, later⟩ := not_or.mp (mt List.mem_cons.mpr absent)
    rw [set_cons_other (Ne.symm apart), ih later, List.cons_append]

theorem names_set_present {table : Keyed α} {key : String} (present : key ∈ table.names) (value : α) :
    (table.set key value).names = table.names := by
  induction table with
  | nil => cases present
  | cons entry rest ih =>
    obtain ⟨other, old⟩ := entry
    by_cases here : other = key
    · subst here
      rw [set_cons_self]
      rfl
    · have later : key ∈ names rest := (List.mem_cons.mp present).resolve_left (Ne.symm here)
      rw [set_cons_other here]
      exact congrArg (other :: ·) (ih later)

theorem names_set_absent {table : Keyed α} {key : String} (absent : key ∉ table.names) (value : α) :
    (table.set key value).names = table.names ++ [key] := by
  rw [set_absent absent, names, List.map_append]
  rfl

theorem mem_names_set (table : Keyed α) (key : String) (value : α) :
    key ∈ (table.set key value).names := by
  by_cases present : key ∈ table.names
  · rwa [names_set_present present]
  · rw [names_set_absent present]
    exact List.mem_append_right _ List.mem_cons_self

theorem mem_names_of_set {table : Keyed α} {key name : String} (value : α)
    (member : name ∈ table.names) : name ∈ (table.set key value).names := by
  by_cases present : key ∈ table.names
  · rwa [names_set_present present]
  · rw [names_set_absent present]
    exact List.mem_append_left _ member

theorem nodup_set {table : Keyed α} (distinct : table.names.Nodup) (key : String) (value : α) :
    (table.set key value).names.Nodup := by
  by_cases present : key ∈ table.names
  · rwa [names_set_present present]
  · rw [names_set_absent present, ← List.concat_eq_append, List.nodup_concat]
    exact ⟨present, distinct⟩

theorem nodup_setAll {table : Keyed α} (distinct : table.names.Nodup) (entries : Keyed α) :
    (table.setAll entries).names.Nodup := by
  induction entries generalizing table with
  | nil => exact distinct
  | cons entry rest ih => exact ih (nodup_set distinct entry.1 entry.2)

theorem nodup_ofPairs (pairs : Keyed α) : (ofPairs pairs).names.Nodup := by
  have none : (names ([] : Keyed α)).Nodup := List.nodup_nil
  exact nodup_setAll none pairs

theorem mem_of_mem_set {table : Keyed α} {key : String} {value : α} {entry : String × α}
    (member : entry ∈ table.set key value) : entry = (key, value) ∨ entry ∈ table := by
  induction table with
  | nil => exact Or.inl (List.mem_singleton.mp member)
  | cons first rest ih =>
    obtain ⟨other, old⟩ := first
    by_cases here : other = key
    · subst here
      rw [set_cons_self] at member
      exact (List.mem_cons.mp member).imp_right (List.mem_cons_of_mem _)
    · rw [set_cons_other here] at member
      rcases List.mem_cons.mp member with rfl | later
      · exact Or.inr List.mem_cons_self
      · exact (ih later).imp_right (List.mem_cons_of_mem _)

theorem mem_of_mem_setAll {table entries : Keyed α} {entry : String × α}
    (member : entry ∈ table.setAll entries) : entry ∈ entries ∨ entry ∈ table := by
  induction entries generalizing table with
  | nil => exact Or.inr member
  | cons first rest ih =>
    rcases ih member with later | changed
    · exact Or.inl (List.mem_cons_of_mem first later)
    · rcases mem_of_mem_set changed with rfl | own
      · exact Or.inl List.mem_cons_self
      · exact Or.inr own

theorem setAll_append (table first second : Keyed α) :
    table.setAll (first ++ second) = (table.setAll first).setAll second := List.foldl_append

theorem set_set (table : Keyed α) (key : String) (old value : α) :
    (table.set key old).set key value = table.set key value := by
  induction table with
  | nil => exact set_cons_self key old value []
  | cons entry rest ih =>
    obtain ⟨other, kept⟩ := entry
    by_cases here : other = key
    · subst here
      rw [set_cons_self, set_cons_self, set_cons_self]
    · rw [set_cons_other here, set_cons_other here, set_cons_other here, ih]

theorem set_comm {table : Keyed α} {key other : String} (apart : other ≠ key)
    (present : key ∈ table.names) (a value : α) :
    (table.set other a).set key value = (table.set key value).set other a := by
  induction table with
  | nil => cases present
  | cons entry rest ih =>
    obtain ⟨name, kept⟩ := entry
    by_cases here : name = key
    · subst here
      rw [set_cons_other (Ne.symm apart), set_cons_self, set_cons_self,
        set_cons_other (Ne.symm apart)]
    · have later : key ∈ names rest := (List.mem_cons.mp present).resolve_left (Ne.symm here)
      rw [set_cons_other here]
      by_cases there : name = other
      · subst there
        rw [set_cons_self, set_cons_self, set_cons_other here]
      · rw [set_cons_other there, set_cons_other here, set_cons_other there, ih later]

theorem setAll_set_comm {table entries : Keyed α} {key : String} (apart : key ∉ entries.names)
    (present : key ∈ table.names) (value : α) :
    (table.setAll entries).set key value = (table.set key value).setAll entries := by
  induction entries generalizing table with
  | nil => rfl
  | cons entry rest ih =>
    obtain ⟨name, a⟩ := entry
    obtain ⟨other, later⟩ := not_or.mp (mt List.mem_cons.mpr apart)
    have step (t : Keyed α) : t.setAll ((name, a) :: rest) = (t.set name a).setAll rest := rfl
    rw [step, step, ih later (mem_names_of_set a present), set_comm (Ne.symm other) present]

theorem setAll_set (table : Keyed α) {entries : Keyed α} (distinct : entries.names.Nodup)
    (key : String) (value : α) :
    table.setAll (entries.set key value) = (table.setAll entries).set key value := by
  induction entries generalizing table with
  | nil => rfl
  | cons entry rest ih =>
    obtain ⟨name, a⟩ := entry
    obtain ⟨fresh, others⟩ := List.nodup_cons.mp distinct
    have step (b : α) : table.setAll ((name, b) :: rest) = (table.set name b).setAll rest := rfl
    by_cases here : name = key
    · subst here
      rw [set_cons_self, step, step, setAll_set_comm fresh (mem_names_set table name a), set_set]
    · have stepSet : table.setAll ((name, a) :: set rest key value) =
          (table.set name a).setAll (set rest key value) := rfl
      rw [set_cons_other here, stepSet, step, ih _ others]

theorem setAll_ofPairs (table pairs : Keyed α) : table.setAll (ofPairs pairs) = table.setAll pairs := by
  induction pairs using List.reverseRecOn with
  | nil => rfl
  | append_singleton pairs last ih =>
    have made : ofPairs (pairs ++ [last]) = (ofPairs pairs).set last.1 last.2 :=
      setAll_append [] pairs [last]
    have step : table.setAll (pairs ++ [last]) = (table.setAll pairs).set last.1 last.2 :=
      setAll_append table pairs [last]
    rw [made, setAll_set table (nodup_ofPairs pairs), ih, step]

theorem setAll_disjoint {table entries : Keyed α} (distinct : (table ++ entries).names.Nodup) :
    table.setAll entries = table ++ entries := by
  induction entries generalizing table with
  | nil => exact (List.append_nil table).symm
  | cons entry rest ih =>
    have split : table ++ entry :: rest = (table ++ [entry]) ++ rest := by simp
    have fresh : entry.1 ∉ table.names := by
      rw [names, List.map_append, List.map_cons] at distinct
      exact (List.nodup_middle.mp distinct).notMem ∘ List.mem_append_left _
    have step : table.setAll (entry :: rest) = (table.set entry.1 entry.2).setAll rest := rfl
    rw [step, set_absent fresh, split]
    exact ih (split ▸ distinct)

theorem ofPairs_of_nodup {table : Keyed α} (distinct : table.names.Nodup) : ofPairs table = table :=
  @setAll_disjoint α [] table distinct

theorem set_of_get? {table : Keyed α} {name : String} {value : α}
    (held : table.get? name = some value) : table.set name value = table := by
  induction table with
  | nil => cases held
  | cons entry rest ih =>
    obtain ⟨other, old⟩ := entry
    rw [get?_cons] at held
    by_cases here : name = other
    · subst here
      rw [if_pos rfl] at held
      rw [set_cons_self, Option.some.inj held]
    · rw [if_neg here] at held
      rw [set_cons_other (Ne.symm here), ih held]

theorem setAll_of_get? {table entries : Keyed α}
    (held : ∀ entry ∈ entries, table.get? entry.1 = some entry.2) : table.setAll entries = table := by
  induction entries with
  | nil => rfl
  | cons entry rest ih =>
    have step : table.setAll (entry :: rest) = (table.set entry.1 entry.2).setAll rest := rfl
    rw [step, set_of_get? (held entry List.mem_cons_self)]
    exact ih fun later member => held later (List.mem_cons_of_mem entry member)

theorem names_setAll (table : Keyed α) {entries : Keyed α} (distinct : entries.names.Nodup) :
    (table.setAll entries).names = table.names ++ entries.names.filter (· ∉ table.names) := by
  induction entries generalizing table with
  | nil => exact (List.append_nil _).symm
  | cons entry rest ih =>
    obtain ⟨fresh, others⟩ := List.nodup_cons.mp distinct
    have step : table.setAll (entry :: rest) = (table.set entry.1 entry.2).setAll rest := rfl
    have listed : names (entry :: rest) = entry.1 :: names rest := rfl
    rw [step, ih _ others, listed, List.filter_cons]
    by_cases present : entry.1 ∈ table.names
    · rw [names_set_present present]
      simp [present]
    · have same : (names rest).filter (· ∉ table.names ++ [entry.1]) =
          (names rest).filter (· ∉ table.names) := by
        refine List.filter_congr fun name member => ?_
        have apart : name ≠ entry.1 := fun same => fresh (same ▸ member)
        simp [apart]
      rw [names_set_absent present, same]
      simp [present]

end Joinery.Keyed
