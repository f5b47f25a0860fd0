import Joinery.Proofs.Datum.Path
import Joinery.Proofs.Outcome
import Joinery.Settings

/-!
Settings merged over others. What the second holds at a path of names counts, two objects are merged
name by name, and where the second holds nothing the first is kept.
-/
namespace Joinery.Settings
open Datum

theorem merge_object (known fields : Record) :
    merge (.object known) (.object fields) = .object (mergeFields known fields) := rfl

theorem merge_of_not_object_left {base : Datum} (other : base.isObject = false) (d : Datum) :
    merge base d = d := by
  cases base <;> first | cases d <;> rfl | cases other

theorem merge_of_not_object {d : Datum} (other : d.isObject = false) (base : Datum) :
    merge base d = d := by
  cases d <;> first | rfl | cases other

theorem merge_null (d : Datum) : merge .null d = d := merge_of_not_object_left rfl d

def mergedEntries (known : Datum) (fields : Record) : Record :=
  fields.map fun entry => (entry.1, merge ((known.field? entry.1).getD .null) entry.2)

theorem names_mergedEntries (known : Datum) (fields : Record) :
    Keyed.names (mergedEntries known fields) = Keyed.names fields := by
  simp [Keyed.names, mergedEntries]

theorem mergeFields_eq {fields : Record} (distinct : (Keyed.names fields).Nodup) (known : Record) :
    mergeFields known fields = Keyed.setAll known (mergedEntries (.object known) fields) := by
  induction fields generalizing known with
  | nil => rfl
  | cons entry rest ih =>
    obtain ⟨name, d⟩ := entry
    obtain ⟨fresh, others⟩ := List.nodup_cons.mp distinct
    set value := merge ((Keyed.get? known name).getD .null) d with valued
    have step : mergeFields known ((name, d) :: rest) = mergeFields (Keyed.set known name value) rest :=
      rfl
    have same : mergedEntries (.object (Keyed.set known name value)) rest =
        mergedEntries (.object known) rest := by
      refine List.map_congr_left fun later member => ?_
      have apart : later.1 ≠ name := fun same => by
        have listed : later.1 ∈ Keyed.names rest := List.mem_map_of_mem member
        exact fresh (same ▸ listed)
      rw [field?_object, field?_object, Keyed.get?_set, if_neg apart]
    rw [step, ih others, same]
    rfl


theorem get?_mergedEntries (known : Datum) (fields : Record) (name : String) :
    Keyed.get? (mergedEntries known fields) name =
      (Keyed.get? fields name).map (merge ((known.field? name).getD .null)) := by
  induction fields with
  | nil => rfl
  | cons entry rest ih =>
    have step : mergedEntries known (entry :: rest) =
      (entry.1, merge ((known.field? entry.1).getD .null) entry.2) :: mergedEntries known rest := rfl
    obtain ⟨key, d⟩ := entry
    rw [step, Keyed.get?_cons, Keyed.get?_cons, ih]
    by_cases same : name = key
    · rw [if_pos same, if_pos same, same]
      rfl
    · rw [if_neg same, if_neg same]

/-- What a merged object has under a name. -/
theorem field?_merge {given : Datum} (distinct : given.Distinct) (object : given.isObject = true)
    (base : Datum) (name : String) :
    (merge base given).field? name =
      ((given.field? name).map (merge ((base.field? name).getD .null))).or (base.field? name) := by
  obtain ⟨fields, rfl⟩ := isObject_iff.mp object
  cases known : base.isObject with
  | false =>
    rw [merge_of_not_object_left known, field?_of_not_object known]
    cases (Datum.object fields).field? name with
    | none => rfl
    | some d => exact congrArg some (merge_null d).symm
  | true =>
    obtain ⟨own, rfl⟩ := isObject_iff.mp known
    have entries : (Keyed.names (mergedEntries (.object own) fields)).Nodup :=
      names_mergedEntries _ fields ▸ distinct.names
    rw [merge_object, mergeFields_eq distinct.names, field?_object, Keyed.get?_setAll,
      Keyed.get?_reverse entries, get?_mergedEntries]
    rfl

/-- Where the second value holds something, that is merged over what the first holds there. -/
theorem at?_merge_of_some {given d : Datum} {path : List String} (distinct : given.Distinct)
    (found : given.at? path = some d) (base : Datum) :
    (merge base given).at? path = some (merge ((base.at? path).getD .null) d) := by
  induction path generalizing given base with
  | nil =>
    obtain rfl := Option.some.inj found
    rfl
  | cons name path ih =>
    rw [at?_cons] at found
    obtain ⟨part, named, deeper⟩ := Option.bind_eq_some_iff.mp found
    rw [at?_cons, field?_merge distinct (isObject_of_field? named), named, ← at?_getD]
    exact ih (distinct.field named) deeper _

/-- Where the second value holds nothing, and nothing but objects on the way, the first is kept. -/
theorem at?_merge_of_none {given : Datum} {path : List String} (distinct : given.Distinct)
    (absent : given.at? path = none)
    (way : ∀ start, start <+: path → ∀ d, given.at? start = some d → d.isObject = true)
    (base : Datum) : (merge base given).at? path = base.at? path := by
  induction path generalizing given base with
  | nil => cases absent
  | cons name path ih =>
    have object : given.isObject = true := way [] List.nil_prefix given rfl
    rw [at?_cons] at absent
    rw [at?_cons, at?_cons, field?_merge distinct object]
    cases named : given.field? name with
    | none => rfl
    | some part =>
      rw [named] at absent
      have inside : ∀ start, start <+: path → ∀ d, part.at? start = some d → d.isObject = true := by
        intro start before d found
        refine way (name :: start) (List.cons_prefix_cons.mpr ⟨rfl, before⟩) d ?_
        rw [at?_cons, named]
        exact found
      have inner := ih (distinct.field named) absent inside ((base.field? name).getD .null)
      cases known : base.field? name with
      | some below =>
        rw [known] at inner
        exact inner
      | none =>
        rw [known] at inner
        refine inner.trans ?_
        cases path with
        | nil => cases absent
        | cons next path => rfl

theorem merge_again {given : Datum} (distinct : given.Distinct) (base : Datum) :
    merge (merge base given) given = merge base given := by
  induction distinct generalizing base with
  | other not => rw [merge_of_not_object not, merge_of_not_object not]
  | @object fields names parts ih =>
    have distinct : Distinct (.object fields) := .object names parts
    have object : ∃ merged, merge base (.object fields) = .object merged := by
      cases base <;> exact ⟨_, rfl⟩
    obtain ⟨merged, isMerged⟩ := object
    have held : ∀ entry ∈ mergedEntries (.object merged) fields,
        Keyed.get? merged entry.1 = some entry.2 := by
      intro entry member
      obtain ⟨⟨name, d⟩, own, rfl⟩ := List.mem_map.mp member
      have found : (Datum.object fields).field? name = some d := Keyed.get?_of_mem names own
      have here : (Datum.object merged).field? name =
          some (merge ((base.field? name).getD .null) d) := by
        rw [← isMerged, field?_merge distinct rfl, found]
        rfl
      have again := ih (name, d) own ((base.field? name).getD .null)
      simp only [here, Option.getD_some, again]
      exact here
    rw [isMerged, merge_object, mergeFields_eq names, Keyed.setAll_of_get? held]

theorem deeperThan_merge {given base : Datum} {levels : Nat} (distinct : given.Distinct)
    (shallow : base.deeperThan levels = false) :
    (merge base given).deeperThan levels = given.deeperThan levels := by
  induction levels generalizing given base with
  | zero => cases shallow
  | succ levels ih =>
    cases object : given.isObject with
    | false => rw [merge_of_not_object object]
    | true =>
      cases under : base.isObject with
      | false => rw [merge_of_not_object_left under]
      | true =>
        obtain ⟨fields, rfl⟩ := isObject_iff.mp object
        obtain ⟨known, rfl⟩ := isObject_iff.mp under
        have kept : ∀ entry ∈ known, entry.2.deeperThan levels = false := fun entry member =>
          Bool.eq_false_iff.mpr (List.any_eq_false.mp shallow entry member)
        -- below a given field is either nothing or a part of the shallow base
        have part {name : String} {d : Datum} (own : (name, d) ∈ fields) :
            (merge ((Keyed.get? known name).getD .null) d).deeperThan levels = d.deeperThan levels := by
          cases found : Keyed.get? known name with
          | none => exact congrArg (deeperThan levels) (merge_null d)
          | some below => exact ih (distinct.fields _ own) (kept _ (Keyed.mem_of_get? found))
        rw [Bool.eq_iff_iff, merge_object]
        refine List.any_eq_true.trans (Iff.trans ?_ List.any_eq_true.symm)
        constructor
        · rintro ⟨entry, member, deep⟩
          rw [mergeFields_eq distinct.names] at member
          rcases Keyed.mem_of_mem_setAll member with merged | old
          · obtain ⟨⟨name, d⟩, own, rfl⟩ := List.mem_map.mp merged
            exact ⟨(name, d), own, (part own).symm.trans deep⟩
          · exact absurd deep (Bool.eq_false_iff.mp (kept entry old))
        · rintro ⟨⟨name, d⟩, own, deep⟩
          have here := field?_merge distinct rfl (.object known) name
          rw [field?_object fields, Keyed.get?_of_mem distinct.names own] at here
          exact ⟨_, Keyed.mem_of_get? here, (part own).trans deep⟩

theorem names_mergeFields {fields : Record} (distinct : (Keyed.names fields).Nodup) (known : Record) :
    Keyed.names (mergeFields known fields) =
      Keyed.names known ++ (Keyed.names fields).filter (· ∉ Keyed.names known) := by
  have entries : (Keyed.names (mergedEntries (.object known) fields)).Nodup :=
    names_mergedEntries _ fields ▸ distinct
  rw [mergeFields_eq distinct, Keyed.names_setAll known entries, names_mergedEntries]

/-- What merging means at every path of names. -/
structure DeepMerge (base given merged : Record) : Prop where
  /-- What is given counts, unless it is an object that meets another one. -/
  taken (path : List String) (d : Datum) : (Datum.object given).at? path = some d →
    (d.isObject = false ∨
      ∀ known, (Datum.object base).at? path = some known → known.isObject = false) →
    (Datum.object merged).at? path = some d
  /-- Where nothing is given, and nothing but objects on the way, what was there stays. -/
  kept (path : List String) : (Datum.object given).at? path = none →
    (∀ start, start <+: path → ∀ d, (Datum.object given).at? start = some d → d.isObject = true) →
    (Datum.object merged).at? path = (Datum.object base).at? path
  /-- Two objects come to one with the names of both. -/
  united (path : List String) (known fields : Record) :
    (Datum.object base).at? path = some (.object known) →
    (Datum.object given).at? path = some (.object fields) →
    ∃ both, (Datum.object merged).at? path = some (.object both) ∧
      Keyed.names both = Keyed.names known ++ (Keyed.names fields).filter (· ∉ Keyed.names known)

theorem deepMerge_mergeFields (base : Record) {given : Record}
    (distinct : (Datum.object given).Distinct) : DeepMerge base given (mergeFields base given) where
  taken path d found apart := by
    have merged := at?_merge_of_some distinct found (.object base)
    rw [merge_object] at merged
    rw [merged]
    rcases apart with other | apart
    · rw [merge_of_not_object other]
    · have below : (((Datum.object base).at? path).getD .null).isObject = false := by
        cases known : (Datum.object base).at? path with
        | none => rfl
        | some known' => exact apart known' known
      rw [merge_of_not_object_left below]
  kept path absent way := by
    rw [← merge_object]
    exact at?_merge_of_none distinct absent way (.object base)
  united path known fields below above := by
    have merged := at?_merge_of_some distinct above (.object base)
    rw [merge_object, below] at merged
    exact ⟨_, merged, names_mergeFields (distinct.at? above).names known⟩

/-- Merging is deep, doing it again changes nothing, and nothing to merge changes nothing. -/
theorem mergeFields_laws (base given : Record) (distinct : (Datum.object given).Distinct) :
    DeepMerge base given (mergeFields base given) ∧
      mergeFields (mergeFields base given) given = mergeFields base given ∧
      mergeFields base [] = base := by
  refine ⟨deepMerge_mergeFields base distinct, ?_, rfl⟩
  have again := merge_again distinct (.object base)
  rw [merge_object, merge_object] at again
  exact Datum.object.inj again

theorem mergeFields_laws_nested :
    let base : Record := [("a", .object [("b", .int 1), ("c", .object [])]), ("d", .int 2)]
    let given : Record := [("d", .object [("b", .null)]), ("a", .object [("c", .int 3), ("e", .int 4)])]
    let merged : Record :=
      [("a", .object [("b", .int 1), ("c", .int 3), ("e", .int 4)]), ("d", .object [("b", .null)])]
    (Datum.object given).Distinct ∧ mergeFields base given = merged ∧ DeepMerge base given merged := by
  intro base given merged
  have distinct : (Datum.object given).Distinct := by
    have null : (Datum.object [("b", .null)]).Distinct :=
      .object (by decide) (List.forall_mem_singleton.mpr (.other rfl))
    have numbers : (Datum.object [("c", .int 3), ("e", .int 4)]).Distinct :=
      .object (by decide) (List.forall_mem_cons.mpr
        ⟨.other rfl, List.forall_mem_singleton.mpr (.other rfl)⟩)
    exact .object (by decide) (List.forall_mem_cons.mpr
      ⟨null, List.forall_mem_singleton.mpr numbers⟩)
  exact ⟨distinct, rfl, (mergeFields_laws base given distinct).1⟩

theorem merged_of_contents {s : Surroundings} {path : String} {contents : Contents}
    (named : s.settingsPath = .ok (some path)) (there : s.file? path = some contents) :
    merged s = (ofOverride (parse path contents)).map (mergeFields packaged) := by
  simp only [merged, named, ok_bind, there]

theorem parse_object {path text : String} {given : Record} :
    parse path (.text text) = .ok given ↔ Json.readWhole text = .ok (.object given) := by
  rw [parse, bind_ok, Json.read]
  cases Json.readWhole text with
  | ok d => cases d <;> simp [Except.mapError, throw, throwThe, MonadExceptOf.throw, pure, Except.pure]
  | error refusal => simp [Except.mapError]

/-- Settings of a file are merged over the packaged ones, however they are nested, and can be copied if
those of the file can. -/
theorem load_deep {s : Surroundings} {path text : String} {given : Record}
    (named : s.settingsPath = .ok (some path)) (there : s.file? path = some (.text text))
    (read : Json.readWhole text = .ok (.object given)) :
    ∃ whole, merged s = .ok whole ∧ DeepMerge packaged given whole ∧
      (Datum.object whole).deeperThan mostCopied = (Datum.object given).deeperThan mostCopied := by
  have distinct := Json.distinct_of_readWhole read
  refine ⟨mergeFields packaged given, ?_, deepMerge_mergeFields packaged distinct, ?_⟩
  · rw [merged_of_contents named there, parse_object.mpr read]
    rfl
  · rw [← merge_object]
    exact deeperThan_merge distinct (by decide)

end Joinery.Settings
