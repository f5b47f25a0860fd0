import Joinery.Proofs.Datum.Shown
import Joinery.Proofs.Record.Reading
import Joinery.Record.Reference

/-!
What readers of records can fail at. A wrong value and a wrong type are reported as a fault of the
record. Three causes pass through all readers: a whole number past the largest double in a field that is
read as a number, a value that lies too deep to be shown, and a sum over more values than any list holds.
-/
namespace Joinery

def Outcome.FailsAs {α : Type} (sort : Fault → Prop) (x : Outcome α) : Prop :=
  ∀ f, x = .error f → sort f

namespace Outcome.FailsAs
variable {α β : Type} {sort : Fault → Prop}

theorem ok (a : α) : FailsAs sort (.ok a) := nofun

theorem error {f : Fault} (of : sort f) : FailsAs (α := α) sort (.error f) := by
  intro g same
  obtain rfl := Except.error.inj same
  exact of

theorem imp {other : Fault → Prop} {x : Outcome α} (fails : FailsAs sort x)
    (each : ∀ f, sort f → other f) : FailsAs other x := fun f failed => each f (fails f failed)

theorem bind {x : Outcome α} {f : α → Outcome β} (first : FailsAs sort x)
    (later : ∀ a, x = .ok a → FailsAs sort (f a)) : FailsAs sort (x >>= f) := by
  cases x with
  | ok a => exact later a rfl
  | error fault => exact error (first fault rfl)

theorem map {x : Outcome α} {f : α → β} (fails : FailsAs sort x) : FailsAs sort (x.map f) := by
  cases x with
  | ok a => exact ok (f a)
  | error fault => exact error (fails fault rfl)

theorem mapM {f : α → Outcome β} {xs : List α} (each : ∀ a ∈ xs, FailsAs sort (f a)) :
    FailsAs sort (xs.mapM f) := by
  induction xs with
  | nil => exact ok []
  | cons a xs ih =>
    rw [List.mapM_cons]
    refine bind (each a (by simp)) fun b _ => ?_
    exact bind (ih fun x member => each x (by simp [member])) fun bs _ => ok (b :: bs)

theorem filterMapM {f : α → Outcome (Option β)} {xs : List α} (each : ∀ a, FailsAs sort (f a)) :
    FailsAs sort (xs.filterMapM f) := by
  induction xs with
  | nil => exact ok []
  | cons a xs ih =>
    rw [List.filterMapM_cons]
    refine bind (each a) fun kept _ => ?_
    cases kept with
    | none => exact ih
    | some b => exact bind ih fun bs _ => ok (b :: bs)

theorem foldlM {f : β → α → Outcome β} {xs : List α} {start : β}
    (each : ∀ b a, FailsAs sort (f b a)) : FailsAs sort (xs.foldlM f start) := by
  induction xs generalizing start with
  | nil => exact ok start
  | cons a xs ih =>
    rw [List.foldlM_cons]
    exact bind (each start a) fun next _ => ih

theorem mapM_option {f : α → Outcome β} {part : Option α} (each : ∀ a ∈ part, FailsAs sort (f a)) :
    FailsAs sort (part.mapM f) := by
  cases part with
  | none => exact ok none
  | some a => exact map (each a rfl)

theorem readEach {κ : Type} {read : κ → Datum → Outcome (α × κ)} {ds : List Datum}
    (each : ∀ known, ∀ d ∈ ds, FailsAs sort (read known d)) (known : κ) :
    FailsAs sort (readEach read known ds) := by
  induction ds generalizing known with
  | nil => exact ok _
  | cons d ds ih =>
    refine bind (each known d (by simp)) fun _ _ => ?_
    exact bind (ih (fun known e member => each known e (by simp [member])) _) fun _ _ => ok _

end Outcome.FailsAs

/-- No part of a value lies deeper than the value itself goes. -/
theorem Datum.Holds.shallow {whole part : Datum} {levels : Nat} (held : whole.Holds part)
    (shallow : whole.deeperThan levels = false) : part.deeperThan levels = false := by
  induction held with
  | self => exact shallow
  | item _ member ih =>
    cases levels with
    | zero => exact ih
    | succ levels =>
      have inner := List.any_eq_false.mp ih _ member
      exact Bool.eq_false_iff.mpr (mt deeperThan_of_succ inner)
  | field _ member ih =>
    cases levels with
    | zero => exact ih
    | succ levels =>
      have inner := List.any_eq_false.mp ih _ member
      exact Bool.eq_false_iff.mpr (mt deeperThan_of_succ inner)

/-- More elements than any list can hold. -/
def Datum.Endless (d : Datum) : Prop := ∃ ds, d.elements = .ok ds ∧ 2 ^ 63 ≤ ds.length

def Record.numberFields : List String := [
  "defaultValue", "minValue", "maxValue", "baseTime", "sizeFactor", "complexityFactor", "length",
  "width", "thickness", "count", "size", "actualTime", "quantity", "edgeCount", "assemblyOrder",
  "estimatedTime"]

/-- What passes through the readers of a record: a field that has no double, a value that lies too deep
to be shown, and a list without end. -/
inductive Fault.Escapes (whole : Datum) : Fault → Prop where
  | giant {fields : Record} {key : String} {d : Datum} :
      whole.Holds (.object fields) → key ∈ Record.numberFields → fields.lookup key = some d →
      d.Giant → Escapes whole .integerTooLarge
  | deep {d : Datum} : whole.Holds d → d.TooDeep → Escapes whole .nestedTooDeep
  | endless {d : Datum} : whole.Holds d → d.Endless → Escapes whole .sumTooLarge

def Fault.Reported (f : Fault) : Prop := f.kind = .value ∨ f.kind = .type

/-- The faults that can come up while a record is read. -/
def Fault.Expected (whole : Datum) (f : Fault) : Prop := f.Reported ∨ f.Escapes whole

theorem Fault.Escapes.within {whole part : Datum} {f : Fault} (held : whole.Holds part)
    (escapes : f.Escapes part) : f.Escapes whole := by
  cases escapes with
  | giant inner counted found giant => exact .giant (held.trans inner) counted found giant
  | deep inner deep => exact .deep (held.trans inner) deep
  | endless inner endless => exact .endless (held.trans inner) endless

theorem Fault.Expected.within {whole part : Datum} {f : Fault} (held : whole.Holds part)
    (expected : f.Expected part) : f.Expected whole := expected.imp id (Escapes.within held)

open Outcome (FailsAs)

theorem Fault.Expected.value {whole : Datum} {f : Fault} (kind : f.kind = .value) :
    f.Expected whole := Or.inl (Or.inl kind)

/-- A wrong value stays one where its message cannot be shown, unless what it shows lies too deep. -/
theorem Fault.raised_fails {whole : Datum} {f : Fault} (kind : f.kind = .value)
    (held : ∀ d ∈ f.shownValues, d.TooDeep → whole.Holds d) :
    f.raised.kind = .value ∨ f.raised.Escapes whole := by
  rcases f.raised_cases with same | long | ⟨deep, d, shown, part⟩
  · exact Or.inl (by rw [same]; exact kind)
  · exact Or.inl (by rw [long]; rfl)
  · exact Or.inr (deep ▸ .deep (held d shown part) part)

theorem Outcome.within_fails {α : Type} {x : Outcome α} {whole : Datum} {wrap : Fault → Fault}
    (fails : FailsAs (Fault.Expected whole) x) (wrapped : ∀ f, (wrap f).kind = .value)
    (held : ∀ f, ∀ d ∈ (wrap f).shownValues, whole.Holds d) :
    FailsAs (fun f => f.kind = .value ∨ f.Escapes whole) (x.within wrap) := by
  cases x with
  | ok a => exact FailsAs.ok a
  | error f =>
    refine FailsAs.error ?_
    rcases fails f rfl with reported | escapes
    · have caught : (f.isOfValue || f.kind = .type) = true := by
        rcases reported with kind | kind <;> simp [Fault.isOfValue, kind]
      rw [if_pos (by simpa using caught)]
      exact Fault.raised_fails (wrapped f) fun d shown _ => held f d shown
    · right
      cases escapes with
      | giant held counted found giant => exact .giant held counted found giant
      | deep held deep => exact .deep held deep
      | endless held endless => exact .endless held endless

/-! Single values. -/

/-- A value that is read as a number, and shown where it is none. -/
def Fault.OfNumber (d : Datum) (f : Fault) : Prop :=
  f.Reported ∨ (f = .integerTooLarge ∧ d.Giant) ∨ (f = .nestedTooDeep ∧ d.TooDeep)

theorem Fault.OfNumber.value {d : Datum} {f : Fault} (kind : f.kind = .value) : f.OfNumber d :=
  Or.inl (Or.inl kind)

theorem Fault.OfNumber.raised {d : Datum} {f : Fault} (kind : f.kind = .value)
    (shown : f.shownValues = [d]) : f.raised.OfNumber d := by
  rcases f.raised_cases with same | long | ⟨deep, e, member, part⟩
  · exact .value (by rw [same]; exact kind)
  · exact .value (by rw [long]; rfl)
  · obtain rfl : e = d := by simpa [shown] using member
    exact Or.inr (Or.inr ⟨deep, part⟩)

namespace Datum

theorem toFloat_error (d : Datum) :
    FailsAs (fun f => f.Reported ∨ f = .integerTooLarge ∧ d.Giant) d.toFloat := by
  cases d with
  | number n => exact fun f fails => Or.inr (Numeral.toFloat_error_iff.mp fails)
  | bool b => exact .ok _
  | text s =>
    simp only [toFloat]
    split
    · exact .ok _
    · exact .error (Or.inl (Or.inl rfl))
  | null | list _ | object _ => exact .error (Or.inl (Or.inr rfl))

theorem toFloat_fails (d : Datum) : FailsAs (Fault.OfNumber d) d.toFloat :=
  d.toFloat_error.imp fun _ => Or.imp_right Or.inl

theorem finite?_fails (d : Datum) : FailsAs (Fault.OfNumber d) d.finite? := by
  cases d with
  | number n => exact .map fun f fails => Or.inr (Or.inl (Numeral.toFloat_error_iff.mp fails))
  | text _ | null | bool _ | list _ | object _ => exact .ok _

theorem nonNegative_fails (field : String) (d : Datum) :
    FailsAs (Fault.OfNumber d) (d.nonNegative field) := by
  refine .bind d.finite?_fails fun found _ => ?_
  split
  · split
    · exact .error (.raised rfl rfl)
    · exact .ok _
  · exact .error (.raised rfl rfl)

theorem count_fails (least : Nat) (field : String) (d : Datum) :
    FailsAs (Fault.OfNumber d) (d.count least field) := by
  refine .map (.bind d.finite?_fails fun found _ => ?_)
  split
  · split
    · exact .ok _
    · exact .error (.raised rfl rfl)
  · exact .error (.raised rfl rfl)

variable {whole : Datum}

theorem expected_of_unshown {d : Datum} {f : Fault}
    (cause : f = .tooLongToShow ∨ f = .nestedTooDeep ∧ d.TooDeep) : f.Expected d := by
  rcases cause with rfl | ⟨rfl, deep⟩
  · exact .value rfl
  · exact Or.inr (.deep .self deep)

theorem asText_fails (d : Datum) : FailsAs (Fault.Expected d) d.asText :=
  fun _ fails => expected_of_unshown (asText_error fails)

theorem givenText_fails (d : Datum) : FailsAs (Fault.Expected d) d.givenText :=
  fun _ fails => expected_of_unshown (givenText_error fails)

theorem asRecord_value (kind : String) (d : Datum) :
    FailsAs (fun f => f.kind = .value) (d.asRecord kind) := by
  unfold asRecord
  split
  · exact .ok _
  · exact .error rfl

theorem asRecord_fails (kind : String) (d : Datum) :
    FailsAs (Fault.Expected whole) (d.asRecord kind) := (asRecord_value kind d).imp fun _ => .value

theorem elements_fails (d : Datum) : FailsAs (Fault.Expected whole) d.elements := by
  cases d with
  | text _ | list _ | object _ => exact .ok _
  | null | bool _ | number _ => exact .error (Or.inl (Or.inr rfl))

theorem moment_fails (field : String) (d : Datum) : FailsAs (Fault.Expected d) (d.moment field) := by
  refine .bind d.givenText_fails fun _ _ => ?_
  split
  · exact .ok _
  · exact .error (.value rfl)

end Datum

theorem Choice.read_fails {α : Type} [Choice α] (d : Datum) :
    FailsAs (Fault.Expected d) (Choice.read d : Outcome α) := by
  refine .bind d.givenText_fails fun _ _ => ?_
  split
  · exact .ok _
  · exact .error (.value rfl)

/-! Fields of a record. -/
namespace Record
variable {r : Record}

theorem need_value (kind key : String) : FailsAs (fun f => f.kind = .value) (r.need kind key) := by
  unfold need
  split
  · exact .ok _
  · exact .error rfl

theorem need_fails {whole : Datum} (kind key : String) :
    FailsAs (Fault.Expected whole) (r.need kind key) := (r.need_value kind key).imp fun _ => .value

theorem items_fails {whole : Datum} (key : String) :
    FailsAs (Fault.Expected whole) (r.items key) := by
  unfold items
  split
  · exact Datum.elements_fails _
  · exact .ok _

theorem needed_fails {α : Type} {kind key : String} {d : Datum} {x : Outcome α}
    (needed : r.need kind key = .ok d) (fails : FailsAs (Fault.Expected d) x) :
    FailsAs (Fault.Expected (.object r)) x :=
  fails.imp fun _ expected => expected.within (holds_of_lookup (lookup_of_need needed))

theorem valueOr_fails {α : Type} {key : String} {otherwise : Datum} {read : Datum → Outcome α}
    (default : FailsAs (Fault.Expected (.object r)) (read otherwise))
    (fails : ∀ d, FailsAs (Fault.Expected d) (read d)) :
    FailsAs (Fault.Expected (.object r)) (read (r.valueOr key otherwise)) := by
  rcases r.valueOr_cases key otherwise with absent | found
  · rw [absent]
    exact default
  · exact (fails _).imp fun _ expected => expected.within (holds_of_lookup found)

theorem text_fails (key : String) : FailsAs (Fault.Expected (.object r)) (r.text key) :=
  r.valueOr_fails (.ok "") Datum.givenText_fails

theorem needText_fails (kind key : String) :
    FailsAs (Fault.Expected (.object r)) (r.needText kind key) :=
  .bind (r.need_fails kind key) fun d needed => r.needed_fails needed d.asText_fails

theorem label_fails {α : Type} [Choice α] {key : String} (otherwise : String) :
    FailsAs (Fault.Expected (.object r)) (Choice.read (r.valueOr key (.text otherwise)) : Outcome α) := by
  obtain ⟨s, shown⟩ := Datum.hasText_text otherwise
  refine r.valueOr_fails (.bind (by rw [shown]; exact .ok s) fun _ _ => ?_) Choice.read_fails
  split
  · exact .ok _
  · exact .error (.value rfl)

theorem number_fails {α : Type} {x : Outcome α} {key : String} {d : Datum}
    (found : d.Giant ∨ d.TooDeep → r.lookup key = some d) (counted : key ∈ numberFields)
    (fails : FailsAs (Fault.OfNumber d) x) : FailsAs (Fault.Expected (.object r)) x := by
  refine fails.imp fun f ofNumber => ?_
  rcases ofNumber with reported | ⟨rfl, giant⟩ | ⟨rfl, deep⟩
  · exact Or.inl reported
  · exact Or.inr (.giant .self counted (found (Or.inl giant)) giant)
  · exact Or.inr (.deep (holds_of_lookup (found (Or.inr deep))) deep)

theorem needed_number {kind key : String} {d : Datum} (needed : r.need kind key = .ok d) :
    d.Giant ∨ d.TooDeep → r.lookup key = some d := fun _ => lookup_of_need needed

theorem optional_number {key : String} {otherwise : Datum} (small : ¬ otherwise.Giant)
    (shallow : ¬ otherwise.TooDeep) : (r.valueOr key otherwise).Giant ∨ (r.valueOr key otherwise).TooDeep →
      r.lookup key = some (r.valueOr key otherwise) := by
  intro either
  rcases r.valueOr_cases key otherwise with default | found
  · rw [default] at either
    exact (either.elim small shallow).elim
  · exact found

theorem optional_real {key : String} {x : Float} :
    (r.valueOr key (.real x)).Giant ∨ (r.valueOr key (.real x)).TooDeep →
      r.lookup key = some (r.valueOr key (.real x)) :=
  optional_number not_false (Datum.not_tooDeep_number _)

theorem absent_number {key : String} :
    (r.value key).Giant ∨ (r.value key).TooDeep → r.lookup key = some (r.value key) :=
  optional_number not_false Datum.not_tooDeep_null

theorem count_fails {key : String} (least : Nat) (field : String) {otherwise : Int}
    (small : ¬ (Datum.int otherwise).Giant) (counted : key ∈ numberFields) :
    FailsAs (Fault.Expected (.object r)) ((r.valueOr key (.int otherwise)).count least field) :=
  number_fails (optional_number small (Datum.not_tooDeep_number _)) counted (Datum.count_fails _ _ _)

theorem amount?_fails {key : String} (counted : key ∈ numberFields) :
    FailsAs (Fault.Expected (.object r)) (r.amount? key) := by
  refine number_fails absent_number counted ?_
  unfold amount? value
  split
  · exact .ok _
  · exact .map (Datum.toFloat_fails _)

theorem each_fails {α : Type} {key : String} {ds : List Datum} {read : Datum → Outcome α}
    (listed : r.items key = .ok ds) (fails : ∀ d, FailsAs (Fault.Expected d) (read d))
    (refuses : ∀ s, FailsAs Fault.Reported (read (.text s))) :
    ∀ d ∈ ds, FailsAs (Fault.Expected (.object r)) (read d) := by
  intro d member
  rcases holds_of_items listed member with held | ⟨s, rfl⟩
  · exact (fails d).imp fun f expected => expected.within held
  · exact (refuses s).imp fun f reported => Or.inl reported

theorem part_fails {α : Type} {key : String} {read : Datum → Outcome α}
    (fails : ∀ d, FailsAs (Fault.Expected d) (read d)) :
    FailsAs (Fault.Expected (.object r)) ((r.part? key).mapM read) :=
  .mapM_option fun d part => (fails d).imp fun _ expected => expected.within (holds_of_part part)

theorem endless_of_items {key : String} {ds : List Datum} (read : r.items key = .ok ds)
    (long : 2 ^ 63 ≤ ds.length) : ∃ d, (Datum.object r).Holds d ∧ d.Endless := by
  unfold items at read
  split at read
  · rename_i given
    rcases r.value_cases key with none | held
    · rw [none] at given
      cases given
    · exact ⟨_, held, ds, read, long⟩
  · obtain rfl := Except.ok.inj read
    simp at long

end Record

end Joinery
