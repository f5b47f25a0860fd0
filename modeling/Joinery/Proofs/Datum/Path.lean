import Joinery.Proofs.Keyed
import Joinery.Json.Reader

/-!
Values inside values, found by a path of names. Whatever is read from a text has each name of an
object once, so a path leads to one place at most.
-/
namespace Joinery

namespace Datum

def isObject : Datum → Bool
  | object _ => true
  | _ => false

def field? : Datum → String → Option Datum
  | object fields, name => Keyed.get? fields name
  | _, _ => none

def at? : Datum → List String → Option Datum
  | d, [] => some d
  | d, name :: path => (d.field? name).bind (at? · path)

/-- Every object that is reached by names has each of its names once, as in whatever is read from a
text. -/
inductive Distinct : Datum → Prop where
  | object {fields : Record} : (Keyed.names fields).Nodup → (∀ entry ∈ fields, Distinct entry.2) →
      Distinct (.object fields)
  | other {d : Datum} : d.isObject = false → Distinct d

theorem isObject_iff {d : Datum} : d.isObject = true ↔ ∃ fields, d = .object fields := by
  cases d <;> simp [isObject]

theorem field?_of_not_object {d : Datum} (other : d.isObject = false) (name : String) :
    d.field? name = none := by
  cases d <;> first | rfl | cases other

theorem field?_object (fields : Record) (name : String) :
    (object fields).field? name = Keyed.get? fields name := rfl

theorem at?_cons (d : Datum) (name : String) (path : List String) :
    d.at? (name :: path) = (d.field? name).bind (at? · path) := rfl

theorem at?_null (path : List String) : (null.at? path).getD .null = .null := by
  cases path <;> rfl

theorem at?_getD (d : Datum) (name : String) (path : List String) :
    (((d.field? name).getD .null).at? path).getD .null = (d.at? (name :: path)).getD .null := by
  rw [at?_cons]
  cases d.field? name with
  | none => exact at?_null path
  | some part => rfl

theorem isObject_of_field? {d part : Datum} {name : String} (found : d.field? name = some part) :
    d.isObject = true := by
  cases d <;> first | rfl | cases found

theorem Distinct.names {fields : Record} (distinct : Distinct (.object fields)) :
    (Keyed.names fields).Nodup := by
  cases distinct with
  | object names _ => exact names
  | other not => cases not

theorem Distinct.fields {fields : Record} (distinct : Distinct (.object fields)) :
    ∀ entry ∈ fields, Distinct entry.2 := by
  cases distinct with
  | object _ parts => exact parts
  | other not => cases not

theorem Distinct.field {d part : Datum} {name : String} (distinct : Distinct d)
    (found : d.field? name = some part) : Distinct part := by
  cases d with
  | object fields => exact distinct.fields _ (Keyed.mem_of_get? found)
  | _ => cases found

theorem Distinct.at? {d part : Datum} {path : List String} (distinct : Distinct d)
    (found : d.at? path = some part) : Distinct part := by
  induction path generalizing d with
  | nil => exact Option.some.inj found ▸ distinct
  | cons name path ih =>
    rw [at?_cons] at found
    obtain ⟨inner, named, deeper⟩ := Option.bind_eq_some_iff.mp found
    exact ih (distinct.field named) deeper

end Datum

namespace Json
open Datum

def ReadsDistinct (outcome : Except Refusal (Datum × List Char)) : Prop :=
  ∀ d rest, outcome = .ok (d, rest) → d.Distinct

theorem readsDistinct_error (refusal : Refusal) : ReadsDistinct (.error refusal) := nofun

theorem readsDistinct_ok {d : Datum} (distinct : d.Distinct) (rest : List Char) :
    ReadsDistinct (.ok (d, rest)) := by
  rintro _ _ ⟨⟩
  exact distinct

theorem readNumber_distinct (negative : Bool) (cs : List Char) :
    ReadsDistinct ((readNumber negative cs).map fun (n, rest) => (.number n, rest)) := by
  cases readNumber negative cs with
  | ok found => exact readsDistinct_ok (.other rfl) _
  | error refusal => exact readsDistinct_error refusal

theorem readScalar_distinct (cs : List Char) : ReadsDistinct (readScalar cs) := by
  unfold readScalar
  split
  · rename_i found word
    obtain ⟨⟨name, d⟩, listed, front⟩ := List.exists_of_findSome?_eq_some word
    obtain ⟨rest, -, rfl⟩ := Option.map_eq_some_iff.mp front
    refine readsDistinct_ok (.other ?_) rest
    simp only [List.mem_cons, Prod.mk.injEq, List.not_mem_nil, or_false] at listed
    rcases listed with ⟨-, rfl⟩ | ⟨-, rfl⟩ | ⟨-, rfl⟩ | ⟨-, rfl⟩ | ⟨-, rfl⟩ | ⟨-, rfl⟩ <;> rfl
  · split
    · exact readNumber_distinct true _
    · exact readNumber_distinct false _

theorem distinct_ofPairs {fields : Record} (parts : ∀ entry ∈ fields, entry.2.Distinct) :
    (Datum.object (Keyed.ofPairs fields)).Distinct :=
  .object (Keyed.nodup_ofPairs fields) fun entry member =>
    parts entry ((Keyed.mem_of_mem_setAll member).resolve_right List.not_mem_nil)

theorem readItems_distinct {fuel levels : Nat} (done : List Datum) (cs : List Char) :
    ReadsDistinct (readItems fuel levels done cs) := by
  induction fuel generalizing done cs with
  | zero => exact readsDistinct_error _
  | succ fuel ih =>
    unfold readItems
    split
    · exact readsDistinct_error _
    · split
      · exact ih _ _
      · exact readsDistinct_ok (.other rfl) _
      · exact readsDistinct_error _

theorem readFields_distinct {fuel : Nat}
    (values : ∀ levels cs, ReadsDistinct (readValue fuel levels cs))
    (fields : ∀ levels done cs, (∀ entry ∈ done, entry.2.Distinct) →
      ReadsDistinct (readFields fuel levels done cs))
    (levels : Nat) {done : Record} (parts : ∀ entry ∈ done, entry.2.Distinct) (cs : List Char) :
    ReadsDistinct (readFields (fuel + 1) levels done cs) := by
  unfold readFields
  split
  case h_1 => exact readsDistinct_error _
  case h_3 => exact readsDistinct_error _
  case h_2 same =>
    obtain rfl := Nat.succ.inj same
    split
    · exact readsDistinct_error _
    · split
      · split
        · exact readsDistinct_error _
        · rename_i read
          have value := values _ _ _ _ read
          split
          · exact fields _ _ _ (List.forall_mem_cons.mpr ⟨value, parts⟩)
          · refine readsDistinct_ok (distinct_ofPairs fun entry member => ?_) _
            rcases List.mem_cons.mp (List.mem_reverse.mp member) with rfl | before
            · exact value
            · exact parts entry before
          · exact readsDistinct_error _
      · exact readsDistinct_error _

theorem readValue_distinct {fuel : Nat}
    (fields : ∀ levels done cs, (∀ entry ∈ done, entry.2.Distinct) →
      ReadsDistinct (readFields fuel levels done cs))
    (levels : Nat) (cs : List Char) : ReadsDistinct (readValue (fuel + 1) levels cs) := by
  unfold readValue
  split
  case h_1 => exact readsDistinct_error _
  case h_2 rest _ =>
    cases readStringFrom (rest.length + 1) [] rest with
    | some found => exact readsDistinct_ok (.other rfl) _
    | none => exact readsDistinct_error _
  case h_3 | h_4 => exact readsDistinct_error _
  case h_5 same =>
    obtain rfl := Nat.succ.inj same
    split
    · exact readsDistinct_ok (.other rfl) _
    · exact readItems_distinct _ _
  case h_6 same =>
    obtain rfl := Nat.succ.inj same
    split
    · exact readsDistinct_ok (distinct_ofPairs (List.forall_mem_nil _)) _
    · exact fields _ _ _ (List.forall_mem_nil _)
  case h_7 => exact readScalar_distinct _

theorem reader_distinct (fuel : Nat) :
    (∀ levels cs, ReadsDistinct (readValue fuel levels cs)) ∧
    ∀ levels done cs, (∀ entry ∈ done, Datum.Distinct entry.2) →
      ReadsDistinct (readFields fuel levels done cs) := by
  induction fuel with
  | zero =>
    refine ⟨fun levels cs => ?_, fun levels done cs _ => ?_⟩
    · simp [readValue, ReadsDistinct]
    · simp [readFields, ReadsDistinct]
  | succ fuel ih =>
    obtain ⟨values, fields⟩ := ih
    exact ⟨readValue_distinct fields, fun levels done cs parts =>
      readFields_distinct values fields levels parts cs⟩

theorem distinct_of_readWhole {text : String} {d : Datum} (read : readWhole text = .ok d) :
    d.Distinct := by
  unfold readWhole at read
  split at read
  · rename_i value
    split at read
    · cases read
      exact (reader_distinct _).1 _ _ _ _ value
    · cases read
  · cases read

end Json
end Joinery
