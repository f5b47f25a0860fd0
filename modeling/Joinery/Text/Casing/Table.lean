/-!
Case mappings as data: runs of characters that move by one fixed distance, and a few characters
that turn into several.
-/
namespace Joinery.Text.Casing

/-- The characters `first`, `first + stride`, … up to `last`, each moved by `shift`. -/
structure Run where
  first : Nat
  last : Nat
  stride : Nat
  shift : Int

def Run.covers (r : Run) (n : Nat) : Bool :=
  r.first ≤ n && n ≤ r.last && (n - r.first) % r.stride == 0

structure Mapping where
  runs : List Run
  expansions : List (Nat × List Nat)

def Mapping.apply (m : Mapping) (c : Char) : List Char :=
  match m.runs.find? (·.covers c.toNat) with
  | some r => [Char.ofNat (c.toNat + r.shift).toNat]
  | none =>
    match m.expansions.lookup c.toNat with
    | some codes => codes.map Char.ofNat
    | none => [c]

end Joinery.Text.Casing
