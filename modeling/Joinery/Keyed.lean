/-!
Ordered tables: pairs of a name and a value in the order in which the names first came. Setting a name
again keeps its place and changes its value.
-/
namespace Joinery

abbrev Keyed (α : Type) := List (String × α)

namespace Keyed

def set (table : Keyed α) (name : String) (value : α) : Keyed α :=
  match table with
  | [] => [(name, value)]
  | (other, old) :: rest =>
    if other == name then (name, value) :: rest else (other, old) :: set rest name value

def setAll (table entries : Keyed α) : Keyed α :=
  entries.foldl (fun t entry => t.set entry.1 entry.2) table

def ofPairs (pairs : List (String × α)) : Keyed α := setAll [] pairs

def get? (table : Keyed α) (name : String) : Option α := table.lookup name

def has (table : Keyed α) (name : String) : Bool := (table.get? name).isSome

def names (table : Keyed α) : List String := table.map Prod.fst

end Keyed
end Joinery
