/-!
Names that tell the members of a list apart. A fresh name is a stem with the first free number past the
count of the names already taken; a name stands for the first member that has it.
-/
namespace Joinery

def numbered (stem : String) (n : Nat) : String := stem ++ "-" ++ toString n

def freshId (stem : String) (taken : List String) : String :=
  let count := taken.eraseDups.length
  let candidates := (List.range' (count + 1) (count + 1)).map (numbered stem)
  (candidates.find? fun id => !taken.contains id).getD (numbered stem (2 * count + 1))

/-- The given name, where an empty one asks for a fresh one. -/
def idOrFresh (id stem : String) (taken : List String) : String :=
  if id = "" then freshId stem taken else id

def changeFirst (p : α → Bool) (f : α → α) : List α → List α
  | [] => []
  | a :: rest => if p a then f a :: rest else a :: changeFirst p f rest

end Joinery
