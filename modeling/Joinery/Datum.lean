import Joinery.Number.Written
import Joinery.Text.Quoted

/-!
Loose values, as records, settings and the parameters of operations hold them before anything is
known about their form. A whole number and a double stay apart, because they are written differently.
-/
namespace Joinery

inductive Numeral where
  | whole (n : Int)
  | real (x : Float)

inductive Datum where
  | null
  | bool (b : Bool)
  | number (n : Numeral)
  | text (s : String)
  | list (items : List Datum)
  | object (fields : List (String × Datum))

abbrev Record := List (String × Datum)

namespace Datum

@[match_pattern] abbrev int (n : Int) : Datum := .number (.whole n)
@[match_pattern] abbrev real (x : Float) : Datum := .number (.real x)

def nat (n : Nat) : Datum := .int n

def texts (xs : List String) : Datum := .list (xs.map .text)

def orNull (write : α → Datum) : Option α → Datum
  | some a => write a
  | none => .null

def typeName : Datum → String
  | null => "NoneType"
  | bool _ => "bool"
  | int _ => "int"
  | real _ => "float"
  | text _ => "str"
  | list _ => "list"
  | object _ => "dict"

/-- Whether a value stands for something: null, false, zeros and empty texts and containers do not. -/
def isGiven : Datum → Bool
  | null => false
  | bool b => b
  | int n => n != 0
  | real x => x != 0
  | text s => s != ""
  | list items => !items.isEmpty
  | object fields => !fields.isEmpty

end Datum

/-- Exact comparison; no number is below or above nothing. -/
def Numeral.below : Numeral → Numeral → Bool
  | .whole a, .whole b => a < b
  | .real a, .real b => a < b
  | .whole a, .real b =>
    if b.isFinite then a * Number.unitsPerOne < Number.units b else b.isInf && 0 < b
  | .real a, .whole b =>
    if a.isFinite then Number.units a < b * Number.unitsPerOne else a.isInf && a < 0

/-- Numbers agree by their size; nothing agrees with no number. -/
def Numeral.agrees : Numeral → Numeral → Bool
  | .whole a, .whole b => a == b
  | .real a, .real b => a == b
  | .whole a, .real b | .real b, .whole a =>
    b.isFinite && a * Number.unitsPerOne == Number.units b

instance : BEq Numeral := ⟨Numeral.agrees⟩

def Numeral.shown : Numeral → String
  | .whole n => toString n
  | .real x => Number.inFull x

namespace Datum

mutual

/-- Values agree part by part, and objects name by name in one order. -/
def agrees : Datum → Datum → Bool
  | null, null => true
  | bool a, bool b => a == b
  | number a, number b => a == b
  | text a, text b => a == b
  | list a, list b => itemsAgree a b
  | object a, object b => fieldsAgree a b
  | _, _ => false

def itemsAgree : List Datum → List Datum → Bool
  | [], [] => true
  | a :: rest, b :: others => agrees a b && itemsAgree rest others
  | _, _ => false

def fieldsAgree : List (String × Datum) → List (String × Datum) → Bool
  | [], [] => true
  | (name, a) :: rest, (other, b) :: others => name == other && agrees a b && fieldsAgree rest others
  | _, _ => false

end

instance : BEq Datum := ⟨agrees⟩

def shown : Datum → String
  | null => "None"
  | bool b => if b then "True" else "False"
  | number n => n.shown
  | text s => Text.quoted s
  | list items => "[" ++ ", ".intercalate (shownItems items) ++ "]"
  | object fields => "\x7b" ++ ", ".intercalate (shownFields fields) ++ "\x7d"
where
  shownItems : List Datum → List String
    | [] => []
    | d :: rest => d.shown :: shownItems rest
  shownFields : List (String × Datum) → List String
    | [] => []
    | (name, d) :: rest => (Text.quoted name ++ ": " ++ d.shown) :: shownFields rest

def plain : Datum → String
  | text s => s
  | d => d.shown

def deeperThan : Nat → Datum → Bool
  | 0, _ => true
  | levels + 1, list items => items.any (deeperThan levels)
  | levels + 1, object fields => fields.any fun field => deeperThan levels field.2
  | _ + 1, _ => false

end Datum
end Joinery
