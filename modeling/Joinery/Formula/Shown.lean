import Joinery.Datum.Measure
import Joinery.Keyed
import Joinery.Text.Word

/-!
A formula with the value of each bound name written behind it, as in `area(720000)`. Names are
replaced one after the other, and only where they stand as whole words.
-/
namespace Joinery.Formula
open Number Text

def isWordAt : Option Char → Bool
  | some c => isWordChar c
  | none => false

def isEdge (before after : Option Char) : Bool := isWordAt before != isWordAt after

def standsAt (name : List Char) (before : Option Char) (cs : List Char) : Bool :=
  isEdge before cs.head? && name.isPrefixOf cs &&
    isEdge (name.getLast?.or before) (cs.drop name.length).head?

/-- Replaces every occurrence from left to right; `skip` characters of the last one are still to go. -/
def replaceWord (name image : List Char) : Nat → Option Char → List Char → List Char
  | _, before, [] => if standsAt name before [] then image else []
  | skip + 1, _, c :: rest => replaceWord name image skip (some c) rest
  | 0, before, c :: rest =>
    if standsAt name before (c :: rest) then
      match name.length with
      | 0 => image ++ c :: replaceWord name image 0 (some c) rest
      | skip + 1 => image ++ replaceWord name image skip (some c) rest
    else c :: replaceWord name image 0 (some c) rest

/-- A whole double is written without point or exponent. -/
def valueText (x : Float) : String :=
  if isWhole x then toString (wholePart x) else inFull x

def showValue (formula : String) (name : String) (value : Datum) : Outcome String :=
  value.toFloat.map fun x =>
    let image := name ++ "(" ++ valueText x ++ ")"
    .ofList (replaceWord name.toList image.toList 0 none formula.toList)

def showValues (formula : String) (values : Keyed Datum) : Outcome String :=
  values.foldlM (fun text entry => showValue text entry.1 entry.2) formula

end Joinery.Formula
