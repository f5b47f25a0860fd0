import Joinery.Datum

/-!
Loose values written as JSON texts, on one line or indented. Texts are quoted with the standard's
backslash forms, and a double is written in full, so that it reads back as a double.
-/
namespace Joinery.Json
open Number Text

/-- Without an indent the text is one line with a blank after each comma. -/
structure Layout where
  indent : Option Nat
  plainOnly : Bool
  sortNames : Bool

def unitEscape (n : Nat) : List Char := '\\' :: 'u' :: hexDigits 4 n

/-- A character as one or two units of 16 bits in backslash form. -/
def escapeUnits (c : Char) : List Char :=
  let n := c.toNat
  if n < 0x10000 then unitEscape n
  else
    let m := n - 0x10000
    unitEscape (0xD800 + m / 0x400) ++ unitEscape (0xDC00 + m % 0x400)

def escape (plainOnly : Bool) (c : Char) : List Char :=
  match c with
  | '"' => ['\\', '"']
  | '\\' => ['\\', '\\']
  | '\n' => ['\\', 'n']
  | '\r' => ['\\', 'r']
  | '\t' => ['\\', 't']
  | '\x08' => ['\\', 'b']
  | '\x0c' => ['\\', 'f']
  | _ =>
    if c.toNat < 0x20 || plainOnly && 0x7F ≤ c.toNat then escapeUnits c else [c]

def quote (plainOnly : Bool) (s : String) : String :=
  .ofList ('"' :: s.toList.flatMap (escape plainOnly) ++ ['"'])

def numberText : Numeral → String
  | .whole n => toString n
  | .real x =>
    if x.isNaN then "NaN"
    else if x.isInf then if isNegative x then "-Infinity" else "Infinity"
    else inFull x

def Layout.lineBreak (layout : Layout) (depth : Nat) : String :=
  match layout.indent with
  | none => ""
  | some width => "\n" ++ String.ofList (List.replicate (width * depth) ' ')

def Layout.comma (layout : Layout) (depth : Nat) : String :=
  match layout.indent with
  | none => ", "
  | some _ => "," ++ layout.lineBreak depth

def Layout.enclose (layout : Layout) (depth : Nat) (opening closing : String)
    (parts : List String) : String :=
  if parts.isEmpty then opening ++ closing
  else opening ++ layout.lineBreak (depth + 1) ++ (layout.comma (depth + 1)).intercalate parts ++
    layout.lineBreak depth ++ closing

def Layout.arrange (layout : Layout) (fields : List (String × String)) : List (String × String) :=
  if layout.sortNames then fields.mergeSort fun a b => a.1 ≤ b.1 else fields

def Layout.field (layout : Layout) (entry : String × String) : String :=
  quote layout.plainOnly entry.1 ++ ": " ++ entry.2

def Layout.write (layout : Layout) (depth : Nat) : Datum → String
  | .null => "null"
  | .bool b => if b then "true" else "false"
  | .number n => numberText n
  | .text s => quote layout.plainOnly s
  | .list items => layout.enclose depth "[" "]" (writeItems (depth + 1) items)
  | .object fields =>
    layout.enclose depth "\x7b" "\x7d"
      ((layout.arrange (writeFields (depth + 1) fields)).map layout.field)
where
  writeItems (depth : Nat) : List Datum → List String
    | [] => []
    | d :: rest => layout.write depth d :: writeItems depth rest
  writeFields (depth : Nat) : List (String × Datum) → List (String × String)
    | [] => []
    | (name, d) :: rest => (name, layout.write depth d) :: writeFields depth rest

def write (layout : Layout) (d : Datum) : String := layout.write 0 d

/-- Records are written as they stand, two blanks deeper at each level unless asked otherwise. -/
def recordLayout (indent : Option Nat) : Layout := ⟨indent, false, false⟩

def settingsLayout (indent : Option Nat) : Layout := ⟨indent, true, true⟩

end Joinery.Json
