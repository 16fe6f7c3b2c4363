import DocStore.Json.Printer
import DocStore.Text.Blank

/-!
# Cells

A cell is what a statement binds to a placeholder and what a row holds
under a column: one of six kinds of value. JSON values become cells and
back; scalars have a kind of their own, arrays and objects stay JSON.

Cells are compared with tolerance: two numbers are the `same` if they
are nearer to each other than the spacing of floating-point numbers at
one, whether they are integers or not, and a number that is not a number
is the same as another of its kind.
-/

namespace DocStore

/-- A parameter of a statement, or a cell of its result. -/
inductive Cell where
  | null
  | int (i : Int64)
  | float (x : Float)
  | text (s : String)
  | bool (b : Bool)
  | json (j : Json)
deriving Inhabited

namespace Cell

def typeName : Cell → String
  | .null => "NULL"
  | .int _ => "INTEGER"
  | .float _ => "FLOAT"
  | .text _ => "TEXT"
  | .bool _ => "BOOLEAN"
  | .json _ => "JSON"

def text? : Cell → Option String
  | .text s => some s
  | _ => none

def isNull : Cell → Bool
  | .null => true
  | _ => false

/-- Does the cell count as missing? Blank text and a JSON null do. -/
def isBlank : Cell → Bool
  | .null => true
  | .text s => Text.isBlank s
  | .json j => j.isNull
  | _ => false

/-! ## From and to JSON -/

/-- A JSON value as a cell. An integer outside the signed range is
converted to the nearest floating-point number. -/
def ofJson : Json → Cell
  | .null => .null
  | .bool b => .bool b
  | .num n =>
    match n.toInt64? with
    | some i => .int i
    | none => .float n.toFloat
  | .str s => .text s
  | .arr items => .json (.arr items)
  | .obj members => .json (.obj members)

/-- A cell as a JSON value. Numbers that JSON cannot express become null. -/
def toJson : Cell → Json
  | .null => .null
  | .int i => .num (.ofInt64 i)
  | .float x =>
    match Number.ofFloat? x with
    | some n => .num n
    | none => .null
  | .text s => .str s
  | .bool b => .bool b
  | .json j => j

@[simp] theorem toJson_ofJson_str (s : String) : toJson (ofJson (.str s)) = .str s := rfl

@[simp] theorem ofJson_toJson_int (i : Int64) : ofJson (toJson (.int i)) = .int i := by
  simp [toJson, ofJson]

theorem ofJson_toJson_float {x : Float} (h : x.isFinite = true) :
    ofJson (toJson (.float x)) = .float x := by
  simp [toJson, ofJson, Number.ofFloat?, h, Number.toInt64?, Number.toFloat]

/-! ## Comparison -/

/-- Is the distance of two numbers, rounded to a floating-point number,
below `2 ^ -52`? It is exactly if it is below `2 ^ -52 - 2 ^ -106`. The
infinite numbers have no distance from each other. -/
def near (a b : Float) : Bool :=
  (a.isNaN && b.isNaN)
    || (a.isFinite && b.isFinite
      && decide ((unitsOf a - unitsOf b).natAbs < Nat.pow 2 1022 - Nat.pow 2 968))

def same : Cell → Cell → Bool
  | .null, .null => true
  | .int a, .int b => a == b
  | .float a, .float b => near a b
  | .int i, .float x => near i.toFloat x
  | .float x, .int i => near i.toFloat x
  | .text a, .text b => a == b
  | .bool a, .bool b => a == b
  | .json a, .json b => a.same b
  | _, _ => false

/-! ## Text -/

/-- How a floating-point cell is shown: positional, a whole number without
a point. -/
def floatFormat : FloatFormat where
  ties := .up
  positional _ := true
  keepsPoint := false

def floatText (x : Float) : String :=
  if x.isNaN then "NaN"
  else if x.isInf then if signBit x then "-inf" else "inf"
  else .ofList (floatFormat.chars x)

def display : Cell → String
  | .null => "NULL"
  | .int i => .ofList (Number.intChars i.toInt)
  | .float x => floatText x
  | .text s => s
  | .bool b => if b then "true" else "false"
  | .json j => j.text

end Cell

/-! ## New ids

The id of a document that is inserted without one is text: sixteen random
bytes in the form of a UUID of version four. Version and variant take the
place of six of the random bits. -/

namespace Id

def byteChars (b : UInt8) : List Char :=
  [Nat.digitChar (b.toNat / 16), Nat.digitChar (b.toNat % 16)]

/-- Hyphens stand before these bytes. -/
def isGroupStart (i : Nat) : Bool := i = 4 || i = 6 || i = 8 || i = 10

/-- Byte seven holds the version and byte nine the variant. -/
def marked (i : Nat) (b : UInt8) : UInt8 :=
  if i = 6 then b % 16 + 64 else if i = 8 then b % 64 + 128 else b

/-- The bytes from number `i` on, in groups. -/
def charsFrom (i : Nat) : List UInt8 → List Char
  | [] => []
  | b :: rest =>
    (if isGroupStart i then ['-'] else []) ++ byteChars (marked i b) ++ charsFrom (i + 1) rest

def uuid (bytes : List UInt8) : Cell := .text (.ofList (charsFrom 0 bytes))

end Id

end DocStore
