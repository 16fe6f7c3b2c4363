import DocStore.Error
import DocStore.Text.Integer

/-!
# Places inside a JSON value

A path is a list of keys: member names of objects and indices of arrays,
the latter written as integers and counted from the end if negative.

All three edits walk to the container of the last key and change it
there (`edit`). The walk stops without a change at a missing member, an
index out of range or a scalar; only a key that is no index of an array
it reaches is an error.
-/

namespace DocStore.Jsonb

/-! ## Indices -/

def index? (key : String) : Option Int := Chars.int64? key.toList

/-- A key that has to be an index. -/
def index (key : String) : Except ExecutionFault Int :=
  match index? key with
  | some i => .ok i
  | none => .error (.notAnIndex key)

/-- The position of an index in an array, if it is in range. -/
def position? (i : Int) (length : Nat) : Option Nat :=
  let position := if i < 0 then length + i else i
  if 0 ≤ position ∧ position < length then some position.toNat else none

theorem position?_lt {i : Int} {length p : Nat} (h : position? i length = some p) :
    p < length := by
  unfold position? at h
  simp only at h
  generalize (if i < 0 then (length : Int) + i else i) = position at h
  split at h
  · rename_i hp
    have : position.toNat = p := Option.some.inj h
    omega
  · cases h

/-! ## Reading -/

def get? : List String → Json → Option Json
  | [], j => some j
  | key :: rest, .obj members => (Entries.get? key members).bind (get? rest)
  | key :: rest, .arr items =>
    ((index? key).bind (position? · items.length)).bind fun p => items[p]?.bind (get? rest)
  | _, _ => none

/-! ## Editing -/

/-- Changes the container of the last key of a path with `change`. -/
def edit (change : String → Json → Except ExecutionFault Json) :
    List String → Json → Except ExecutionFault Json
  | [], j => .ok j
  | [key], j => change key j
  | key :: rest, .obj members =>
    match Entries.get? key members with
    | some child => do return .obj (Entries.insert key (← edit change rest child) members)
    | none => .ok (.obj members)
  | key :: rest, .arr items => do
    match (position? (← index key) items.length).bind fun p => items[p]?.map (p, ·) with
    | some (p, child) => return .arr (items.set p (← edit change rest child))
    | none => return .arr items
  | _, j => .ok j

/-- Replaces the value under a key; with `create` a missing member is added,
and a value for an index out of range goes to the nearer end. -/
def putAt (create : Bool) (new : Json) (key : String) : Json → Except ExecutionFault Json
  | .obj members =>
    if create || Entries.contains key members then .ok (.obj (Entries.insert key new members))
    else .ok (.obj members)
  | .arr items => do
    let i ← index key
    match position? i items.length with
    | some p => return .arr (items.set p new)
    | none =>
      if !create then return .arr items
      else if i < 0 then return .arr (new :: items)
      else return .arr (items ++ [new])
  | j => .ok j

/-- Adds a missing member, or an item before the one with that index. -/
def insertAt (new : Json) (key : String) : Json → Except ExecutionFault Json
  | .obj members =>
    if Entries.contains key members then .error .existingKey
    else .ok (.obj (Entries.insert key new members))
  | .arr items => do
    let i ← index key
    match position? i items.length with
    | some p => return .arr (items.insertIdx p new)
    | none => if i < 0 then return .arr (new :: items) else return .arr (items ++ [new])
  | j => .ok j

def deleteAt (key : String) : Json → Except ExecutionFault Json
  | .obj members => .ok (.obj (Entries.erase key members))
  | .arr items => do
    match position? (← index key) items.length with
    | some p => return .arr (items.eraseIdx p)
    | none => return .arr items
  | j => .ok j

def set (create : Bool) (path : List String) (new : Json) : Json → Except ExecutionFault Json :=
  edit (putAt create new) path

def insert (path : List String) (new : Json) : Json → Except ExecutionFault Json :=
  edit (insertAt new) path

def delete (path : List String) : Json → Except ExecutionFault Json :=
  edit deleteAt path

/-! ## Joining -/

/-- Members of two objects, items of two arrays, or a value added to an
array as an item; two other values make up an array. -/
def concat : Json → Json → Json
  | .obj a, .obj b => .obj (Entries.extend a b)
  | .arr a, .arr b => .arr (a ++ b)
  | .arr a, b => .arr (a ++ [b])
  | a, .arr b => .arr (a :: b)
  | a, b => .arr [a, b]

end DocStore.Jsonb
