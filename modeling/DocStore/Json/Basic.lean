import DocStore.Json.Number
import DocStore.Ordered

/-!
# JSON values

The members of an object are entries in key order, so an object has one
representation. `WellFormed` states that order at every depth; it holds
of every value that is read from text (`wellFormed_of_read?`), and what
the operations make of well-formed values is well-formed
(`Jsonb.wellFormed_of_evaluate`, `Document.wellFormed_ofRow`).

Two values are the `same` if they have the same shape and their numbers
are the same.
-/

namespace DocStore

inductive Json where
  | null
  | bool (b : Bool)
  | num (n : Number)
  | str (s : String)
  | arr (items : List Json)
  | obj (members : List (String × Json))
deriving Inhabited

namespace Json

abbrev Members := Entries String Json

/-! ## Well-formed values -/

mutual

/-- The keys of every object inside the value strictly increase. -/
def WellFormed : Json → Prop
  | .arr items => AllItems items
  | .obj members => Entries.Sorted members ∧ AllMembers members
  | _ => True

def AllItems : List Json → Prop
  | [] => True
  | j :: rest => WellFormed j ∧ AllItems rest

def AllMembers : List (String × Json) → Prop
  | [] => True
  | (_, j) :: rest => WellFormed j ∧ AllMembers rest

end

theorem allItems_iff {items : List Json} : AllItems items ↔ ∀ j ∈ items, WellFormed j := by
  induction items with
  | nil => simp [AllItems]
  | cons j rest ih => simp [AllItems, ih]

theorem allMembers_iff {members : List (String × Json)} :
    AllMembers members ↔ ∀ e ∈ members, WellFormed e.2 := by
  induction members with
  | nil => simp [AllMembers]
  | cons e rest ih => simp [AllMembers, ih]

/-! ## Equality -/

mutual

/-- The same shape with the same numbers. -/
def same : Json → Json → Bool
  | .null, .null => true
  | .bool a, .bool b => a == b
  | .num a, .num b => a.same b
  | .str a, .str b => a == b
  | .arr a, .arr b => sameItems a b
  | .obj a, .obj b => sameMembers a b
  | _, _ => false

def sameItems : List Json → List Json → Bool
  | [], [] => true
  | a :: as, b :: bs => same a b && sameItems as bs
  | _, _ => false

def sameMembers : List (String × Json) → List (String × Json) → Bool
  | [], [] => true
  | (k, a) :: as, (l, b) :: bs => k == l && same a b && sameMembers as bs
  | _, _ => false

end

/-! ## Parts -/

def isNull : Json → Bool
  | .null => true
  | _ => false

def text? : Json → Option String
  | .str s => some s
  | _ => none

def members? : Json → Option Members
  | .obj members => some members
  | _ => none

def member? (key : String) : Json → Option Json
  | .obj members => Entries.get? key members
  | _ => none

theorem wellFormed_obj {members : Members} :
    WellFormed (.obj members) ↔ members.Sorted ∧ ∀ e ∈ members, WellFormed e.2 := by
  rw [WellFormed, allMembers_iff]

theorem wellFormed_arr {items : List Json} :
    WellFormed (.arr items) ↔ ∀ j ∈ items, WellFormed j := by
  rw [WellFormed, allItems_iff]

end Json

end DocStore
