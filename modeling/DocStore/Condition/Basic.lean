import DocStore.Error

/-!
# Conditions

What a search should match: every document, the one with an id, or those
whose fields satisfy a list of comparisons. A condition may be given as
JSON: null, the empty string, `*` and the empty object match everything,
other strings and numbers are ids, and an object lists fields.
-/

namespace DocStore

inductive Condition where
  | all
  | byId (id : Cell)
  /-- Keys, each with the value to compare with; all of them must hold. -/
  | byFields (fields : List (String × Cell))

namespace Condition

/-- The string that stands for every document. -/
def wildcard : String := "*"

/-- No field at all matches everything. -/
def ofFields : List (String × Cell) → Condition
  | [] => .all
  | fields => .byFields fields

/-- An id, unless the string is empty or the wildcard. -/
def ofString (s : String) : Condition :=
  if s = "" || s = wildcard then .all else .byId (.text s)

def ofJson : Json → Except Refusal Condition
  | .null => .ok .all
  | .str s => .ok (ofString s)
  | .num n => .ok (.byId (.ofJson (.num n)))
  | .obj members => .ok (ofFields (members.map fun e => (e.1, .ofJson e.2)))
  | input => .error (.unsupportedCondition input)

end Condition

end DocStore
