import DocStore.Error
import DocStore.Sql.Piece
import DocStore.Text.Split

/-!
# Dotted paths into a document

A path names a place inside a document by its keys, separated by dots
and trimmed; a path with a blank part is refused. In statements a path
becomes either a chain of arrows from the `body` column or the text of
an array of keys.
-/

namespace DocStore

namespace DocPath

/-- The trimmed parts between the dots. -/
def parts (path : String) : List String := (Text.splitOn '.' path).map Text.trim

def segments (path : String) : Except Refusal (List String) :=
  if "" ∈ parts path then .error (.badPath path) else .ok (parts path)

theorem segments_eq_ok_iff {path : String} {keys : List String} :
    segments path = .ok keys ↔ "" ∉ parts path ∧ parts path = keys := by
  rw [segments]
  split
  · next hblank => exact iff_of_false nofun fun h => h.1 hblank
  · next hparts => simp [hparts]

theorem segments_eq_error_iff {path : String} {r : Refusal} :
    segments path = .error r ↔ "" ∈ parts path ∧ r = .badPath path := by
  rw [segments]
  split
  · next hblank => simp [hblank, eq_comm]
  · next hparts => exact iff_of_false nofun fun h => hparts h.1

/-! ## As a chain of arrows -/

/-- One arrow per key; with `asText` the last one yields text, not JSON. -/
def arrows (asText : Bool) : List String → Sql
  | [] => []
  | [key] => [.text (if asText then " ->> " else " -> "), .literal key]
  | key :: rest => .text " -> " :: .literal key :: arrows asText rest

/-- Access to a field of the `body` column. -/
def field (segments : List String) (asText : Bool) : Sql :=
  .text "(body" :: arrows asText segments ++ [.text ")"]

/-! ## As an array of keys -/

/-- A key inside an array constant, with a backslash before every backslash
and double quote. -/
def elementChars (key : String) : List Char :=
  '"' :: key.toList.flatMap (fun c => if c = '\\' || c = '"' then ['\\', c] else [c]) ++ ['"']

/-- Elements separated by commas. -/
def elementsChars : List String → List Char
  | [] => []
  | [key] => elementChars key
  | key :: rest => elementChars key ++ ',' :: elementsChars rest

def arrayText (segments : List String) : String :=
  .ofList ('\x7b' :: elementsChars segments ++ ['\x7d'])

/-- The proper, non-empty beginnings of a list of keys, the shortest first. -/
def parents (segments : List String) : List (List String) :=
  (List.range (segments.length - 1)).map fun n => segments.take (n + 1)

end DocPath

end DocStore
