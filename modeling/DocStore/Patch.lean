import DocStore.Jsonb.Expr
import DocStore.Sql.Path

/-!
# Patches

A patch changes one place inside the body of a document. In an update it
is written as an object with a single member whose key begins with a
dollar sign. The three patches that write need every container above the
place, so they first put an empty object at each one that is missing,
outermost first; an expression reads containers from the body as it was
and adds to what the inner expressions made of it.
-/

namespace DocStore

inductive PatchWrite where
  | set
  /-- Insert before an item, or add a missing member. -/
  | insert
  /-- Append to the array at the place, which is created if absent. -/
  | push
deriving Repr, DecidableEq

/-- A change of one place in a document. -/
inductive Patch where
  | write (how : PatchWrite) (path : String) (value : Json)
  | remove (path : String)

/-- The key that marks the patch in an update. -/
def PatchWrite.key : PatchWrite → String
  | .set => "$set"
  | .insert => "$insert"
  | .push => "$push"

namespace Patch

def removeKey : String := "$remove"

def path : Patch → String
  | .write _ path _ => path
  | .remove path => path

/-! ## Reading a patch from an update -/

/-- The path and value of an argument with exactly one member. -/
def onlyMember (key : String) (argument : Json) : Except Refusal (String × Json) :=
  match argument with
  | .obj [(path, value)] => do
    let _ ← DocPath.segments path
    return (path, value)
  | _ => .error (.notOnePath key argument)

def ofWrite (how : PatchWrite) (argument : Json) : Except Refusal Patch := do
  let (path, value) ← onlyMember how.key argument
  return .write how path value

/-- The path to remove: a string, or the key of the only member. -/
def ofRemove : Json → Except Refusal Patch
  | .str path => .ok (.remove path)
  | .obj members => do return .remove (← onlyMember removeKey (.obj members)).1
  | argument => .error (.notARemovePath argument)

def ofMember (key : String) (argument : Json) : Except Refusal Patch :=
  if key = PatchWrite.set.key then ofWrite .set argument
  else if key = PatchWrite.insert.key then ofWrite .insert argument
  else if key = PatchWrite.push.key then ofWrite .push argument
  else if key = removeKey then ofRemove argument
  else .error (.unknownPatch key)

def isPatchKey (key : String) : Bool := key.toList.head? = some '$'

/-- The patch in an update, its primary key already removed; none if no
key begins with a dollar sign. -/
def ofUpdate (update : Json.Members) : Except Refusal (Option Patch) :=
  match update.filter (isPatchKey ·.1) with
  | [] => .ok none
  | [(key, argument)] =>
    if 1 < update.length then .error (.patchWithFields key)
    else (ofMember key argument).map some
  | patches => .error (.severalPatches (patches.map Prod.fst))

/-! ## The new body -/

open Jsonb (Expr)

/-- The path, bound as the second parameter. -/
def pathParam : Expr := (Expr.param 2).asPath

/-- The value, bound as the third parameter. -/
def valueParam : Expr := (Expr.param 3).asJson

/-- `e` with an object at `parent`, unless the body has a value there. -/
def ensure (e : Expr) (parent : List String) : Expr :=
  let path := (Expr.literal (DocPath.arrayText parent)).asPath
  .call "jsonb_set"
    [e, path, .getOr .body path (Expr.literal "\x7b\x7d").asJson, .bool true]

/-- The body with every missing container above a place created. -/
def withParents (segments : List String) : Expr := (DocPath.parents segments).foldl ensure .body

/-- The array at the place, or an empty one, with the value appended. -/
def appended : Expr :=
  .binary .concat (.getOr .body pathParam (Expr.literal "[]").asJson)
    (.call "jsonb_build_array" [valueParam])

def assignment (segments : List String) : Patch → Expr
  | .write .set _ _ =>
    .call "jsonb_set" [withParents segments, pathParam, valueParam, .bool true]
  | .write .insert _ _ => .call "jsonb_insert" [withParents segments, pathParam, valueParam]
  | .write .push _ _ =>
    .call "jsonb_set" [withParents segments, pathParam, appended, .bool true]
  | .remove _ => .binary .delete .body pathParam

/-! ## The statement -/

/-- The id, the path and, where there is one, the text of the value. -/
def params (id : Cell) (segments : List String) : Patch → List Cell
  | .write _ _ value => [id, .text (DocPath.arrayText segments), .text value.text]
  | .remove _ => [id, .text (DocPath.arrayText segments)]

/-- The update of the row with the id bound as the first parameter. -/
def updateSql (table : Sql) (primaryKey : String) (body : Sql) : Sql :=
  .text "update " :: table ++ .text " set body = " :: body
    ++ [.text " where ", .name primaryKey, .text " = ", .placeholder 1, .text " returning *"]

/-- The update that carries the patch out, and its parameters. -/
def statement (p : Patch) (table : Sql) (primaryKey : String) (id : Cell) :
    Except Refusal (Sql × List Cell) := do
  let segments ← DocPath.segments p.path
  return (updateSql table primaryKey (p.assignment segments).sql, p.params id segments)

end Patch

end DocStore
