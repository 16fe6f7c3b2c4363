/-!
# SQL text in pieces

A statement is built as a list of pieces: fixed text of a template,
names in double quotes, string constants in single quotes, and
placeholders for parameters. Only `render` turns pieces into text, so
what a caller supplies can reach a statement in no other way than inside
quotes, where every quote that it holds is doubled.

Main statement: undoubling what stands between the quotes gives the
supplied text back (`undoubled_doubled`), whatever follows the closing
quote, as long as that is not another quote.
-/

namespace DocStore

namespace Sql

inductive Piece where
  /-- Text of a template, written as it is. -/
  | text (s : String)
  /-- A name, between double quotes. -/
  | name (s : String)
  /-- A string constant, between single quotes. -/
  | literal (s : String)
  /-- The place of the parameter with this ordinal, counted from one. -/
  | placeholder (ordinal : Nat)
deriving Repr, DecidableEq

/-! ## Quotes -/

def doubled (quote : Char) : List Char → List Char
  | [] => []
  | c :: s => if c = quote then quote :: quote :: doubled quote s else c :: doubled quote s

/-- Reads up to the closing quote: the text with its quotes undoubled, and
what follows. -/
def undoubled? (quote : Char) : List Char → Option (List Char × List Char)
  | [] => none
  | [c] => if c = quote then some ([], []) else none
  | c :: d :: s =>
    if c = quote then
      if d = quote then (undoubled? quote s).map fun (t, rest) => (quote :: t, rest)
      else some ([], d :: s)
    else (undoubled? quote (d :: s)).map fun (t, rest) => (c :: t, rest)

theorem undoubled_doubled {quote : Char} (s : List Char) {rest : List Char}
    (h : rest.head? ≠ some quote) :
    undoubled? quote (doubled quote s ++ quote :: rest) = some (s, rest) := by
  induction s with
  | nil =>
    cases rest with
    | nil => simp [doubled, undoubled?]
    | cons d rest =>
      have hd : d ≠ quote := by simpa using h
      simp [doubled, undoubled?, hd]
  | cons c s ih =>
    by_cases hc : c = quote
    · simp [doubled, undoubled?, hc, ih]
    · obtain ⟨d, t, hdt⟩ : ∃ d t, doubled quote s ++ quote :: rest = d :: t := by
        cases doubled quote s with
        | nil => exact ⟨_, _, rfl⟩
        | cons d t => exact ⟨_, _, rfl⟩
      rw [doubled, if_neg hc, List.cons_append, hdt, undoubled?, if_neg hc, ← hdt, ih]
      rfl

/-! ## Rendering -/

namespace Piece

def chars : Piece → List Char
  | .text s => s.toList
  | .name s => '"' :: doubled '"' s.toList ++ ['"']
  | .literal s => '\'' :: doubled '\'' s.toList ++ ['\'']
  | .placeholder n => '$' :: Nat.toDigits 10 n

end Piece

end Sql

abbrev Sql := List Sql.Piece

namespace Sql

def chars (sql : Sql) : List Char := sql.flatMap Piece.chars

def render (sql : Sql) : String := .ofList (chars sql)

@[simp] theorem chars_nil : chars [] = [] := rfl

@[simp] theorem chars_cons (p : Piece) (sql : Sql) : chars (p :: sql) = p.chars ++ chars sql := by
  simp [chars]

@[simp] theorem chars_append (a b : Sql) : chars (a ++ b) = chars a ++ chars b := by
  simp [chars]

/-- `parts` with `between` between every two of them. -/
def joined (between : String) : List Sql → Sql
  | [] => []
  | [part] => part
  | part :: parts => part ++ .text between :: joined between parts

end Sql

/-! ## Names of tables and functions

An entity of the default schema goes by its bare name; every other one is
qualified by its schema and a dot. The same rule gives the name that callers
use and the quoted name that statements use. -/

def qualifiedName (defaultSchema schema name : String) : String :=
  if schema = defaultSchema then name else schema ++ "." ++ name

/-- The qualified name in pieces, each part between its own quotes. -/
def Sql.qualified (defaultSchema schema name : String) : Sql :=
  if schema = defaultSchema then [.name name] else [.name schema, .text ".", .name name]

/-- The name of the text index of a table: `idx_` and the qualified name,
with underscores for dots. -/
def searchIndexName (qualified : String) : String :=
  .ofList ("idx_".toList ++ qualified.toList.map fun c => if c = '.' then '_' else c)

end DocStore
