import DocStore.Cell
import DocStore.Filter.Like
import DocStore.Text.Split

/-!
# Which tables are loaded

Tables are filtered by their schema and by patterns of their names. A
whitelist, if there is one, decides alone. Otherwise exceptions are
loaded in any case, and other tables if their schema is allowed and they
are not on the blacklist. The filter is sent to the database as
parameters of the discovery query and applied again to its reply.
-/

namespace DocStore

/-! ## Lists

A filter is given as text with entries separated by commas, or as a list of
such texts. Entries are trimmed and empty ones dropped. Joined with commas
again the entries make up the parameter of the discovery queries, where the
empty text stands for no filter. -/

structure FilterList where
  entries : List String
deriving Repr, DecidableEq

namespace FilterList

def empty : FilterList := ⟨[]⟩

def ofString (s : String) : FilterList :=
  ⟨((Text.splitOn ',' s).map Text.trim).filter (· ≠ "")⟩

/-- The entries of all texts of a list, in order. -/
def ofList (items : List String) : FilterList := ofString (",".intercalate items)

def isEmpty (l : FilterList) : Bool := l.entries.isEmpty

def param (l : FilterList) : String := ",".intercalate l.entries

end FilterList

/-! ## Schemas -/

/-- The allowed schemas; without any, all are. -/
structure SchemaFilter where
  allowed : FilterList
deriving Repr, DecidableEq

namespace SchemaFilter

/-- Does the entry stand for all schemas? ASCII case does not count. -/
def isAll (entry : String) : Bool :=
  entry = "*" || entry.toList.map Char.toLower = "all".toList

/-- One entry for all schemas lifts every restriction. -/
def ofList (l : FilterList) : SchemaFilter := if l.entries.any isAll then ⟨.empty⟩ else ⟨l⟩

def allows (f : SchemaFilter) (schema : String) : Bool :=
  f.allowed.isEmpty || f.allowed.entries.contains schema

def param (f : SchemaFilter) : String := f.allowed.param

end SchemaFilter

/-! ## Names -/

structure TablePatterns where
  source : FilterList
deriving Repr, DecidableEq

namespace TablePatterns

def isEmpty (p : TablePatterns) : Bool := p.source.isEmpty

/-- Does a pattern match the bare name, or the name with its schema? -/
def isMatch (p : TablePatterns) (schema name : String) : Bool :=
  p.source.entries.any fun pattern =>
    Like.isMatch pattern name || Like.isMatch pattern (schema ++ "." ++ name)

def param (p : TablePatterns) : String := p.source.param

end TablePatterns

/-! ## Both -/

structure TableFilter where
  schemas : SchemaFilter
  blacklist : TablePatterns
  exceptions : TablePatterns
  whitelist : Option TablePatterns
deriving Repr, DecidableEq

namespace TableFilter

/-- The filter of four lists. An empty whitelist counts as none. -/
def ofLists (schemas blacklist exceptions : FilterList) (whitelist : Option FilterList) :
    TableFilter where
  schemas := .ofList schemas
  blacklist := ⟨blacklist⟩
  exceptions := ⟨exceptions⟩
  whitelist := (whitelist.filter fun l => !l.isEmpty).map fun l => ⟨l⟩

def allows (f : TableFilter) (schema name : String) : Bool :=
  match f.whitelist with
  | some patterns => patterns.isMatch schema name
  | none =>
    f.exceptions.isMatch schema name
      || (f.schemas.allows schema && !f.blacklist.isMatch schema name)

def params (f : TableFilter) : List Cell :=
  match f.whitelist with
  | some patterns => [.text patterns.param]
  | none => [.text f.schemas.param, .text f.blacklist.param, .text f.exceptions.param]

end TableFilter

end DocStore
