import DocStore.Json.Token

/-!
# Reading JSON text

Tokens are arranged into a value by a machine with a stack: one frame
for every open container whose next part is being read. Of two members
with one key the later counts. Containers nested deeper than
`depthLimit` are refused.
-/

namespace DocStore.Json

/-- How many containers may stand inside one another. -/
def depthLimit : Nat := 127

/-! ## The machine -/

/-- An open container around the value being read. -/
inductive Frame where
  /-- An array with the items so far, the last one first. -/
  | items (done : List Json)
  /-- An object with the members so far and the key of the value. -/
  | member (done : Members) (key : String)

inductive Place where
  | value
  | firstItem
  | firstKey
  | key (done : Members)
  | colon (done : Members) (key : String)
  | after (j : Json)

abbrev Machine := List Frame × Place

def startValue (stack : List Frame) : Token → Option Machine
  | .scalar j => some (stack, .after j)
  | .str s => some (stack, .after (.str s))
  | .openArray => if stack.length < depthLimit then some (.items [] :: stack, .firstItem) else none
  | .openObject => if stack.length < depthLimit then some (stack, .firstKey) else none
  | _ => none

def afterValue (j : Json) : List Frame → Token → Option Machine
  | .items done :: stack, .comma => some (.items (j :: done) :: stack, .value)
  | .items done :: stack, .closeArray => some (stack, .after (.arr (j :: done).reverse))
  | .member done key :: stack, .comma => some (stack, .key (done.insert key j))
  | .member done key :: stack, .closeObject => some (stack, .after (.obj (done.insert key j)))
  | _, _ => none

def advance : Machine → Token → Option Machine
  | (stack, .value), token => startValue stack token
  | (.items [] :: stack, .firstItem), .closeArray => some (stack, .after (.arr []))
  | (stack, .firstItem), token => startValue stack token
  | (stack, .firstKey), .closeObject => some (stack, .after (.obj []))
  | (stack, .firstKey), .str key => some (stack, .colon [] key)
  | (stack, .key done), .str key => some (stack, .colon done key)
  | (stack, .colon done key), .colon => some (.member done key :: stack, .value)
  | (stack, .after j), token => afterValue j stack token
  | _, _ => none

/-- The value of a run of tokens that completes it. -/
def build : Machine → List Token → Option Json
  | ([], .after j), [] => some j
  | _, [] => none
  | machine, token :: rest => (advance machine token).bind (build · rest)

/-! ## Reading -/

/-- The value that `s` is the text of, blanks around tokens allowed. -/
def ofChars? (s : List Char) : Option Json :=
  (Token.scan .between s).bind (build ([], .value))

def read? (s : String) : Option Json := ofChars? s.toList

end DocStore.Json
