/-!
# Patterns of names

In a pattern `%` and `*` stand for any run of characters and `_` for any
one character, a line feed excepted; a backslash takes away the special
meaning of the next character, and a backslash at the end stands for
itself. Everything else stands for itself alone.

A pattern is matched against all ends of a text at once: `matchEnds`
says for every end whether the pattern matches it, the whole text first.
Each symbol of the pattern adds one pass over the text, so matching
takes time proportional to the product of their lengths.

Where a library of regular expressions is at hand, a pattern can be given
to it as an expression (`expression`) instead.
-/

namespace DocStore.Like

inductive Symbol where
  | anyRun
  | anyOne
  | exactly (c : Char)
deriving Repr, DecidableEq

def symbols : List Char → List Symbol
  | [] => []
  | '\\' :: c :: s => .exactly c :: symbols s
  | c :: s =>
    if c = '%' || c = '*' then .anyRun :: symbols s
    else if c = '_' then .anyOne :: symbols s
    else .exactly c :: symbols s

/-- Is the character one that a wildcard stands for? -/
def isWild (c : Char) : Bool := c != '\n'

/-- One more symbol in front: from what the rest of the pattern says about
every end of the text to what the whole pattern says. -/
def matchSymbol (symbol : Symbol) : List Char → List Bool → List Bool
  | [], ends =>
    match symbol with
    | .anyRun => ends
    | _ => [false]
  | c :: s, ends =>
    let later := matchSymbol symbol s ends.tail
    let here := match symbol with
      | .anyRun => ends.headD false || (isWild c && later.headD false)
      | .anyOne => isWild c && ends.tail.headD false
      | .exactly d => c == d && ends.tail.headD false
    here :: later

/-- For every end of a text, from the whole text to the empty one, whether
the symbols match it. -/
def matchEnds : List Symbol → List Char → List Bool
  | [], s => List.replicate s.length false ++ [true]
  | symbol :: rest, s => matchSymbol symbol s (matchEnds rest s)

def isMatch (pattern text : String) : Bool :=
  (matchEnds (symbols pattern.toList) text.toList).headD false

/-! ## As a regular expression -/

/-- A pattern as a regular expression, where `escape` writes a character so that
it stands for itself alone. -/
def expressionChars (escape : Char → List Char) : List Char → List Char
  | [] => []
  | '\\' :: c :: s => escape c ++ expressionChars escape s
  | c :: s =>
    if c = '%' || c = '*' then '.' :: '*' :: expressionChars escape s
    else if c = '_' then '.' :: expressionChars escape s
    else escape c ++ expressionChars escape s

/-- The anchors make the expression match a text as a whole. -/
def expression (escape : Char → List Char) (pattern : String) : String :=
  .ofList ('^' :: expressionChars escape pattern.toList ++ ['$'])

end DocStore.Like
