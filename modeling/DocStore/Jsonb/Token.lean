import DocStore.Jsonb.Expr
import DocStore.Text.Integer

/-!
# Tokens of expressions

A machine that takes one character at a time. Blanks between tokens are
spaces only. A word may end in `[]`, as the names of array types do; in
a string constant two single quotes stand for one.
-/

namespace DocStore.Jsonb

inductive Token where
  | word (s : String)
  | param (ordinal : Nat)
  | literal (s : String)
  | cast
  | opening
  | closing
  | comma
  | op (op : Op)
deriving Repr, DecidableEq

namespace Token

/-- Where in the text the machine stands. Characters taken so far are kept
in reverse. -/
inductive Mode where
  | between
  | word (taken : List Char)
  | bracket (taken : List Char)
  | param (digits : List Char)
  | literal (taken : List Char)
  /-- After a single quote inside a constant: its end, unless another one
  follows. -/
  | quote (taken : List Char)
  | colon
  | hash
  | bar

def isWordStart (c : Char) : Bool := c.isAlpha || c = '_'

def isWordChar (c : Char) : Bool := c.isAlphanum || c = '_'

def ofWord (taken : List Char) : Token := .word (.ofList taken.reverse)

/-- A placeholder; its ordinal needs digits. -/
def ofDigits? (digits : List Char) : Option Token := (Chars.size? digits.reverse).map .param

def start (c : Char) : Option (Mode × List Token) :=
  if c = ' ' then some (.between, [])
  else if c = '(' then some (.between, [.opening])
  else if c = ')' then some (.between, [.closing])
  else if c = ',' then some (.between, [.comma])
  else if c = ':' then some (.colon, [])
  else if c = '#' then some (.hash, [])
  else if c = '|' then some (.bar, [])
  else if c = '$' then some (.param [], [])
  else if c = '\'' then some (.literal [], [])
  else if isWordStart c then some (.word [c], [])
  else none

/-- One character after a token that it does not belong to. -/
def startAfter (token : Token) (c : Char) : Option (Mode × List Token) :=
  (start c).map fun (mode, tokens) => (mode, token :: tokens)

/-- One character, with the tokens that it completes. -/
def step : Mode → Char → Option (Mode × List Token)
  | .between, c => start c
  | .word taken, c =>
    if isWordChar c then some (.word (c :: taken), [])
    else if c = '[' then some (.bracket taken, [])
    else startAfter (ofWord taken) c
  | .bracket taken, c =>
    if c = ']' then some (.between, [ofWord (']' :: '[' :: taken)]) else none
  | .param digits, c =>
    if c.isDigit then some (.param (c :: digits), [])
    else (ofDigits? digits).bind fun token => startAfter token c
  | .literal taken, c =>
    if c = '\'' then some (.quote taken, []) else some (.literal (c :: taken), [])
  | .quote taken, c =>
    if c = '\'' then some (.literal ('\'' :: taken), [])
    else startAfter (.literal (.ofList taken.reverse)) c
  | .colon, c => if c = ':' then some (.between, [.cast]) else none
  | .hash, c =>
    if c = '>' then some (.between, [.op .get])
    else if c = '-' then some (.between, [.op .delete])
    else none
  | .bar, c => if c = '|' then some (.between, [.op .concat]) else none

/-- The token that the end of the text completes. -/
def finish : Mode → Option (List Token)
  | .between => some []
  | .word taken => some [ofWord taken]
  | .param digits => (ofDigits? digits).map ([·])
  | .quote taken => some [.literal (.ofList taken.reverse)]
  | _ => none

def scan (mode : Mode) : List Char → Option (List Token)
  | [] => finish mode
  | c :: s => do
    let (mode, tokens) ← step mode c
    let rest ← scan mode s
    some (tokens ++ rest)

end Token

end DocStore.Jsonb
