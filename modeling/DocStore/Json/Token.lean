import DocStore.Json.Basic

/-!
# Tokens of JSON text

JSON text is read in two passes. The first, here, is a machine that
takes one character at a time and emits tokens: brackets, punctuation,
strings with their escapes undone, and words (numbers and the three
literals). The second, `Json.Reader`, arranges tokens into a value.

A string may hold every character except an unescaped control character;
an escaped high surrogate must be followed by an escaped low one, and
the two make up one character.
-/

namespace DocStore.Json

inductive Token where
  | openArray
  | closeArray
  | openObject
  | closeObject
  | comma
  | colon
  | str (s : String)
  | scalar (j : Json)

namespace Token

/-! ## The state of the machine -/

/-- Where in the text the machine stands. Characters taken so far are kept
in reverse. -/
inductive Mode where
  | between
  | word (taken : List Char)
  | string (taken : List Char)
  | escape (taken : List Char)
  /-- Inside `\u`: digits still to come, their value so far, and the high
  surrogate before this one if there was one. -/
  | code (taken : List Char) (high : Option Nat) (left value : Nat)
  /-- After a high surrogate, before the backslash. -/
  | pair (taken : List Char) (high : Nat)
  | pairEscape (taken : List Char) (high : Nat)

/-- The four blanks of JSON. -/
def isSpace (c : Char) : Bool := c = ' ' || c = '\t' || c = '\n' || c = '\r'

/-- Characters of numbers and literals. -/
def isWordChar (c : Char) : Bool := c.isAlphanum || c = '+' || c = '-' || c = '.'

def ofWord? (word : List Char) : Option Token :=
  if word = ['n', 'u', 'l', 'l'] then some (.scalar .null)
  else if word = ['t', 'r', 'u', 'e'] then some (.scalar (.bool true))
  else if word = ['f', 'a', 'l', 's', 'e'] then some (.scalar (.bool false))
  else (Number.ofChars? word).map fun n => .scalar (.num n)

/-! ## Escapes -/

def hexValue? (c : Char) : Option Nat :=
  if c.isDigit then some (c.toNat - 48)
  else if 'a' ≤ c && c ≤ 'f' then some (c.toNat - 87)
  else if 'A' ≤ c && c ≤ 'F' then some (c.toNat - 55)
  else none

def escaped? (c : Char) : Option Char :=
  if c = '"' || c = '\\' || c = '/' then some c
  else if c = 'b' then some '\x08'
  else if c = 'f' then some '\x0c'
  else if c = 'n' then some '\n'
  else if c = 'r' then some '\r'
  else if c = 't' then some '\t'
  else none

/-- Continues after the four digits of `\u`. -/
def codeDone (taken : List Char) (high : Option Nat) (value : Nat) : Option Mode :=
  let isHigh := 0xD800 ≤ value && value < 0xDC00
  let isLow := 0xDC00 ≤ value && value < 0xE000
  match high with
  | none =>
    if isHigh then some (.pair taken value)
    else if isLow then none
    else some (.string (.ofNat value :: taken))
  | some high =>
    if isLow then
      some (.string (.ofNat (0x10000 + (high - 0xD800) * 1024 + (value - 0xDC00)) :: taken))
    else none

/-! ## Steps -/

def start (c : Char) : Option (Mode × List Token) :=
  if isSpace c then some (.between, [])
  else if c = '[' then some (.between, [.openArray])
  else if c = ']' then some (.between, [.closeArray])
  else if c = '\x7b' then some (.between, [.openObject])
  else if c = '\x7d' then some (.between, [.closeObject])
  else if c = ',' then some (.between, [.comma])
  else if c = ':' then some (.between, [.colon])
  else if c = '"' then some (.string [], [])
  else if isWordChar c then some (.word [c], [])
  else none

/-- One character, with the tokens that it completes. -/
def step : Mode → Char → Option (Mode × List Token)
  | .between, c => start c
  | .word taken, c =>
    if isWordChar c then some (.word (c :: taken), [])
    else do
      let token ← ofWord? taken.reverse
      let (mode, tokens) ← start c
      some (mode, token :: tokens)
  | .string taken, c =>
    if c = '"' then some (.between, [.str (.ofList taken.reverse)])
    else if c = '\\' then some (.escape taken, [])
    else if c.toNat < 32 then none
    else some (.string (c :: taken), [])
  | .escape taken, c =>
    if c = 'u' then some (.code taken none 4 0, [])
    else (escaped? c).map fun e => (.string (e :: taken), [])
  | .code taken high left value, c => do
    let digit ← hexValue? c
    let value := 16 * value + digit
    if left = 1 then (codeDone taken high value).map (·, [])
    else some (.code taken high (left - 1) value, [])
  | .pair taken high, c => if c = '\\' then some (.pairEscape taken high, []) else none
  | .pairEscape taken high, c => if c = 'u' then some (.code taken (some high) 4 0, []) else none

def scan : Mode → List Char → Option (List Token)
  | .between, [] => some []
  | .word taken, [] => (ofWord? taken.reverse).map ([·])
  | _, [] => none
  | mode, c :: s => do
    let (mode, tokens) ← step mode c
    let rest ← scan mode s
    some (tokens ++ rest)

end Token

end DocStore.Json
