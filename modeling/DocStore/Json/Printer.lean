import DocStore.Json.Basic

/-!
# The text of a JSON value

One text per value: no spaces, members in key order, and in strings only
the escapes that JSON demands. The short escapes are used where there is
one; other control characters are written with four hexadecimal digits.
-/

namespace DocStore.Json

/-! ## Strings -/

/-- The last two of the four hexadecimal digits of a control character. -/
def controlDigits (n : Nat) : List Char := [Nat.digitChar (n / 16), Nat.digitChar (n % 16)]

def escapedChar (c : Char) : List Char :=
  if c = '"' then ['\\', '"']
  else if c = '\\' then ['\\', '\\']
  else if c = '\n' then ['\\', 'n']
  else if c = '\r' then ['\\', 'r']
  else if c = '\t' then ['\\', 't']
  else if c = '\x08' then ['\\', 'b']
  else if c = '\x0c' then ['\\', 'f']
  else if c.toNat < 32 then '\\' :: 'u' :: '0' :: '0' :: controlDigits c.toNat
  else [c]

def stringChars (s : String) : List Char := '"' :: s.toList.flatMap escapedChar ++ ['"']

/-! ## Values -/

mutual

def chars : Json → List Char
  | .null => ['n', 'u', 'l', 'l']
  | .bool true => ['t', 'r', 'u', 'e']
  | .bool false => ['f', 'a', 'l', 's', 'e']
  | .num n => n.chars
  | .str s => stringChars s
  | .arr items => '[' :: itemsChars items ++ [']']
  | .obj members => '\x7b' :: membersChars members ++ ['\x7d']

def itemsChars : List Json → List Char
  | [] => []
  | j :: rest => chars j ++ moreItems rest

/-- Further items, each after a comma. -/
def moreItems : List Json → List Char
  | [] => []
  | j :: rest => ',' :: chars j ++ moreItems rest

def membersChars : List (String × Json) → List Char
  | [] => []
  | (k, j) :: rest => stringChars k ++ ':' :: chars j ++ moreMembers rest

/-- Further members, each after a comma. -/
def moreMembers : List (String × Json) → List Char
  | [] => []
  | (k, j) :: rest => ',' :: stringChars k ++ ':' :: chars j ++ moreMembers rest

end

def text (j : Json) : String := .ofList j.chars

end DocStore.Json
