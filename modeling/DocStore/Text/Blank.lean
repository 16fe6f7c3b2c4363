/-!
# Blank characters and trimming

Blank is the Unicode property `White_Space`: twenty-five characters, of
which ASCII has six. Names, paths and filter entries are trimmed of
them at both ends, and the first word of a statement ends at one.

Text is computed on as a list of characters (`Chars`), so that every
function is a recursion on its input; the same operations on `String`
go through `toList`.
-/

namespace DocStore

/-! ## On characters -/

def isBlank (c : Char) : Bool :=
  let n := c.toNat
  (9 ≤ n && n ≤ 13) || n == 0x20 || n == 0x85 || n == 0xA0 || n == 0x1680
    || (0x2000 ≤ n && n ≤ 0x200A) || n == 0x2028 || n == 0x2029 || n == 0x202F
    || n == 0x205F || n == 0x3000

namespace Chars

def trimLeft (s : List Char) : List Char := s.dropWhile isBlank

def trimRight (s : List Char) : List Char := (s.reverse.dropWhile isBlank).reverse

/-- `s` without the blanks at its two ends. -/
def trim (s : List Char) : List Char := trimRight (trimLeft s)

/-- The longest run of characters that are not blank, after leading blanks. -/
def firstWord (s : List Char) : List Char := (trimLeft s).takeWhile (!isBlank ·)

/-- Text that starts and ends with characters that are not blank is trimmed. -/
theorem trim_eq_self {s : List Char} (hl : ∀ c ∈ s.head?, isBlank c = false)
    (hr : ∀ c ∈ s.getLast?, isBlank c = false) : trim s = s := by
  have left : trimLeft s = s := by
    cases s with
    | nil => rfl
    | cons c s => simp [trimLeft, hl c (by simp)]
  have right : trimRight s = s := by
    unfold trimRight
    cases h : s.reverse with
    | nil => simpa using h.symm
    | cons c t =>
      have : isBlank c = false := hr c (by
        rw [Option.mem_def, ← List.head?_reverse, h, List.head?_cons])
      simp only [List.dropWhile_cons, this]
      rw [if_neg (by simp), ← h, List.reverse_reverse]
  rw [trim, left, right]

end Chars

/-! ## On strings -/

/-- `s` without the blanks at its two ends. -/
def Text.trim (s : String) : String := .ofList (Chars.trim s.toList)

/-- Nothing but blanks, or nothing at all. -/
def Text.isBlank (s : String) : Bool := s.toList.all DocStore.isBlank

/-- The first run of characters that are not blank; empty if there is none. -/
def Text.firstWord (s : String) : String := .ofList (Chars.firstWord s.toList)

end DocStore
