import DocStore.Proofs.Text.Integer
import DocStore.Sql.Piece

/-!
# Taking SQL text apart

The rules of quoting: a name stands between double quotes and a constant
between single quotes, a quote inside of either is written twice, and a
backslash is a character like any other. A dollar sign with digits is a
placeholder. All other text is taken one character at a time.

A text is taken apart into the pieces it was put together from
(`lex_chars`) if no piece runs into the next one and the text of the
template holds no quote and no dollar sign itself (`Legible`). What the
names and the constants hold does not matter.
-/

namespace DocStore.Sql

inductive Lexeme where
  | char (c : Char)
  | name (s : String)
  | literal (s : String)
  | placeholder (ordinal : Nat)
deriving Repr, DecidableEq

namespace Lexeme

def ordinal? : Lexeme → Option Nat
  | .placeholder n => some n
  | _ => none

/-- The lexeme without what stands inside its quotes. -/
def erased : Lexeme → Lexeme
  | .name _ => .name ""
  | .literal _ => .literal ""
  | l => l

end Lexeme

/-! ## The rules -/

/-- What stands between two of these characters, if they are quotes. -/
def quoting? (c : Char) : Option (String → Lexeme) :=
  if c = '"' then some .name else if c = '\'' then some .literal else none

theorem length_of_undoubled? {quote : Char} : ∀ {s t rest : List Char},
    undoubled? quote s = some (t, rest) → rest.length < s.length
  | [], _, _, h => by cases h
  | [c], t, rest, h => by
    unfold undoubled? at h
    split at h
    · cases h
      simp
    · cases h
  | c :: d :: s, t, rest, h => by
    unfold undoubled? at h
    split at h
    · split at h
      · obtain ⟨⟨t', rest'⟩, h', heq⟩ := Option.map_eq_some_iff.mp h
        cases heq
        have := length_of_undoubled? h'
        simp only [List.length_cons]
        omega
      · cases h
        simp
    · obtain ⟨⟨t', rest'⟩, h', heq⟩ := Option.map_eq_some_iff.mp h
      cases heq
      have := length_of_undoubled? h'
      simp only [List.length_cons] at this ⊢
      omega

/-- The ordinal of a placeholder that begins with `c`. -/
def ordinalAt? (c : Char) (s : List Char) : Option Nat :=
  if c = '$' then Chars.nat? (s.takeWhile Char.isDigit) else none

/-- The lexemes of a text; none if a quote is not closed. -/
def lex : List Char → Option (List Lexeme)
  | [] => some []
  | c :: s =>
    match quoting? c with
    | some quoted =>
      match h : undoubled? c s with
      | some (t, rest) =>
        have := length_of_undoubled? h
        (lex rest).map (quoted (.ofList t) :: ·)
      | none => none
    | none =>
      match ordinalAt? c s with
      | some n =>
        have := (List.dropWhile_suffix Char.isDigit (l := s)).length_le
        (lex (s.dropWhile Char.isDigit)).map (.placeholder n :: ·)
      | none => (lex s).map (.char c :: ·)
termination_by s => s.length

/-- A character that stands for itself. -/
def Ordinary (c : Char) : Prop := c ≠ '"' ∧ c ≠ '\'' ∧ c ≠ '$'

/-- What stands before such a text ends there: the text begins with neither a
quote nor a digit. -/
def Ends (s : List Char) : Prop := ∀ c ∈ s.head?, c ≠ '"' ∧ c ≠ '\'' ∧ c.isDigit = false

instance : DecidablePred Ordinary := fun _ => inferInstanceAs (Decidable (_ ∧ _ ∧ _))

-- found before an instance that goes through all characters there are
instance (s : List Char) : Decidable (∀ c ∈ s, Ordinary c) := List.decidableBAll Ordinary s

theorem lex_ordinary {c : Char} (h : Ordinary c) (s : List Char) :
    lex (c :: s) = (lex s).map (.char c :: ·) := by
  obtain ⟨hname, hliteral, hdollar⟩ := h
  simp [lex, quoting?, ordinalAt?, hname, hliteral, hdollar]

theorem lex_quoted {quote : Char} {quoted : String → Lexeme} (h : quoting? quote = some quoted)
    (t : List Char) {rest : List Char} (hrest : rest.head? ≠ some quote) :
    lex (quote :: doubled quote t ++ quote :: rest) = (lex rest).map (quoted (.ofList t) :: ·) := by
  rw [List.cons_append, lex, h]
  have hundoubled := undoubled_doubled t hrest
  simp only
  split
  · rename_i t' rest' heq
    rw [hundoubled] at heq
    cases heq
    rfl
  · rename_i heq
    rw [hundoubled] at heq
    cases heq

theorem lex_placeholder (n : Nat) {rest : List Char} (hrest : ∀ c ∈ rest.head?, c.isDigit = false) :
    lex ('$' :: Nat.toDigits 10 n ++ rest) = (lex rest).map (.placeholder n :: ·) := by
  have hordinal : ordinalAt? '$' (Nat.toDigits 10 n ++ rest) = some n := by
    rw [ordinalAt?, if_pos rfl, Chars.takeWhile_toDigits n hrest, Chars.nat?_toDigits]
  rw [List.cons_append, lex, show quoting? '$' = none from rfl, hordinal]
  simp only
  rw [Chars.dropWhile_toDigits n hrest]

/-! ## Pieces -/

namespace Piece

/-- What a piece is read as. -/
def lexemes : Piece → List Lexeme
  | .text s => s.toList.map .char
  | .name s => [.name s]
  | .literal s => [.literal s]
  | .placeholder n => [.placeholder n]

def ordinal? : Piece → Option Nat
  | .placeholder n => some n
  | _ => none

/-- The piece without what stands inside its quotes. -/
def erased : Piece → Piece
  | .name _ => .name ""
  | .literal _ => .literal ""
  | p => p

end Piece

def lexemes (sql : Sql) : List Lexeme := sql.flatMap Piece.lexemes

@[simp] theorem lexemes_nil : lexemes [] = [] := rfl

@[simp] theorem lexemes_cons (p : Piece) (sql : Sql) :
    lexemes (p :: sql) = p.lexemes ++ lexemes sql := by
  simp [lexemes]

@[simp] theorem lexemes_append (a b : Sql) : lexemes (a ++ b) = lexemes a ++ lexemes b := by
  simp [lexemes]

/-- The text of the template holds ordinary characters only, and what follows
a name, a constant or a placeholder is not taken for a part of it. -/
def Legible : Sql → Prop
  | [] => True
  | .text s :: rest => (∀ c ∈ s.toList, Ordinary c) ∧ Legible rest
  | _ :: rest => Ends (chars rest) ∧ Legible rest

theorem lex_text {s : List Char} (h : ∀ c ∈ s, Ordinary c) (rest : List Char) :
    lex (s ++ rest) = (lex rest).map (s.map .char ++ ·) := by
  induction s with
  | nil => simp
  | cons c s ih =>
    rw [List.forall_mem_cons] at h
    rw [List.cons_append, lex_ordinary h.1, ih h.2, Option.map_map]
    rfl

/-- A legible text is read as the pieces it is made of. -/
theorem lex_chars : ∀ {sql : Sql}, Legible sql → lex (chars sql) = some (lexemes sql)
  | [], _ => by simp [lex]
  | .text s :: rest, h => by
    rw [chars_cons, Piece.chars, lex_text h.1, lex_chars h.2]
    simp [Piece.lexemes]
  | .name s :: rest, h => by
    have hrest : (chars rest).head? ≠ some '"' := fun hc => (h.1 _ hc).1 rfl
    have hquoted := lex_quoted (show quoting? '"' = some .name from rfl) s.toList hrest
    rw [chars_cons, Piece.chars, List.append_assoc, List.singleton_append, hquoted, lex_chars h.2]
    simp [Piece.lexemes]
  | .literal s :: rest, h => by
    have hrest : (chars rest).head? ≠ some '\'' := fun hc => (h.1 _ hc).2.1 rfl
    have hquoted := lex_quoted (show quoting? '\'' = some .literal from rfl) s.toList hrest
    rw [chars_cons, Piece.chars, List.append_assoc, List.singleton_append, hquoted, lex_chars h.2]
    simp [Piece.lexemes]
  | .placeholder n :: rest, h => by
    have hdigit : ∀ c ∈ (chars rest).head?, c.isDigit = false := fun c hc => (h.1 c hc).2.2
    have hread := lex_placeholder n hdigit
    rw [chars_cons, Piece.chars, hread, lex_chars h.2]
    simp [Piece.lexemes]

theorem ends_nil : Ends [] := nofun

theorem Ends.append {a b : Sql} (ha : Ends (chars a)) (hb : Ends (chars b)) :
    Ends (chars (a ++ b)) := by
  rw [chars_append]
  cases h : chars a with
  | nil => exact hb
  | cons c s =>
    rw [h] at ha
    exact ha

theorem Legible.append : ∀ {a b : Sql}, Legible a → Legible b → Ends (chars b) → Legible (a ++ b)
  | [], _, _, hb, _ => hb
  | .text _ :: _, _, ha, hb, hends => ⟨ha.1, ha.2.append hb hends⟩
  | .name _ :: _, _, ha, hb, hends => ⟨ha.1.append hends, ha.2.append hb hends⟩
  | .literal _ :: _, _, ha, hb, hends => ⟨ha.1.append hends, ha.2.append hb hends⟩
  | .placeholder _ :: _, _, ha, hb, hends => ⟨ha.1.append hends, ha.2.append hb hends⟩

/-! ## What the lexemes are -/

theorem filterMap_ordinal?_lexemes (sql : Sql) :
    (lexemes sql).filterMap Lexeme.ordinal? = sql.filterMap Piece.ordinal? := by
  induction sql with
  | nil => rfl
  | cons p sql ih =>
    rw [lexemes_cons, List.filterMap_append, ih]
    cases p <;> simp [Piece.lexemes, Lexeme.ordinal?, Piece.ordinal?, List.filterMap_cons]

theorem name_mem_lexemes {s : String} {sql : Sql} (h : .name s ∈ lexemes sql) : .name s ∈ sql := by
  obtain ⟨p, hp, hs⟩ := List.mem_flatMap.mp h
  cases p <;> simp_all [Piece.lexemes]

theorem literal_mem_lexemes {s : String} {sql : Sql} (h : .literal s ∈ lexemes sql) :
    .literal s ∈ sql := by
  obtain ⟨p, hp, hs⟩ := List.mem_flatMap.mp h
  cases p <;> simp_all [Piece.lexemes]

theorem map_erased_lexemes (sql : Sql) :
    (lexemes sql).map Lexeme.erased = lexemes (sql.map Piece.erased) := by
  induction sql with
  | nil => rfl
  | cons p sql ih =>
    rw [lexemes_cons, List.map_append, ih, List.map_cons, lexemes_cons]
    cases p <;> simp [Piece.lexemes, Piece.erased, Lexeme.erased]

/-! ## Joined parts -/

theorem mem_joined {sep : String} {p : Piece} : ∀ {parts : List Sql}, p ∈ joined sep parts →
    p = .text sep ∨ ∃ part ∈ parts, p ∈ part
  | [part], h => .inr ⟨part, by simp, h⟩
  | part :: next :: parts, h => by
    rw [joined, List.mem_append, List.mem_cons] at h
    · rcases h with h | rfl | h
      · exact .inr ⟨part, by simp, h⟩
      · exact .inl rfl
      · rcases mem_joined h with rfl | ⟨other, hother, h⟩
        · exact .inl rfl
        · exact .inr ⟨other, List.mem_cons_of_mem _ hother, h⟩
    · simp

theorem legible_joined {sep : String} (hsep : ∀ c ∈ sep.toList, Ordinary c)
    (hends : ∀ rest, Ends (sep.toList ++ rest)) : ∀ {parts : List Sql},
      (∀ part ∈ parts, Legible part) → Legible (joined sep parts)
  | [], _ => trivial
  | [part], h => h part (by simp)
  | part :: next :: parts, h => by
    rw [List.forall_mem_cons] at h
    have hrest : Legible (.text sep :: joined sep (next :: parts)) :=
      ⟨hsep, legible_joined hsep hends h.2⟩
    rw [joined]
    · exact h.1.append hrest (by rw [chars_cons]; exact hends _)
    · simp

theorem map_erased_joined (sep : String) : ∀ parts : List Sql,
    (joined sep parts).map Piece.erased = joined sep (parts.map (·.map Piece.erased))
  | [] => rfl
  | [_] => rfl
  | part :: next :: parts => by
    have ih := map_erased_joined sep (next :: parts)
    rw [joined, List.map_append, List.map_cons, ih]
    · rfl
    · simp

theorem filterMap_ordinal?_joined (sep : String) : ∀ parts : List Sql,
    (joined sep parts).filterMap Piece.ordinal? = parts.flatMap (·.filterMap Piece.ordinal?)
  | [] => rfl
  | [part] => by simp [joined]
  | part :: next :: parts => by
    have ih := filterMap_ordinal?_joined sep (next :: parts)
    rw [joined, List.filterMap_append, List.flatMap_cons, ← ih]
    · rfl
    · simp

end DocStore.Sql
