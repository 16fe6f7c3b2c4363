import DocStore.Jsonb.Token
import DocStore.Proofs.Text.Integer

/-!
# The tokens of a written expression

`Expr.sql` writes an expression in pieces and the scanner takes the text
apart again, one character at a time. The scanner looks one character
ahead after words, numbers and constants, so what a piece scans to
depends on what follows it. Two notions keep this local: text that
`Scans` to some tokens does so at the end and before a delimiter, text
that `ScansOff` does so before anything. Both compose.

Main statement: the text of a `Writable` expression scans to
`Expr.tokens` (`scan_sql`). Constants may hold any character.
-/

namespace DocStore.Jsonb

namespace Token

/-! ## Scanning in parts -/

theorem scan_cons (mode : Mode) (c : Char) (s : List Char) :
    scan mode (c :: s) =
      (step mode c).bind fun r => (scan r.1 s).map (r.2 ++ ·) := by
  simp only [scan, Option.bind_eq_bind, Option.map_eq_bind]
  rfl

/-- Characters that end a word, a number and a constant. -/
def Delimits (c : Char) : Prop := c = ' ' ∨ c = '(' ∨ c = ')' ∨ c = ',' ∨ c = ':'

/-- `s` has the tokens `ts` before a delimiter and at the end of a text. -/
def Scans (s : List Char) (ts : List Token) : Prop :=
  scan .between s = some ts
    ∧ ∀ c rest, Delimits c →
      scan .between (s ++ c :: rest) = (scan .between (c :: rest)).map (ts ++ ·)

/-- `s` has the tokens `ts` whatever follows. -/
def ScansOff (s : List Char) (ts : List Token) : Prop :=
  ∀ rest, scan .between (s ++ rest) = (scan .between rest).map (ts ++ ·)

theorem ScansOff.scans {s : List Char} {ts : List Token} (h : ScansOff s ts) : Scans s ts := by
  refine ⟨?_, fun c rest _ => h (c :: rest)⟩
  have := h []
  rw [List.append_nil] at this
  rw [this]
  simp [scan, finish]

theorem ScansOff.nil : ScansOff [] [] := by
  intro rest
  simp

theorem ScansOff.append {s t : List Char} {ts us : List Token} (hs : ScansOff s ts)
    (ht : ScansOff t us) : ScansOff (s ++ t) (ts ++ us) := by
  intro rest
  rw [List.append_assoc, hs, ht, Option.map_map]
  congr 1
  funext vs
  simp

theorem ScansOff.append_scans {s t : List Char} {ts us : List Token} (hs : ScansOff s ts)
    (ht : Scans t us) : Scans (s ++ t) (ts ++ us) := by
  refine ⟨by rw [hs, ht.1]; rfl, fun c rest hc => ?_⟩
  rw [List.append_assoc, hs, ht.2 c rest hc, Option.map_map]
  congr 1
  funext vs
  simp

/-- Two texts one after the other, the second of which begins with a delimiter. -/
theorem Scans.append {s t : List Char} {c : Char} {ts us : List Token} (hs : Scans s ts)
    (ht : Scans (c :: t) us) (hc : Delimits c) : Scans (s ++ c :: t) (ts ++ us) := by
  refine ⟨by rw [hs.2 c t hc, ht.1]; rfl, fun d rest hd => ?_⟩
  rw [List.append_assoc, List.cons_append, hs.2 c _ hc, ← List.cons_append,
    ht.2 d rest hd, Option.map_map]
  congr 1
  funext vs
  simp

/-! ## Words -/

/-- A letter or an underscore, then letters, digits and underscores. -/
def isName : List Char → Bool
  | [] => false
  | c :: w => isWordStart c && w.all isWordChar

theorem scan_word {w : List Char} (hw : w.all isWordChar = true) (taken rest : List Char) :
    scan (.word taken) (w ++ rest) = scan (.word (w.reverse ++ taken)) rest := by
  induction w generalizing taken with
  | nil => rfl
  | cons c w ih =>
    rw [List.all_cons, Bool.and_eq_true] at hw
    rw [List.cons_append, scan_cons]
    simp only [step, hw.1, if_true, Option.bind_some, List.nil_append, Option.map_id_fun', id_eq]
    rw [ih hw.2, List.reverse_cons, List.append_assoc]
    rfl

theorem start_of_isWordStart {c : Char} (h : isWordStart c = true) :
    start c = some (.word [c], []) := by
  have hne : ∀ d, isWordStart d = false → c ≠ d := by
    rintro d hd rfl
    rw [h] at hd
    cases hd
  simp [start, h, hne ' ' rfl, hne '(' rfl, hne ')' rfl, hne ',' rfl, hne ':' rfl, hne '#' rfl,
    hne '|' rfl, hne '$' rfl, hne '\'' rfl]

theorem step_word_delimiter (taken : List Char) {c : Char} (hc : Delimits c) :
    step (.word taken) c = startAfter (ofWord taken) c := by
  rcases hc with rfl | rfl | rfl | rfl | rfl <;> rfl

theorem scan_startAfter (token : Token) (c : Char) (rest : List Char) :
    ((startAfter token c).bind fun r => (scan r.1 rest).map (r.2 ++ ·)) =
      (scan .between (c :: rest)).map (token :: ·) := by
  rw [scan_cons, startAfter, step]
  cases start c with
  | none => rfl
  | some r => simp [Option.map_map, Function.comp_def]

theorem scan_name {w : List Char} (hw : isName w = true) (rest : List Char) :
    scan .between (w ++ rest) = scan (.word w.reverse) rest := by
  cases w with
  | nil => simp [isName] at hw
  | cons c w =>
    rw [isName, Bool.and_eq_true] at hw
    rw [List.cons_append, scan_cons, step, start_of_isWordStart hw.1]
    simp only [Option.bind_some, List.nil_append, Option.map_id_fun', id_eq]
    rw [scan_word hw.2, List.reverse_cons]

theorem scans_name {s : String} (hs : isName s.toList = true) : Scans s.toList [.word s] := by
  have hword : ofWord s.toList.reverse = .word s := by simp [ofWord]
  refine ⟨?_, fun c rest hc => ?_⟩
  · have := scan_name hs []
    rw [List.append_nil] at this
    rw [this, scan, finish, hword]
  · rw [scan_name hs, scan_cons, step_word_delimiter _ hc, hword, scan_startAfter]
    rfl

/-- The name of an array type, with its brackets. -/
theorem scansOff_arrayName {s : String} (hs : isName s.toList = true) :
    ScansOff (s ++ "[]").toList [.word (s ++ "[]")] := by
  intro rest
  have hword : ofWord (']' :: '[' :: s.toList.reverse) = .word (s ++ "[]") := by
    simp only [ofWord, List.reverse_cons, List.reverse_reverse, List.append_assoc]
    rw [← String.ofList_toList (s := s ++ "[]"), String.toList_append]
    rfl
  rw [String.toList_append, List.append_assoc, scan_name hs]
  show scan (.word s.toList.reverse) ('[' :: ']' :: rest) = _
  rw [scan_cons]
  show (scan (.bracket s.toList.reverse) (']' :: rest)).map ([] ++ ·) = _
  rw [scan_cons, ← hword]
  simp [step, Function.comp_def]

/-! ## Numbers and constants -/

theorem scan_digits {ds : List Char} (hds : ∀ c ∈ ds, c.isDigit = true) (taken rest : List Char) :
    scan (.param taken) (ds ++ rest) = scan (.param (ds.reverse ++ taken)) rest := by
  induction ds generalizing taken with
  | nil => rfl
  | cons c ds ih =>
    rw [List.forall_mem_cons] at hds
    rw [List.cons_append, scan_cons]
    simp only [step, hds.1, if_true, Option.bind_some, List.nil_append, Option.map_id_fun', id_eq]
    rw [ih hds.2, List.reverse_cons, List.append_assoc]
    rfl

theorem step_param_delimiter {digits : List Char} {n : Nat}
    (h : ofDigits? digits = some (.param n)) {c : Char} (hc : Delimits c) :
    step (.param digits) c = startAfter (.param n) c := by
  have hdigit : c.isDigit = false := by rcases hc with rfl | rfl | rfl | rfl | rfl <;> rfl
  simp [step, hdigit, h]

theorem scans_placeholder {n : Nat} (h : n ≤ 18446744073709551615) :
    Scans ('$' :: Nat.toDigits 10 n) [.param n] := by
  have hdigits : ∀ c ∈ Nat.toDigits 10 n, c.isDigit = true :=
    fun c hc => Nat.isDigit_of_mem_toDigits (by decide) (by decide) hc
  have hread : ofDigits? (Nat.toDigits 10 n).reverse = some (.param n) := by
    simp [ofDigits?, Chars.size?_toDigits h]
  have hscan : ∀ rest, scan .between ('$' :: Nat.toDigits 10 n ++ rest) =
      scan (.param (Nat.toDigits 10 n).reverse) rest := by
    intro rest
    rw [List.cons_append, scan_cons]
    show (scan (.param []) (Nat.toDigits 10 n ++ rest)).map ([] ++ ·) = _
    rw [scan_digits hdigits]
    simp
  refine ⟨?_, fun c rest hc => ?_⟩
  · have := hscan []
    rw [List.append_nil] at this
    rw [this, scan, finish, hread]
    rfl
  · rw [hscan, scan_cons, step_param_delimiter hread hc, scan_startAfter]
    rfl

/-- Whatever the constant holds, its closing quote is found. -/
theorem scan_doubled (s taken rest : List Char) :
    scan (.literal taken) (Sql.doubled '\'' s ++ '\'' :: rest) =
      scan (.quote (s.reverse ++ taken)) rest := by
  induction s generalizing taken with
  | nil =>
    rw [Sql.doubled, List.nil_append, scan_cons]
    simp [step]
  | cons c s ih =>
    by_cases hc : c = '\''
    · subst hc
      rw [Sql.doubled, if_pos rfl, List.cons_append, List.cons_append, scan_cons]
      show (scan (.quote taken) ('\'' :: (Sql.doubled '\'' s ++ '\'' :: rest))).map ([] ++ ·) = _
      rw [scan_cons]
      show ((scan (.literal ('\'' :: taken)) (Sql.doubled '\'' s ++ '\'' :: rest)).map
        ([] ++ ·)).map ([] ++ ·) = _
      rw [ih]
      simp
    · rw [Sql.doubled, if_neg hc, List.cons_append, scan_cons]
      simp only [step, if_neg hc, Option.bind_some, List.nil_append, Option.map_id_fun', id_eq]
      rw [ih, List.reverse_cons, List.append_assoc]
      rfl

theorem step_quote_delimiter (taken : List Char) {c : Char} (hc : Delimits c) :
    step (.quote taken) c = startAfter (.literal (.ofList taken.reverse)) c := by
  rcases hc with rfl | rfl | rfl | rfl | rfl <;> rfl

theorem scans_literal (s : String) : Scans (Sql.Piece.literal s).chars [.literal s] := by
  have hscan : ∀ rest, scan .between ((Sql.Piece.literal s).chars ++ rest) =
      scan (.quote s.toList.reverse) rest := by
    intro rest
    rw [Sql.Piece.chars, List.cons_append, List.cons_append, List.append_assoc, scan_cons]
    show (scan (.literal []) (Sql.doubled '\'' s.toList ++ '\'' :: rest)).map ([] ++ ·) = _
    rw [scan_doubled]
    simp
  refine ⟨?_, fun c rest hc => ?_⟩
  · have := hscan []
    rw [List.append_nil] at this
    rw [this, scan, finish]
    simp
  · rw [hscan, scan_cons, step_quote_delimiter _ hc, scan_startAfter]
    simp

/-! ## Punctuation -/

theorem scansOff_opening : ScansOff ['('] [.opening] := fun rest => by
  rw [List.cons_append, scan_cons]; rfl

theorem scansOff_closing : ScansOff [')'] [.closing] := fun rest => by
  rw [List.cons_append, scan_cons]; rfl

theorem scansOff_comma : ScansOff [',', ' '] [.comma] := fun rest => by
  rw [List.cons_append, scan_cons]
  show (scan .between (' ' :: rest)).map ([.comma] ++ ·) = _
  rw [scan_cons]
  simp [step, start]

theorem scansOff_cast : ScansOff [':', ':'] [.cast] := fun rest => by
  rw [List.cons_append, scan_cons]
  show (scan .colon (':' :: rest)).map ([] ++ ·) = _
  rw [scan_cons]
  simp [step, Function.comp_def]

/-- An operator stands between two spaces. -/
theorem scansOff_op (op : Op) : ScansOff (" " ++ op.symbol ++ " ").toList [.op op] := by
  intro rest
  cases op <;>
    simp [Op.symbol, scan_cons, step, start, Function.comp_def]

end Token

/-! ## Expressions -/

namespace Expr

mutual

/-- The tokens of the text of an expression. -/
def tokens : Expr → List Token
  | .body => [.word "body"]
  | .bool b => [.word (if b then "true" else "false")]
  | .param n => [.param n]
  | .literal s => [.literal s]
  | .cast e type => tokens e ++ [.cast, .word type]
  | .binary op left right => tokens left ++ .op op :: tokens right
  | .call name args => .word name :: .opening :: argsTokens args ++ [.closing]
  | .stuck _ => []

def argsTokens : List Expr → List Token
  | [] => []
  | e :: rest => tokens e ++ moreArgsTokens rest

def moreArgsTokens : List Expr → List Token
  | [] => []
  | e :: rest => .comma :: tokens e ++ moreArgsTokens rest

end

/-- The name of a type, of arrays or not. -/
def IsType (type : String) : Prop :=
  Token.isName type.toList = true ∨ ∃ item : String, Token.isName item.toList = true
    ∧ type = item ++ "[]"

/-- A name that is not one of the reserved words. -/
def IsFunction (name : String) : Prop :=
  Token.isName name.toList = true ∧ name ≠ "body" ∧ name ≠ "true" ∧ name ≠ "false"

mutual

/-- Expressions that may stand inside a cast and to the right of an operator. -/
inductive Operand : Expr → Prop
  | body : Operand .body
  | bool (b : Bool) : Operand (.bool b)
  | param {n : Nat} (h : n ≤ 18446744073709551615) : Operand (.param n)
  | literal (s : String) : Operand (.literal s)
  | cast {e : Expr} {type : String} (he : Operand e) (ht : IsType type) : Operand (.cast e type)
  | call {name : String} {args : List Expr} (hname : IsFunction name)
      (hargs : ∀ e ∈ args, Writable e) : Operand (.call name args)

/-- Expressions whose text has them as its only reading. -/
inductive Writable : Expr → Prop
  | operand {e : Expr} (h : Operand e) : Writable e
  | binary {op : Op} {left right : Expr} (hl : Writable left) (hr : Operand right) :
      Writable (.binary op left right)

end

open Token

theorem scans_moreArgs : ∀ {args : List Expr}, (∀ e ∈ args, Scans e.sql.chars e.tokens) →
    args = [] ∨ ∃ s, (moreArgsSql args).chars = ',' :: s ∧ Scans (',' :: s) (moreArgsTokens args)
  | [], _ => .inl rfl
  | e :: rest, h => by
    rw [List.forall_mem_cons] at h
    have hcomma : (Sql.Piece.text ", ").chars = [',', ' '] := rfl
    refine .inr ⟨' ' :: (e.sql.chars ++ (moreArgsSql rest).chars), ?_, ?_⟩
    · simp [moreArgsSql, hcomma]
    · have hfirst : Scans (',' :: ' ' :: e.sql.chars) (.comma :: e.tokens) :=
        scansOff_comma.append_scans h.1
      rcases scans_moreArgs h.2 with rfl | ⟨s, hs, hrest⟩
      · simpa [moreArgsSql, moreArgsTokens] using hfirst
      · have := hfirst.append hrest (.inr (.inr (.inr (.inl rfl))))
        rw [hs, moreArgsTokens]
        simpa using this

theorem scans_args {args : List Expr} (h : ∀ e ∈ args, Scans e.sql.chars e.tokens) :
    Scans (argsSql args).chars (argsTokens args) := by
  cases args with
  | nil => exact ScansOff.nil.scans
  | cons e rest =>
    rw [List.forall_mem_cons] at h
    rw [argsSql, Sql.chars_append, argsTokens]
    rcases scans_moreArgs h.2 with rfl | ⟨s, hs, hrest⟩
    · simpa [moreArgsSql, moreArgsTokens] using h.1
    · rw [hs]
      exact h.1.append hrest (.inr (.inr (.inr (.inl rfl))))

theorem scans_type {type : String} (h : IsType type) : Scans type.toList [.word type] := by
  rcases h with h | ⟨item, h, rfl⟩
  · exact scans_name h
  · exact (scansOff_arrayName h).scans

theorem scans_cast {e : Expr} {type : String} (he : Scans e.sql.chars e.tokens)
    (ht : IsType type) : Scans (cast e type).sql.chars (cast e type).tokens := by
  have hpiece : (Sql.Piece.text ("::" ++ type)).chars = ':' :: ':' :: type.toList := by
    simp [Sql.Piece.chars]
  have hcast : Scans (':' :: ':' :: type.toList) [.cast, .word type] :=
    scansOff_cast.append_scans (scans_type ht)
  rw [sql, Sql.chars_append, Sql.chars_cons, Sql.chars_nil, List.append_nil, hpiece, tokens]
  exact he.append hcast (.inr (.inr (.inr (.inr rfl))))

theorem scans_call {name : String} {args : List Expr} (hname : IsFunction name)
    (hargs : ∀ e ∈ args, Scans e.sql.chars e.tokens) :
    Scans (call name args).sql.chars (call name args).tokens := by
  have hpiece : (Sql.Piece.text (name ++ "(")).chars = name.toList ++ ['('] := by
    simp [Sql.Piece.chars]
  have hclose : Scans (Sql.Piece.text ")").chars [.closing] := scansOff_closing.scans
  have hinside : Scans ((argsSql args).chars ++ [')']) (argsTokens args ++ [.closing]) :=
    (scans_args hargs).append hclose (.inr (.inr (.inl rfl)))
  have hopen : Scans ('(' :: ((argsSql args).chars ++ [')']))
      (.opening :: (argsTokens args ++ [.closing])) :=
    scansOff_opening.append_scans hinside
  have := (scans_name hname.1).append hopen (.inr (.inl rfl))
  rw [sql, Sql.chars_append, Sql.chars_cons, hpiece, tokens]
  simpa [Sql.Piece.chars] using this

theorem scans_binary {op : Op} {left right : Expr} (hl : Scans left.sql.chars left.tokens)
    (hr : Scans right.sql.chars right.tokens) :
    Scans (binary op left right).sql.chars (binary op left right).tokens := by
  have hpiece : (Sql.Piece.text (" " ++ op.symbol ++ " ")).chars =
      ' ' :: (op.symbol ++ " ").toList := by
    simp [Sql.Piece.chars]
  have hop : Scans (' ' :: ((op.symbol ++ " ").toList ++ right.sql.chars))
      (.op op :: right.tokens) := by
    have := (scansOff_op op).append_scans hr
    simpa using this
  rw [sql, Sql.chars_append, Sql.chars_cons, hpiece, tokens]
  exact hl.append hop (.inl rfl)

mutual

theorem Operand.scans : ∀ {e : Expr}, Operand e → Scans e.sql.chars e.tokens
  | _, .body => by
    have := scans_name (s := "body") (by decide)
    simpa [sql, tokens, Sql.Piece.chars] using this
  | _, .bool b => by
    cases b with
    | true =>
      have := scans_name (s := "true") (by decide)
      simpa [sql, tokens, Sql.Piece.chars] using this
    | false =>
      have := scans_name (s := "false") (by decide)
      simpa [sql, tokens, Sql.Piece.chars] using this
  | _, .param h => by
    have := scans_placeholder h
    simpa [sql, tokens, Sql.Piece.chars] using this
  | _, .literal s => by
    have := scans_literal s
    simpa [sql, tokens] using this
  | _, .cast he ht => scans_cast he.scans ht
  | _, .call hname hargs => scans_call hname fun e he => (hargs e he).scans

theorem Writable.scans : ∀ {e : Expr}, Writable e → Scans e.sql.chars e.tokens
  | _, .operand h => h.scans
  | _, .binary hl hr => scans_binary hl.scans hr.scans

end

/-- The text of an expression is taken apart into its tokens. -/
theorem Writable.scan_sql {e : Expr} (h : Writable e) :
    scan .between e.sql.chars = some e.tokens := h.scans.1

end Expr

end DocStore.Jsonb
