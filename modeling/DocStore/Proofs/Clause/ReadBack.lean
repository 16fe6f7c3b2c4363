import DocStore.Proofs.Clause.Expr
import DocStore.Proofs.Condition.Structure

/-!
# Clauses are read back

The clause of a compiled condition is read as the conjunction of its
comparisons, each of them the expression that its structure stands for.
An operand leaves the reader behind it with everything that was pending
or open untouched. A comparison leaves an operation pending, so for it
the statement is about what would be completed.

Main statement: `read?_clause`.
-/

namespace DocStore.Clause

open Sql (Lexeme Piece lexemes)

/-! ## The expressions of comparisons -/

namespace Expr

/-- An arrow for every key; with `asText` the last one gives text. -/
def members (asText : Bool) (e : Expr) : List String → Expr
  | [] => e
  | [key] => .binary (.member asText) e (.literal key)
  | key :: rest => members asText (.binary (.member false) e (.literal key)) rest

def field (segments : List String) (asText : Bool) : Expr :=
  members asText (.column "body") segments

def ofOperand : Operand → Expr
  | .column name => .column name
  | .field segments asText => field segments asText
  | .guarded segments jsonType sqlType =>
    .caseWhen (.binary (.compare .eq) (.typeOf (field segments false)) (.literal jsonType))
      (.cast (field segments true) sqlType)

/-- A comparison, with the ordinal of its placeholder. -/
def ofComparison (n : Nat) : Comparison → Expr
  | .isNull lhs negated => .isNull (ofOperand lhs) negated
  | .holds lhs operator _ asJson =>
    .binary (.compare operator) (ofOperand lhs)
      (if asJson then .cast (.param n) "jsonb" else .param n)

/-- Comparisons with the ordinals from `next` on. -/
def numbered (next : Nat) : List Comparison → List Expr
  | [] => []
  | c :: rest => ofComparison next c :: numbered (next + c.fragment.value?.toList.length) rest

/-- All of the expressions hold. -/
def all (e : Expr) (rest : List Expr) : Expr := rest.foldl (.binary .both) e

end Expr

/-! ## Pending operations -/

theorem reduce_of_le {n m : Nat} (h : n ≤ m) : ∀ {pending : Pending} {e e' : Expr},
    reduce m pending e = ([], e') → reduce n pending e = ([], e')
  | [], _, _, hreduce => hreduce
  | (left, op) :: pending, e, e', hreduce => by
    rw [reduce] at hreduce ⊢
    split at hreduce
    · rename_i hop
      rw [if_pos (Nat.le_trans h hop)]
      exact reduce_of_le h hreduce
    · cases hreduce

theorem complete_of_reduce {n : Nat} {pending : Pending} {e e' : Expr}
    (h : reduce n pending e = ([], e')) : complete pending e = e' := by
  rw [complete, reduce_of_le (Nat.zero_le n) h]

theorem reduce_zero : ∀ (pending : Pending) (e : Expr),
    reduce 0 pending e = ([], complete pending e)
  | [], _ => rfl
  | (left, op) :: pending, e => by
    have ih := reduce_zero pending (.binary op left e)
    rw [complete, reduce, if_pos (Nat.zero_le _), ih]

/-- Nothing is pending that a comparison or a test for null would complete. -/
def Inert (pending : Pending) : Prop := ∀ n e, 1 ≤ n → reduce n pending e = (pending, e)

theorem inert_nil : Inert [] := fun _ _ _ => rfl

theorem inert_both (left : Expr) : Inert [(left, .both)] := by
  intro n e hn
  rw [reduce, if_neg]
  exact Nat.not_le.mpr hn

/-! ## Reading on -/

theorem run_cons {r : Reader} {t : Token} (r' : Reader) (h : r.advance t = some r')
    (rest : List Token) : r.run (t :: rest) = r'.run rest := by
  rw [Reader.run, h, Option.bind_some]

/-- Over this text the reader gets from `r` to `r'`. -/
def Reads (r : Reader) (text : List Lexeme) (r' : Reader) : Prop :=
  ∀ rest, r.run (tokens (text ++ rest)) = r'.run (tokens rest)

/-- The same, before a text that ends what is being taken. -/
def ReadsWord (r : Reader) (text : List Lexeme) (r' : Reader) : Prop :=
  ∀ rest, Breaks rest → r.run (tokens (text ++ rest)) = r'.run (tokens rest)

section Reading

variable {r r' r'' : Reader} {s t : List Lexeme}

theorem Reads.append (hs : Reads r s r') (ht : Reads r' t r'') : Reads r (s ++ t) r'' := by
  intro rest
  rw [List.append_assoc, hs, ht]

theorem Reads.append_word (hs : Reads r s r') (ht : ReadsWord r' t r'') :
    ReadsWord r (s ++ t) r'' := by
  intro rest hrest
  rw [List.append_assoc, hs, ht rest hrest]

theorem ReadsWord.append (hs : ReadsWord r s r') (ht : Reads r' t r'')
    (hbreaks : ∀ rest, Breaks (t ++ rest)) : Reads r (s ++ t) r'' := by
  intro rest
  rw [List.append_assoc, hs _ (hbreaks rest), ht]

end Reading

section Operands

variable {stack : List (Opened × Pending)} {outer pending : Pending} {e e' : Expr}

theorem reads_literal (s : String) : Reads ⟨stack, pending, .operand⟩ (lexemes [.literal s])
    ⟨stack, pending, .after (.literal s)⟩ := fun _ => rfl

theorem reads_arrow (asText : Bool) (h : reduce 3 pending e = ([], e')) :
    Reads ⟨stack, pending, .after e⟩ (lexemes [.text (if asText then " ->> " else " -> ")])
      ⟨stack, [(e', .member asText)], .operand⟩ := by
  intro rest
  have htokens : tokens (lexemes [.text (if asText then " ->> " else " -> ")] ++ rest) =
      .symbol (if asText then "->>" else "->") :: tokens rest := by cases asText <;> rfl
  have hop : Op.ofSymbol? (if asText then "->>" else "->") = some (.member asText) := by
    cases asText <;> rfl
  have hcast : (if asText then "->>" else "->") ≠ "::" := by cases asText <;> decide
  have hinfix : Reader.infixOp ⟨stack, pending, .after e⟩ (.member asText) e =
      ⟨stack, [(e', .member asText)], .operand⟩ := by
    simp only [Reader.infixOp, Op.strength, h]
  rw [htokens]
  apply run_cons
  simp only [Reader.advance, Reader.after, if_neg hcast, hop, Option.map_some, hinfix]

theorem reads_closing (h : reduce 3 pending e = ([], e')) :
    Reads ⟨(.paren, outer) :: stack, pending, .after e⟩ (lexemes [.text ")"])
      ⟨stack, outer, .after e'⟩ := by
  intro rest
  show Reader.run _ (.closing :: tokens rest) = _
  apply run_cons
  simp only [Reader.advance, Reader.after, complete_of_reduce h]

theorem reads_members (asText : Bool) : ∀ {segments : List String} {pending : Pending}
    {e e' : Expr}, reduce 3 pending e = ([], e') →
    Reads ⟨(.paren, outer) :: stack, pending, .after e⟩
      (lexemes (DocPath.arrows asText segments ++ [.text ")"]))
      ⟨stack, outer, .after (e'.members asText segments)⟩
  | [], _, _, _, h => reads_closing h
  | [key], _, _, e', h => by
    have hkey : reduce 3 [(e', .member asText)] (.literal key) =
        ([], .binary (.member asText) e' (.literal key)) := rfl
    rw [Sql.lexemes_append]
    refine Reads.append ?_ (reads_closing hkey)
    show Reads _ (lexemes ([.text (if asText then " ->> " else " -> ")] ++ [.literal key])) _
    rw [Sql.lexemes_append]
    exact (reads_arrow asText h).append (reads_literal key)
  | key :: next :: rest, _, _, e', h => by
    have hkey : reduce 3 [(e', .member false)] (.literal key) =
        ([], .binary (.member false) e' (.literal key)) := rfl
    exact ((reads_arrow false h).append (reads_literal key)).append (reads_members asText hkey)

theorem breaks_arrows (asText : Bool) (segments : List String) (rest : List Lexeme) :
    Breaks (lexemes (DocPath.arrows asText segments ++ [.text ")"]) ++ rest) := by
  match segments with
  | [] => exact breaks_closing rest
  | [key] => cases asText <;> exact breaks_blank _
  | key :: next :: _ => exact breaks_blank _

theorem reads_field (segments : List String) (asText : Bool) :
    Reads ⟨stack, pending, .operand⟩ (lexemes (DocPath.field segments asText))
      ⟨stack, pending, .after (.field segments asText)⟩ := by
  have hopen : ReadsWord ⟨stack, pending, .operand⟩ (lexemes [.text "(body"])
      ⟨(.paren, pending) :: stack, [], .after (.column "body")⟩ := by
    intro rest hrest
    show Reader.run _ (.opening :: tokensFrom (.word ['y', 'd', 'o', 'b']) rest) = _
    rw [hrest]
    rfl
  have hmembers : Reads ⟨(.paren, pending) :: stack, [], .after (.column "body")⟩
      (lexemes (DocPath.arrows asText segments ++ [.text ")"]))
      ⟨stack, pending, .after (.field segments asText)⟩ := reads_members asText rfl
  exact hopen.append hmembers (breaks_arrows asText segments)

theorem reads_guarded {segments : List String} {jsonType sqlType : String}
    (h : (Operand.guarded segments jsonType sqlType).Typed) :
    Reads ⟨stack, pending, .operand⟩ (lexemes (Operand.guarded segments jsonType sqlType).sql)
      ⟨stack, pending, .after (.ofOperand (.guarded segments jsonType sqlType))⟩ := by
  let inside : List (Opened × Pending) := (.paren, pending) :: stack
  have hcase : Reads ⟨stack, pending, .operand⟩ (lexemes [.text "(case when jsonb_typeof("])
      ⟨(.typeOf, []) :: (.test, []) :: inside, [], .operand⟩ := fun _ => rfl
  let test : Expr := .binary (.compare .eq) (.typeOf (.field segments false)) (.literal jsonType)
  have htest : Reads
      ⟨(.typeOf, []) :: (.test, []) :: inside, [], .after (.field segments false)⟩
      (lexemes [.text ") = ", .literal jsonType, .text " then "])
      ⟨(.value test, []) :: inside, [], .operand⟩ := fun _ => rfl
  have hcast : Reads ⟨(.value test, []) :: inside, [], .after (.field segments true)⟩
      (lexemes [.text ("::" ++ sqlType ++ " end)")])
      ⟨stack, pending, .after (.ofOperand (.guarded segments jsonType sqlType))⟩ := by
    rcases h with ⟨rfl, rfl⟩ | ⟨rfl, rfl⟩ <;> exact fun _ => rfl
  have := (((hcase.append (reads_field segments false)).append htest).append
    (reads_field segments true)).append hcast
  intro rest
  rw [← this rest]
  simp [Operand.sql, List.append_assoc]

theorem reads_operand {lhs : Operand} (h : lhs.Typed) :
    Reads ⟨stack, pending, .operand⟩ (lexemes lhs.sql)
      ⟨stack, pending, .after (.ofOperand lhs)⟩ := by
  cases lhs with
  | column name => exact fun _ => rfl
  | field segments asText => exact reads_field segments asText
  | guarded segments jsonType sqlType => exact reads_guarded h

end Operands

/-! ## Comparisons -/

section Comparisons

variable {pending : Pending}

/-- The reader has gone over a comparison; what it would complete now is `e`. -/
def Got (pending : Pending) (e : Expr) (r : Reader) : Prop :=
  ∃ pending' e', r = ⟨[], pending', .after e'⟩ ∧ complete pending' e' = complete pending e

theorem reads_isNull (hinert : Inert pending) (e : Expr) (negated : Bool) :
    ReadsWord ⟨[], pending, .after e⟩
      (lexemes [.text (if negated then " is not null" else " is null")])
      ⟨[], pending, .after (.isNull e negated)⟩ := by
  intro rest hrest
  have his : Reader.advance ⟨[], pending, .after e⟩ (.word "is") =
      some ⟨[], pending, .null e⟩ := by
    have hreduce : reduce isNullStrength pending e = (pending, e) := hinert _ _ (by decide)
    simp [Reader.advance, Reader.after, hreduce]
  cases negated with
  | false =>
    show Reader.run _ (.word "is" :: tokensFrom (.word ['l', 'l', 'u', 'n']) rest) = _
    rw [hrest, run_cons _ his]
    exact run_cons _ rfl _
  | true =>
    show Reader.run _ (.word "is" :: .word "not" ::
      tokensFrom (.word ['l', 'l', 'u', 'n']) rest) = _
    rw [hrest, run_cons _ his, run_cons ⟨[], pending, .notNull e⟩ rfl]
    exact run_cons _ rfl _

theorem reads_operator (hinert : Inert pending) (e : Expr) (operator : Operator) (n : Nat) :
    Reads ⟨[], pending, .after e⟩ (lexemes [.text (" " ++ operator.sql ++ " "), .placeholder n])
      ⟨[], (e, .compare operator) :: pending, .after (.param n)⟩ := by
  intro rest
  have htokens : tokens (lexemes [.text (" " ++ operator.sql ++ " "), .placeholder n] ++ rest) =
      .symbol operator.sql :: .placeholder n :: tokens rest := by cases operator <;> rfl
  have hsymbol : Reader.advance ⟨[], pending, .after e⟩ (.symbol operator.sql) =
      some ⟨[], (e, .compare operator) :: pending, .operand⟩ := by
    have hcast : operator.sql ≠ "::" := by cases operator <;> decide
    have hop : Op.ofSymbol? operator.sql = some (.compare operator) := by cases operator <;> rfl
    have hreduce : reduce (Op.compare operator).strength pending e = (pending, e) :=
      hinert _ _ (by simp [Op.strength])
    simp [Reader.advance, Reader.after, hcast, hop, Reader.infixOp, hreduce]
  rw [htokens, run_cons _ hsymbol]
  exact run_cons _ rfl _

theorem reads_asJson (e : Expr) (asJson : Bool) :
    ReadsWord ⟨[], pending, .after e⟩ (lexemes (if asJson then [.text "::jsonb"] else []))
      ⟨[], pending, .after (if asJson then .cast e "jsonb" else e)⟩ := by
  cases asJson with
  | false => exact fun _ _ => rfl
  | true =>
    intro rest hrest
    show Reader.run _ (.symbol "::" :: tokensFrom (.word ['b', 'n', 'o', 's', 'j']) rest) = _
    rw [hrest]
    rfl

theorem reads_comparison (hinert : Inert pending) {c : Comparison} (h : c.lhs.Typed) (n : Nat) :
    ∃ r, Got pending (.ofComparison n c) r ∧
      ReadsWord ⟨[], pending, .operand⟩ (lexemes (c.fragment.sqlAt n)) r := by
  rw [Comparison.sqlAt_fragment, Sql.lexemes_append]
  cases c with
  | isNull lhs negated =>
    exact ⟨_, ⟨_, _, rfl, rfl⟩, (reads_operand h).append_word (reads_isNull hinert _ negated)⟩
  | holds lhs operator value asJson =>
    have hrest : lexemes (Comparison.rest n (.holds lhs operator value asJson)) =
        lexemes [.text (" " ++ operator.sql ++ " "), .placeholder n] ++
          lexemes (if asJson then [.text "::jsonb"] else []) :=
      Sql.lexemes_append [.text (" " ++ operator.sql ++ " "), .placeholder n] _
    rw [hrest]
    have hread := (reads_operand h).append_word
      ((reads_operator hinert (.ofOperand lhs) operator n).append_word
        (reads_asJson (.param n) asJson))
    exact ⟨_, ⟨(.ofOperand lhs, .compare operator) :: pending, _, rfl, rfl⟩, hread⟩

end Comparisons

/-! ## Clauses -/

theorem joined_numbered (sep : String) (next : Nat) (f g : Fragment) (rest : List Fragment) :
    Sql.joined sep (Fragment.numbered next (f :: g :: rest)) =
      f.sqlAt next ++ .text sep ::
        Sql.joined sep (Fragment.numbered (next + f.value?.toList.length) (g :: rest)) := by
  rw [Fragment.numbered_cons, Fragment.numbered_cons]
  rfl

/-- The reader goes over comparisons that are joined by `and`. -/
theorem run_numbered : ∀ {c : Comparison} {rest : List Comparison} {pending : Pending}
    (next : Nat), Inert pending → (∀ c' ∈ c :: rest, c'.lhs.Typed) →
    ∃ r, Reader.run ⟨[], pending, .operand⟩ (tokens (lexemes (Sql.joined " and "
        (Fragment.numbered next ((c :: rest).map Comparison.fragment))))) = some r ∧
      r.result = some (.all (complete pending (.ofComparison next c))
        (Expr.numbered (next + c.fragment.value?.toList.length) rest))
  | c, [], pending, next, hinert, h => by
    obtain ⟨r, ⟨pending', e', rfl, hcomplete⟩, hread⟩ :=
      reads_comparison hinert (h c (by simp)) next
    have hrun := hread [] breaks_nil
    rw [List.append_nil] at hrun
    refine ⟨⟨[], pending', .after e'⟩, ?_, congrArg some hcomplete⟩
    rw [List.map_cons, List.map_nil, Fragment.numbered_cons]
    exact hrun
  | c, c' :: rest, pending, next, hinert, h => by
    rw [List.forall_mem_cons] at h
    obtain ⟨r, ⟨pending', e', rfl, hcomplete⟩, hread⟩ := reads_comparison hinert h.1 next
    let next' := next + c.fragment.value?.toList.length
    obtain ⟨r, hrun, hresult⟩ := run_numbered next'
      (inert_both (complete pending (.ofComparison next c))) h.2
    have hand : Reader.advance ⟨[], pending', .after e'⟩ (.word "and") =
        some ⟨[], [(complete pending (.ofComparison next c), .both)], .operand⟩ := by
      show some (Reader.infixOp ⟨[], pending', .after e'⟩ .both e') = _
      rw [Reader.infixOp, Op.strength, reduce_zero, hcomplete]
    let joined :=
      Sql.joined " and " (Fragment.numbered next' ((c' :: rest).map Comparison.fragment))
    have hbreaks : Breaks (lexemes (.text " and " :: joined)) := breaks_blank _
    refine ⟨r, ?_, hresult⟩
    rw [List.map_cons, List.map_cons, joined_numbered, Sql.lexemes_append]
    refine (hread _ hbreaks).trans ?_
    show Reader.run _ (.word "and" :: tokens (lexemes joined)) = _
    rw [run_cons _ hand, hrun]

/-- The clause of a compiled condition on the body, read as its comparisons. -/
theorem read?_clause {primaryKey : String} {fields : List (Key × Cell)} {c : Comparison}
    {rest : List Comparison} {p : Predicate}
    (h : Condition.Conjoins primaryKey fields (c :: rest) p) :
    read? p.clauseText = some (.all (.ofComparison 1 c)
      (Expr.numbered (1 + c.fragment.value?.toList.length) rest)) := by
  have htyped : ∀ c' ∈ c :: rest, c'.lhs.Typed := by
    intro c' hc'
    obtain ⟨field, -, hlhs⟩ := Condition.exists_field h.compares c' hc'
    exact hlhs ▸ Condition.typed_operand ..
  obtain ⟨r, hrun, hresult⟩ := run_numbered 1 inert_nil htyped
  rw [← h.clause] at hrun
  rw [read?, Condition.lex_of_conjoins h]
  show (Reader.run ⟨[], [], .operand⟩ _ >>= Reader.result) = _
  rw [hrun]
  exact hresult

end DocStore.Clause
