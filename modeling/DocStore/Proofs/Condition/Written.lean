import DocStore.Condition.Key
import DocStore.Proofs.Text.Split

/-!
# Which texts are condition keys

An operator is found at the first place where one begins, and there the
alternatives are tried in a fixed order. A key is read by two such
searches and by taking what was found out of its middle. What is said of
the result here does not search: a key is a text without operator
characters, or two of them with one spelling in between (`Written`).

The characters `<`, `>` and `=` are in no text of that kind, but `!` may
be: it is an operator only with a `=` after it. So the search passes over
such a text, unless it ends with `!` and a `=` follows; and the two
parts, put together, cannot make up a new operator.

Main statement: `parse_reads_written`.
-/

namespace DocStore

namespace Operator

/-! ## The alternatives -/

/-- The spellings in the order in which they are tried: those of two
characters first. -/
def alternatives : List (List Char × Operator) :=
  [(['<', '='], .ltEq), (['>', '='], .gtEq), (['!', '='], .notEq), (['<', '>'], .notEq),
    (['='], .eq), (['<'], .lt), (['>'], .gt)]

theorem sql_mem_alternatives (op : Operator) : (op.sql.toList, op) ∈ alternatives := by
  cases op <;> decide

/-- At the beginning of a text, the first alternative is found that the text
begins with. -/
theorem atStart?_eq_findSome? (s : List Char) :
    atStart? s = alternatives.findSome? fun (spelling, op) =>
      (Chars.strip? spelling s).map fun rest => (op, rest) := by
  fun_cases atStart? s
  case case6 s hle hne =>
    have hle' : Chars.strip? ['='] s = none := Chars.strip?_eq_none hle
    have hne' : Chars.strip? ['>'] s = none := Chars.strip?_eq_none hne
    simp [alternatives, Chars.strip?, hle', hne']
  case case7 s hge =>
    have hge' : Chars.strip? ['='] s = none := Chars.strip?_eq_none hge
    simp [alternatives, Chars.strip?, hge']
  case case8 hle hge hbang hne heq hlt hgt =>
    symm
    simp only [alternatives, List.findSome?_eq_none_iff, List.forall_mem_cons,
      Option.map_eq_none_iff]
    exact ⟨Chars.strip?_eq_none hle, Chars.strip?_eq_none hge, Chars.strip?_eq_none hbang,
      Chars.strip?_eq_none hne, Chars.strip?_eq_none heq, Chars.strip?_eq_none hlt,
      Chars.strip?_eq_none hgt, List.forall_mem_nil _⟩
  all_goals rfl

theorem exists_of_atStart? {s rest : List Char} {op : Operator}
    (h : atStart? s = some (op, rest)) :
    ∃ spelling, (spelling, op) ∈ alternatives ∧ s = spelling ++ rest := by
  rw [atStart?_eq_findSome?] at h
  obtain ⟨⟨spelling, found⟩, hmem, hstrip⟩ := List.exists_of_findSome?_eq_some h
  obtain ⟨rest', hrest, hpair⟩ := Option.map_eq_some_iff.mp hstrip
  obtain ⟨rfl, rfl⟩ := Prod.mk.inj hpair
  exact ⟨spelling, hmem, Chars.eq_append_of_strip? hrest⟩

/-! ## Texts without operator characters -/

/-- Without the characters that no property may have. -/
def Free (s : List Char) : Prop := ∀ c ∈ s, c ≠ '<' ∧ c ≠ '>' ∧ c ≠ '='

theorem free_nil : Free [] := List.forall_mem_nil _

theorem free_cons_iff {c : Char} {s : List Char} : Free (c :: s) ↔ Free [c] ∧ Free s := by
  simp only [Free, List.forall_mem_cons, List.not_mem_nil, false_implies, implies_true, and_true]

theorem Free.append {u w : List Char} (hu : Free u) (hw : Free w) : Free (u ++ w) :=
  fun c hc => (List.mem_append.mp hc).elim (hu c) (hw c)

theorem Free.trim {s : List Char} (h : Free s) : Free (Chars.trim s) :=
  fun c hc => h c (Chars.mem_of_mem_trim hc)

/-- No `!` at the end of `u` makes up an operator with what follows. -/
def Unjoined (u s : List Char) : Prop := u.getLast? = some '!' → ∀ r, s ≠ '=' :: r

/-- Inside `u` no character is followed by a `=`. -/
theorem unjoined_cons_iff {c : Char} {u s : List Char} (hu : Free u) :
    Unjoined (c :: u) s ↔ Unjoined [c] (u ++ s) ∧ Unjoined u s := by
  cases u with
  | nil => simp [Unjoined]
  | cons d u =>
    have hd : ∀ r, d :: u ++ s ≠ '=' :: r := by
      rintro r h
      exact (hu d List.mem_cons_self).2.2 (List.cons.inj h).1
    rw [Unjoined, Unjoined, Unjoined, List.getLast?_cons_cons]
    exact ⟨fun h => ⟨fun _ => hd, h⟩, And.right⟩

theorem unjoined_spelling_iff {spelling : List Char} {op : Operator} {u : List Char}
    (h : (spelling, op) ∈ alternatives) (w : List Char) :
    Unjoined u (spelling ++ w) ↔ (spelling = ['='] → u.getLast? ≠ some '!') := by
  simp only [alternatives, List.mem_cons, List.not_mem_nil, Prod.mk.injEq, or_false] at h
  rcases h with ⟨rfl, -⟩ | ⟨rfl, -⟩ | ⟨rfl, -⟩ | ⟨rfl, -⟩ | ⟨rfl, -⟩ | ⟨rfl, -⟩ | ⟨rfl, -⟩ <;>
    simp [Unjoined]

/-! ## What a search finds -/

theorem atStart?_cons_eq_none_iff {c : Char} {s : List Char} :
    atStart? (c :: s) = none ↔ Free [c] ∧ Unjoined [c] s := by
  simp only [Free, Unjoined, List.forall_mem_singleton, List.getLast?_singleton, Option.some.injEq]
  unfold atStart?
  split <;> simp_all

/-- A spelling is read as a whole and with nothing of the free text after it. -/
theorem atStart?_append {spelling w : List Char} {op : Operator}
    (h : (spelling, op) ∈ alternatives) (hw : Free w) :
    atStart? (spelling ++ w) = some (op, w) := by
  -- What decides is the next character, for `<` and `>`.
  have hnext : w = [] ∨ ∃ d r, w = d :: r ∧ d ≠ '>' ∧ d ≠ '=' := by
    cases w with
    | nil => exact .inl rfl
    | cons d r => exact .inr ⟨d, r, rfl, (hw d List.mem_cons_self).2⟩
  simp only [alternatives, List.mem_cons, List.not_mem_nil, Prod.mk.injEq, or_false] at h
  rcases h with ⟨rfl, rfl⟩ | ⟨rfl, rfl⟩ | ⟨rfl, rfl⟩ | ⟨rfl, rfl⟩ | ⟨rfl, rfl⟩ | ⟨rfl, rfl⟩ |
    ⟨rfl, rfl⟩ <;>
    obtain rfl | ⟨d, r, rfl, hgt, heq⟩ := hnext <;> simp [atStart?, *]

theorem first?_append {u : List Char} (hu : Free u) {s : List Char} (h : Unjoined u s) :
    first? (u ++ s) = (first? s).map fun (before, op, rest) => (u ++ before, op, rest) := by
  induction u with
  | nil => simp
  | cons c u ih =>
    rw [free_cons_iff] at hu
    rw [unjoined_cons_iff hu.2] at h
    have hstart : atStart? (c :: (u ++ s)) = none := atStart?_cons_eq_none_iff.mpr ⟨hu.1, h.1⟩
    simp only [List.cons_append, first?, hstart, ih hu.2 h.2, Option.map_map]
    rfl

theorem first?_eq_none_iff {s : List Char} : first? s = none ↔ Free s := by
  refine ⟨fun h => ?_, first?_eq_none_of_free⟩
  induction s with
  | nil => exact free_nil
  | cons c s ih =>
    rw [first?] at h
    cases hstart : atStart? (c :: s) with
    | some found => simp [hstart] at h
    | none =>
      rw [hstart, Option.map_eq_none_iff] at h
      exact free_cons_iff.mpr ⟨(atStart?_cons_eq_none_iff.mp hstart).1, ih h⟩

theorem exists_of_first? {s before rest : List Char} {op : Operator}
    (h : first? s = some (before, op, rest)) :
    ∃ spelling, (spelling, op) ∈ alternatives ∧ s = before ++ (spelling ++ rest) ∧
      Free before ∧ Unjoined before (spelling ++ rest) := by
  induction s generalizing before with
  | nil => simp [first?] at h
  | cons c s ih =>
    rw [first?] at h
    cases hstart : atStart? (c :: s) with
    | some found =>
      obtain ⟨found, after⟩ := found
      simp only [hstart, Option.some.injEq, Prod.mk.injEq] at h
      obtain ⟨rfl, rfl, rfl⟩ := h
      obtain ⟨spelling, hmem, hs⟩ := exists_of_atStart? hstart
      exact ⟨spelling, hmem, hs, free_nil, by simp [Unjoined]⟩
    | none =>
      simp only [hstart, Option.map_eq_some_iff, Prod.mk.injEq] at h
      obtain ⟨⟨between, _, _⟩, hfirst, rfl, rfl, rfl⟩ := h
      obtain ⟨spelling, hmem, rfl, hfree, hunjoined⟩ := ih hfirst
      have hc := atStart?_cons_eq_none_iff.mp hstart
      exact ⟨spelling, hmem, rfl, free_cons_iff.mpr ⟨hc.1, hfree⟩,
        (unjoined_cons_iff hfree).mpr ⟨hc.2, hunjoined⟩⟩

theorem first?_of_atStart? {s rest : List Char} {op : Operator}
    (h : atStart? s = some (op, rest)) : first? s = some ([], op, rest) := by
  cases s with
  | nil => cases h
  | cons c s => rw [first?, h]

/-- What is found in two free texts with a spelling in between. -/
theorem first?_signed {u w spelling : List Char} {op : Operator} (hu : Free u) (hw : Free w)
    (h : (spelling, op) ∈ alternatives) (hunjoined : Unjoined u (spelling ++ w)) :
    first? (u ++ (spelling ++ w)) = some (u, op, w) := by
  rw [first?_append hu hunjoined, first?_of_atStart? (atStart?_append h hw)]
  simp

end Operator

namespace Key

open Operator (Free Unjoined alternatives)

/-! ## Written keys -/

/-- `Written key property op`: the key is the property, or one spelling of an
operator stands in it, at any place. -/
inductive Written : List Char → List Char → Option Operator → Prop
  | bare {u : List Char} : Free u → Written u u none
  | signed {u spelling w : List Char} {op : Operator} : Free u → Free w →
      (spelling, op) ∈ alternatives → (spelling = ['='] → u.getLast? ≠ some '!') →
      Written (u ++ (spelling ++ w)) (u ++ w) (some op)

theorem Written.free {key property : List Char} {op : Option Operator}
    (h : Written key property op) : Free property := by
  cases h with
  | bare hu => exact hu
  | signed hu hw _ _ => exact hu.append hw

theorem parse_of_written {key : String} {property : List Char} {op : Option Operator}
    (h : Written key.toList property op) : parse key = named key property op := by
  rw [parse]
  generalize key.toList = s at h
  cases h with
  | bare hu => rw [Operator.first?_eq_none_iff.mpr hu]
  | @signed u spelling w op hu hw hmem hend =>
    have hunjoined : Unjoined u (spelling ++ w) := (Operator.unjoined_spelling_iff hmem w).mpr hend
    simp only [Operator.first?_signed hu hw hmem hunjoined, Operator.first?_eq_none_iff.mpr hw]

/-- A key that is not written so has two operators. -/
theorem written_or_several (key : String) :
    (∃ property op, Written key.toList property op) ∨
      parse key = .error (.severalOperators key) := by
  rw [parse]
  cases hfirst : Operator.first? key.toList with
  | none => exact .inl ⟨_, _, .bare (Operator.first?_eq_none_iff.mp hfirst)⟩
  | some found =>
    obtain ⟨before, op, rest⟩ := found
    cases hrest : Operator.first? rest with
    | some again => exact .inr (by simp only [hrest])
    | none =>
      obtain ⟨spelling, hmem, hkey, hfree, hunjoined⟩ := Operator.exists_of_first? hfirst
      rw [hkey]
      exact .inl ⟨_, _, .signed hfree (Operator.first?_eq_none_iff.mp hrest) hmem
        ((Operator.unjoined_spelling_iff hmem _).mp hunjoined)⟩

theorem named_eq_ok_iff {key : String} {property : List Char} {op : Option Operator} {k : Key} :
    named key property op = .ok k ↔
      Chars.trim property ≠ [] ∧ k = ⟨.ofList (Chars.trim property), op⟩ := by
  rw [named]
  split
  · next h => simp [h]
  · next h => simp [h, eq_comm]

theorem parse_eq_ok_iff {key : String} {k : Key} :
    parse key = .ok k ↔ ∃ property, Written key.toList property k.operator ∧
      Chars.trim property ≠ [] ∧ k.property = .ofList (Chars.trim property) := by
  constructor
  · intro h
    obtain ⟨property, op, hwritten⟩ | hseveral := written_or_several key
    · rw [parse_of_written hwritten, named_eq_ok_iff] at h
      obtain ⟨hne, rfl⟩ := h
      exact ⟨property, hwritten, hne, rfl⟩
    · rw [hseveral] at h
      cases h
  · rintro ⟨property, hwritten, hne, hproperty⟩
    rw [parse_of_written hwritten, named_eq_ok_iff, ← hproperty]
    exact ⟨hne, rfl⟩

/-! ## Writing a key -/

/-- The property, and after a space the operator as statements write it. -/
def text (k : Key) : String :=
  match k.operator with
  | none => k.property
  | some op => k.property ++ " " ++ op.sql

/-- The text of a free property is written with its operator; the space is trimmed. -/
theorem written_text {property : List Char} (h : Free property) (op : Option Operator) :
    ∃ spaced, Written (text ⟨.ofList property, op⟩).toList spaced op ∧
      Chars.trim spaced = Chars.trim property := by
  cases op with
  | none =>
    refine ⟨property, ?_, rfl⟩
    rw [text, String.toList_ofList]
    exact .bare h
  | some op =>
    have htext : (text ⟨.ofList property, some op⟩).toList =
        property ++ [' '] ++ (op.sql.toList ++ []) := by
      simp [text]
    refine ⟨property ++ [' '] ++ [], ?_, ?_⟩
    · rw [htext]
      exact .signed (h.append (by simp [Free])) Operator.free_nil
        (Operator.sql_mem_alternatives op) (by simp)
    · rw [List.append_nil, Chars.trim_append_blank (by decide)]

theorem parse_text {key : String} {k : Key} (h : parse key = .ok k) : parse k.text = .ok k := by
  obtain ⟨property, hwritten, hne, hproperty⟩ := parse_eq_ok_iff.mp h
  obtain ⟨_, op⟩ := k
  obtain rfl : _ = String.ofList _ := hproperty
  obtain ⟨spaced, htext, htrim⟩ := written_text hwritten.free.trim op
  rw [Chars.trim_trim] at htrim
  exact parse_eq_ok_iff.mpr ⟨spaced, htext, by rwa [htrim], by rw [htrim]⟩

/-- A key is read exactly if it is written with at most one operator and names a
property: the text without the operator, trimmed. The property has no operator
characters, and written with its operator after a space it is read again as it was. -/
theorem parse_reads_written (key : String) :
    (∀ k, parse key = .ok k ↔ ∃ property, Written key.toList property k.operator ∧
      Chars.trim property ≠ [] ∧ k.property = .ofList (Chars.trim property)) ∧
    ∀ k, parse key = .ok k → Free k.property.toList ∧ parse k.text = .ok k := by
  refine ⟨fun k => parse_eq_ok_iff, fun k h => ⟨?_, parse_text h⟩⟩
  obtain ⟨property, hwritten, -, hproperty⟩ := parse_eq_ok_iff.mp h
  rw [hproperty, String.toList_ofList]
  exact hwritten.free.trim

/-- A `!` in front of an operator stays in the property. -/
theorem parse_reads_written_bang :
    Key.parse "a!>= b" = .ok ⟨"a! b", some .gtEq⟩ ∧ Free "a! b".toList ∧
      Key.parse "a! b >=" = .ok ⟨"a! b", some .gtEq⟩ := by
  have hread : Key.parse "a!>= b" = .ok ⟨"a! b", some .gtEq⟩ := by rfl
  exact ⟨hread, (parse_reads_written "a!>= b").2 _ hread⟩

end Key

end DocStore
