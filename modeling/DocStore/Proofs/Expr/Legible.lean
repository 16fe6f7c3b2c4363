import DocStore.Proofs.Expr.Scan
import DocStore.Proofs.Sql.Lexeme

/-!
# The text of expressions is legible

An expression that can be written is text and constants of which none
runs into the next: its words are names, its operators stand between
blanks, and what follows an operand begins with a blank, a comma, a colon
or a closing parenthesis.

Main statement: `Writable.legible`.
-/

namespace DocStore.Jsonb.Expr

open Sql (Ordinary Ends Legible ends_nil)

/-! ## Words -/

theorem ordinary_of_isWordChar {c : Char} (h : Token.isWordChar c = true) : Ordinary c := by
  refine ⟨?_, ?_, ?_⟩ <;>
  · rintro rfl
    revert h
    decide

theorem ordinary_of_isName : ∀ {s : List Char}, Token.isName s = true → ∀ c ∈ s, Ordinary c
  | c :: w, h => by
    rw [Token.isName, Bool.and_eq_true] at h
    have hfirst : Token.isWordChar c = true := by
      have hstart := h.1
      simp only [Token.isWordStart, Token.isWordChar, Char.isAlphanum, Bool.or_eq_true] at hstart ⊢
      exact hstart.imp_left .inl
    refine List.forall_mem_cons.mpr ⟨ordinary_of_isWordChar hfirst, fun d hd => ?_⟩
    exact ordinary_of_isWordChar (List.all_eq_true.mp h.2 d hd)

theorem ordinary_of_isType {type : String} (h : IsType type) : ∀ c ∈ type.toList, Ordinary c := by
  rcases h with h | ⟨item, h, rfl⟩
  · exact ordinary_of_isName h
  · rw [String.toList_append]
    exact List.forall_mem_append.mpr ⟨ordinary_of_isName h, by decide⟩

/-! ## Parts -/

theorem ends_moreArgs (args : List Expr) : Ends (moreArgsSql args).chars := by
  cases args with
  | nil => exact ends_nil
  | cons e args =>
    rintro c ⟨⟩
    decide

theorem legible_moreArgs : ∀ {args : List Expr}, (∀ e ∈ args, Legible e.sql) →
    Legible (moreArgsSql args)
  | [], _ => trivial
  | e :: args, h => by
    rw [List.forall_mem_cons] at h
    exact ⟨by decide, h.1.append (legible_moreArgs h.2) (ends_moreArgs args)⟩

theorem legible_args {args : List Expr} (h : ∀ e ∈ args, Legible e.sql) :
    Legible (argsSql args) := by
  cases args with
  | nil => trivial
  | cons e args =>
    rw [List.forall_mem_cons] at h
    exact h.1.append (legible_moreArgs h.2) (ends_moreArgs args)

theorem legible_cast {e : Expr} {type : String} (he : Legible e.sql) (ht : IsType type) :
    Legible (cast e type).sql := by
  have htype : ∀ c ∈ ("::" ++ type).toList, Ordinary c := by
    rw [String.toList_append]
    exact List.forall_mem_append.mpr ⟨by decide, ordinary_of_isType ht⟩
  refine he.append ⟨htype, trivial⟩ ?_
  rw [Sql.chars_cons, Sql.Piece.chars, String.toList_append]
  rintro c ⟨⟩
  decide

theorem legible_call {name : String} {args : List Expr} (hname : IsFunction name)
    (hargs : ∀ e ∈ args, Legible e.sql) : Legible (call name args).sql := by
  have hopen : ∀ c ∈ (name ++ "(").toList, Ordinary c := by
    rw [String.toList_append]
    exact List.forall_mem_append.mpr ⟨ordinary_of_isName hname.1, by decide⟩
  refine ⟨hopen, (legible_args hargs).append ⟨by decide, trivial⟩ ?_⟩
  rintro c ⟨⟩
  decide

theorem legible_binary {op : Op} {left right : Expr} (hl : Legible left.sql)
    (hr : Legible right.sql) : Legible (binary op left right).sql := by
  refine hl.append ⟨by cases op <;> decide, hr⟩ ?_
  cases op <;>
  · rintro c ⟨⟩
    decide

/-! ## The whole -/

mutual

theorem Operand.legible : ∀ {e : Expr}, Operand e → Legible e.sql
  | _, .body => ⟨by decide, trivial⟩
  | _, .bool b => ⟨by cases b <;> decide, trivial⟩
  | _, .param _ => ⟨ends_nil, trivial⟩
  | _, .literal _ => ⟨ends_nil, trivial⟩
  | _, .cast he ht => legible_cast he.legible ht
  | _, .call hname hargs => legible_call hname fun e he => (hargs e he).legible

theorem Writable.legible : ∀ {e : Expr}, Writable e → Legible e.sql
  | _, .operand h => h.legible
  | _, .binary hl hr => legible_binary hl.legible hr.legible

end

end DocStore.Jsonb.Expr
