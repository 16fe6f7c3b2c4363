import DocStore.Jsonb.Parse
import DocStore.Proofs.Expr.Scan

/-!
# Expressions are read back

The machine over tokens, started on the tokens of a writable expression,
ends with that expression. An operand leaves the machine behind it with
the pending operation untouched. An operation leaves its own left side
pending, so for a whole expression the statement is about what the
machine would complete.

Main statement: `Writable.ofTokens_tokens`.
-/

namespace DocStore.Jsonb

namespace Machine

open DocStore.Jsonb.Expr

theorem run_cons {m : Machine} {t : Token} (m' : Machine) (h : m.advance t = some m')
    (rest : List Token) :
    m.run (t :: rest) = m'.run rest := by
  simp only [run, h]

/-- From where an operand begins, the machine gets behind `e`. -/
def ReadsOperand (e : Expr) : Prop :=
  ∀ stack pending rest,
    run ⟨stack, pending, .operand⟩ (e.tokens ++ rest) = run ⟨stack, pending, .after e⟩ rest

/-- With nothing pending, the machine gets to where `e` is complete. -/
def ReadsWhole (e : Expr) : Prop :=
  ∀ stack rest, ∃ pending last, complete pending last = e ∧
    run ⟨stack, none, .operand⟩ (e.tokens ++ rest) = run ⟨stack, pending, .after last⟩ rest

theorem ReadsOperand.readsWhole {e : Expr} (h : ReadsOperand e) : ReadsWhole e :=
  fun stack rest => ⟨none, e, rfl, h stack none rest⟩

/-! ## First arguments -/

/-- The first token of an expression does not close a list of arguments. -/
theorem tokens_eq_cons : ∀ {e : Expr}, Writable e →
    ∃ t ts, e.tokens = t :: ts ∧ t ≠ .closing
  | _, .operand .body => ⟨_, _, rfl, by simp⟩
  | _, .operand (.bool _) => ⟨_, _, rfl, by simp⟩
  | _, .operand (.param _) => ⟨_, _, rfl, by simp⟩
  | _, .operand (.literal _) => ⟨_, _, rfl, by simp⟩
  | _, .operand (.cast he _) => by
    obtain ⟨t, ts, h, ht⟩ := tokens_eq_cons (.operand he)
    exact ⟨t, ts ++ _, by rw [tokens, h, List.cons_append], ht⟩
  | _, .operand (.call _ _) => ⟨_, _, rfl, by simp⟩
  | _, .binary hl _ => by
    obtain ⟨t, ts, h, ht⟩ := tokens_eq_cons hl
    exact ⟨t, ts ++ _, by rw [tokens, h, List.cons_append], ht⟩

/-- Where an argument is expected, anything but a closing parenthesis is read
as an operand. -/
theorem run_firstArg {t : Token} (ht : t ≠ .closing) (stack : List Frame) (pending : Pending)
    (rest : List Token) :
    run ⟨stack, pending, .firstArg⟩ (t :: rest) = run ⟨stack, pending, .operand⟩ (t :: rest) := by
  have hstart : advance ⟨stack, pending, .firstArg⟩ t = advance ⟨stack, pending, .operand⟩ t := by
    cases t with
    | closing => exact absurd rfl ht
    | word s => simp only [advance, startOperand]
    | _ => rfl
  rw [run, run, hstart]
  rfl

/-! ## Calls -/

/-- The arguments after the first, up to the closing parenthesis. -/
theorem run_moreArgs : ∀ {args : List Expr}, (∀ e ∈ args, ReadsWhole e) →
    ∀ (f : Frame) (stack : List Frame) (pending : Pending) (last : Expr) (rest : List Token),
      run ⟨f :: stack, pending, .after last⟩ (moreArgsTokens args ++ .closing :: rest) =
        run ⟨stack, f.pending,
          .after (.call f.name (f.args.reverse ++ complete pending last :: args))⟩ rest
  | [], _, f, stack, pending, last, rest => by
    rw [moreArgsTokens, List.nil_append]
    exact run_cons _ rfl rest
  | e :: args, h, f, stack, pending, last, rest => by
    rw [List.forall_mem_cons] at h
    rw [moreArgsTokens, List.cons_append, List.cons_append, List.append_assoc,
      run_cons ⟨{ f with args := complete pending last :: f.args } :: stack, none,
        .operand⟩ rfl]
    obtain ⟨pending', last', hcomplete, hrun⟩ := h.1
      ({ f with args := complete pending last :: f.args } :: stack)
      (moreArgsTokens args ++ .closing :: rest)
    rw [hrun, run_moreArgs h.2, hcomplete]
    simp

theorem readsOperand_call {name : String} {args : List Expr} (hname : IsFunction name)
    (hargs : ∀ e ∈ args, Writable e) (hread : ∀ e ∈ args, ReadsWhole e) :
    ReadsOperand (.call name args) := by
  intro stack pending rest
  have hword : advance ⟨stack, pending, .operand⟩ (.word name) =
      some ⟨stack, pending, .callOf name⟩ := by
    simp [advance, startOperand, hname.2.1, hname.2.2.1, hname.2.2.2]
  rw [tokens, List.append_assoc, List.cons_append, List.cons_append, run_cons _ hword,
    run_cons ⟨⟨name, [], pending⟩ :: stack, none, .firstArg⟩ rfl]
  cases args with
  | nil => exact run_cons _ rfl rest
  | cons e args =>
    rw [List.forall_mem_cons] at hargs hread
    obtain ⟨t, ts, htokens, ht⟩ := tokens_eq_cons hargs.1
    obtain ⟨pending', last, hcomplete, hrun⟩ := hread.1 (⟨name, [], pending⟩ :: stack)
      (moreArgsTokens args ++ .closing :: rest)
    rw [htokens, List.cons_append] at hrun
    rw [argsTokens, htokens, List.append_assoc, List.cons_append, run_firstArg ht]
    show run _ (t :: (ts ++ (moreArgsTokens args ++ .closing :: rest))) = _
    rw [hrun, run_moreArgs hread.2, hcomplete]
    rfl

/-! ## The other operands -/

theorem readsOperand_cast {e : Expr} {type : String} (he : ReadsOperand e) :
    ReadsOperand (.cast e type) := by
  intro stack pending rest
  rw [tokens, List.append_assoc, he]
  show run _ (.cast :: .word type :: rest) = _
  rw [run_cons ⟨stack, pending, .typeOf e⟩ rfl]
  exact run_cons _ rfl rest

theorem readsWhole_binary {op : Op} {left right : Expr} (hl : ReadsWhole left)
    (hr : ReadsOperand right) : ReadsWhole (.binary op left right) := by
  intro stack rest
  obtain ⟨pending, last, hcomplete, hrun⟩ := hl stack (.op op :: (right.tokens ++ rest))
  refine ⟨some (left, op), right, rfl, ?_⟩
  rw [tokens, List.append_assoc, List.cons_append, hrun,
    run_cons ⟨stack, some (complete pending last, op), .operand⟩ rfl, hcomplete, hr]

end Machine

namespace Expr

open Machine

mutual

theorem Operand.reads : ∀ {e : Expr}, Operand e → ReadsOperand e
  | _, .body => fun _ _ rest => run_cons _ rfl rest
  | _, .bool b => fun _ _ rest => by
    cases b with
    | true => exact run_cons _ rfl rest
    | false => exact run_cons _ rfl rest
  | _, .param _ => fun _ _ rest => run_cons _ rfl rest
  | _, .literal _ => fun _ _ rest => run_cons _ rfl rest
  | _, .cast he _ => readsOperand_cast he.reads
  | _, .call hname hargs => readsOperand_call hname hargs fun e he => (hargs e he).reads

theorem Writable.reads : ∀ {e : Expr}, Writable e → ReadsWhole e
  | _, .operand h => h.reads.readsWhole
  | _, .binary hl hr => readsWhole_binary hl.reads hr.reads

end

/-- The tokens of an expression are read as that expression. -/
theorem Writable.ofTokens_tokens {e : Expr} (h : Writable e) : ofTokens e.tokens = e := by
  obtain ⟨pending, last, hcomplete, hrun⟩ := h.reads [] []
  rw [List.append_nil] at hrun
  rw [ofTokens, hrun]
  exact hcomplete

end Expr

end DocStore.Jsonb
