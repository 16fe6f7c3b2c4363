import DocStore.Proofs.Refusal

/-!
# Calls that send one statement

To save, to search and to call a function is to check the arguments and
then to send one statement, whose answer decides the rest. So what is
sent has a property if each statement has it that the call can come to.

Main statements: `sendsOne_save`, `sendsOne_search`, `sendsOne_invoke`.
-/

namespace DocStore

variable {σ : Type} {host : Host σ} {α β : Type}

namespace Call

/-- Sends nothing, and fails only by a refusal. -/
def Checks (host : Host σ) (c : Call α) : Prop :=
  ∀ state, (run host c state).sent = [] ∧
    ∀ e, (run host c state).value = .error e → ∃ r, e = .invalid r

/-- Sends one statement, which has the property, or refuses its arguments first. -/
def SendsOne (host : Host σ) (p : Statement → Prop) (c : Call α) : Prop :=
  ∀ state, (∃ s, (run host c state).sent = [s] ∧ p s) ∨
    (run host c state).sent = [] ∧ ∃ r, (run host c state).value = .error (.invalid r)

variable {p : Statement → Prop}

theorem Checks.bind_sendsOne {c : Call α} {f : α → Call β} (hc : Checks host c)
    (hf : ∀ a, SendsOne host p (f a)) : SendsOne host p (c >>= f) := by
  intro state
  obtain ⟨hsent, hrefused⟩ := hc state
  rw [run_bind]
  dsimp only
  split
  · rename_i a _
    rw [Outcome.sent_afterAll, hsent, List.nil_append]
    exact hf a _
  · rename_i e he
    obtain ⟨r, rfl⟩ := hrefused e he
    exact .inr ⟨hsent, r, rfl⟩

/-- What comes after the statement sends nothing. -/
theorem sendsOne_send_bind {s : Statement} (hs : p s) {f : QueryResult → Call β}
    (hf : ∀ reply, Silent host (f reply)) : SendsOne host p (send s >>= f) := by
  intro state
  have hfirst : (run host (send s) state).sent = [s] := rfl
  refine .inl ⟨s, ?_, hs⟩
  rw [run_bind]
  dsimp only
  split
  · rw [Outcome.sent_afterAll, hfirst, hf, List.append_nil]
  · exact hfirst

theorem sendsOne_refuse (r : Refusal) : SendsOne host p (throw (.invalid r) : Call α) :=
  fun _ => .inr ⟨rfl, r, rfl⟩

theorem checks_check (r : Except Refusal α) : Checks host (check r) := by
  intro state
  refine ⟨rfl, fun e he => ?_⟩
  cases r with
  | ok a => cases he
  | error r =>
    cases he
    exact ⟨r, rfl⟩

theorem check_ok_bind (a : α) (f : α → Call β) : (check (.ok a) >>= f) = f a := rfl

theorem checks_insertId (supplied : Option Cell) : Checks host (Table.insertId supplied) := by
  intro state
  refine ⟨silent_insertId supplied state, fun e he => ?_⟩
  cases supplied with
  | some id => cases he
  | none =>
    change (run host (if (host.newId state).1.isBlank then throw (.invalid .emptyGeneratedId)
      else pure (host.newId state).1) _).value = _ at he
    split at he
    · cases he
      exact ⟨_, rfl⟩
    · cases he

/-! ## The calls -/

theorem silent_stored (id : Cell) (reply : QueryResult) : Silent host (do
    match ← Call.decode (Document.first reply) with
    | some document => return document
    | none => throw (.documentNotFound id.display) : Call Document) := by
  refine (silent_done _).bind fun found => ?_
  cases found with
  | some document => exact silent_done _
  | none => exact silent_throw _

/-- A save sends an insertion or an update of the fields. -/
theorem sendsOne_save {t : Table} {operation : SaveOperation} {document : Json}
    (hinsert : operation = .insert → ∀ fields, document = .obj fields →
      ∀ id, p (t.insertion id (Entries.erase t.primaryKey fields)))
    (hupdate : operation = .update → ∀ fields, document = .obj fields →
      ∀ id s, t.updating id (Entries.erase t.primaryKey fields) = .ok s → p s) :
    SendsOne host p (t.save operation document) := by
  cases hfields : Table.fields document with
  | error r =>
    rw [Table.save, hfields]
    exact sendsOne_refuse r
  | ok fields =>
    have hdocument : document = .obj fields := by
      cases document with
      | obj members =>
        cases hfields
        rfl
      | _ => cases hfields
    rw [Table.save, hfields, check_ok_bind]
    refine (checks_check _).bind_sendsOne fun supplied => ?_
    cases operation with
    | insert =>
      refine (checks_insertId _).bind_sendsOne fun id => ?_
      exact sendsOne_send_bind (hinsert rfl fields hdocument id) (silent_stored id)
    | update =>
      cases supplied with
      | none => exact sendsOne_refuse _
      | some id =>
        dsimp only
        cases hs : t.updating id (Entries.erase t.primaryKey fields) with
        | error r => exact sendsOne_refuse r
        | ok s =>
          exact sendsOne_send_bind (hupdate rfl fields hdocument id s hs) (silent_stored id)

theorem sendsOne_search {t : Table} {keys : List String} {term : String}
    (h : ∀ searched, Table.searchedSql keys = .ok searched →
      p (.ofSql (t.searchSql searched) [.text term] false)) :
    SendsOne host p (t.search keys term) := by
  unfold Table.search
  split
  · exact sendsOne_refuse _
  · cases hsearched : Table.searchedSql keys with
    | error r => exact sendsOne_refuse r
    | ok searched =>
      rw [check_ok_bind]
      exact sendsOne_send_bind (h searched hsearched) fun reply => silent_done _

theorem sendsOne_invoke {f : Function} {args : List Cell}
    (h : args.length = f.paramCount → p (.ofSql f.sql args false)) :
    SendsOne host p (f.invoke args) := by
  unfold Function.invoke
  split
  · rename_i hlength
    exact fun state => .inl ⟨_, rfl, h hlength⟩
  · exact sendsOne_refuse _

end Call

end DocStore
