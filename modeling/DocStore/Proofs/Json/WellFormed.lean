import DocStore.Json.Reader.WellFormed
import DocStore.Jsonb.Eval
import DocStore.Proofs.Except
import DocStore.Table.Save
import Mathlib.Data.List.InsertIdx

/-!
# Well-formed values stay well-formed

Every operation on objects puts a member where its key belongs, so what
comes of well-formed values is well-formed again: of an edit at any path,
of two values joined, and of any expression that is evaluated over them,
whatever its text. The values that an expression has from its own text
are well-formed since they have been read. So a document that is saved is
sent well-formed, and the row that comes back is a well-formed document.

Main statements: `wellFormed_of_evaluate`, `wellFormed_ofRow`.
-/

namespace DocStore

/-! ## Objects and arrays -/

namespace Json.WellFormed

section Members

variable {members : Members} (h : WellFormed (.obj members))
include h

theorem insert {j : Json} (hj : j.WellFormed) (key : String) :
    WellFormed (.obj (Entries.insert key j members)) := by
  rw [wellFormed_obj] at h ⊢
  exact ⟨h.1.insert key j, forall_mem_insert hj h.2⟩

theorem erase (key : String) : WellFormed (.obj (Entries.erase key members)) := by
  rw [wellFormed_obj] at h ⊢
  exact ⟨h.1.erase key, fun e he => h.2 e (List.mem_of_mem_filter he)⟩

theorem extend {more : Members} (hmore : WellFormed (.obj more)) :
    WellFormed (.obj (Entries.extend members more)) :=
  List.foldlRecOn (motive := fun members => WellFormed (.obj members)) _ _ h
    fun _ h e he => h.insert ((wellFormed_obj.mp hmore).2 e he) e.1

theorem get? {key : String} {child : Json} (hget : Entries.get? key members = some child) :
    child.WellFormed :=
  (wellFormed_obj.mp h).2 _ (Entries.mem_of_get? hget)

end Members

section Items

variable {items : List Json} (h : WellFormed (.arr items))
include h

theorem item {p : Nat} {child : Json} (hget : items[p]? = some child) : child.WellFormed :=
  wellFormed_arr.mp h child (List.mem_of_getElem? hget)

theorem set {j : Json} (hj : j.WellFormed) (p : Nat) : WellFormed (.arr (items.set p j)) := by
  rw [wellFormed_arr] at h ⊢
  intro i hi
  rcases List.mem_or_eq_of_mem_set hi with hi | rfl
  · exact h i hi
  · exact hj

theorem insertIdx {j : Json} (hj : j.WellFormed) (p : Nat) :
    WellFormed (.arr (items.insertIdx p j)) := by
  rw [wellFormed_arr] at h ⊢
  intro i hi
  rcases List.eq_or_mem_of_mem_insertIdx hi with rfl | hi
  · exact hj
  · exact h i hi

theorem eraseIdx (p : Nat) : WellFormed (.arr (items.eraseIdx p)) := by
  rw [wellFormed_arr] at h ⊢
  exact fun i hi => h i (List.mem_of_mem_eraseIdx hi)

theorem append {more : List Json} (hmore : WellFormed (.arr more)) :
    WellFormed (.arr (items ++ more)) := by
  rw [wellFormed_arr] at h hmore ⊢
  exact fun i hi => (List.mem_append.mp hi).elim (h i) (hmore i)

end Items

theorem singleton {j : Json} (hj : j.WellFormed) : WellFormed (.arr [j]) :=
  wellFormed_arr.mpr (by simpa using hj)

end Json.WellFormed

/-- All JSON among some cells is well-formed. -/
def Cell.AllWellFormed (cells : List Cell) : Prop := ∀ j, Cell.json j ∈ cells → j.WellFormed

/-! ## Edits -/

namespace Jsonb

open Json (WellFormed)

/-- The change makes well-formed containers of well-formed ones. -/
def KeepsWellFormed (change : String → Json → Except ExecutionFault Json) : Prop :=
  ∀ {key j r}, j.WellFormed → change key j = .ok r → r.WellFormed

theorem keepsWellFormed_putAt (create : Bool) {new : Json} (hnew : new.WellFormed) :
    KeepsWellFormed (putAt create new) := by
  intro key j r hj h
  cases j with
  | obj members =>
    rw [putAt] at h
    split at h <;> cases h
    · exact hj.insert hnew key
    · exact hj
  | arr items =>
    obtain ⟨i, -, h⟩ := bind_eq_ok h
    split at h
    · cases h
      exact hj.set hnew _
    · repeat' split at h
      all_goals cases h
      · exact hj
      · exact hnew.singleton.append hj
      · exact hj.append hnew.singleton
  | _ =>
    cases h
    exact hj

theorem keepsWellFormed_insertAt {new : Json} (hnew : new.WellFormed) :
    KeepsWellFormed (insertAt new) := by
  intro key j r hj h
  cases j with
  | obj members =>
    rw [insertAt] at h
    split at h <;> cases h
    exact hj.insert hnew key
  | arr items =>
    obtain ⟨i, -, h⟩ := bind_eq_ok h
    split at h
    · cases h
      exact hj.insertIdx hnew _
    · split at h <;> cases h
      · exact hnew.singleton.append hj
      · exact hj.append hnew.singleton
  | _ =>
    cases h
    exact hj

theorem keepsWellFormed_deleteAt : KeepsWellFormed deleteAt := by
  intro key j r hj h
  cases j with
  | obj members =>
    cases h
    exact hj.erase key
  | arr items =>
    obtain ⟨i, -, h⟩ := bind_eq_ok h
    split at h <;> cases h
    · exact hj.eraseIdx _
    · exact hj
  | _ =>
    cases h
    exact hj

theorem wellFormed_edit {change : String → Json → Except ExecutionFault Json}
    (hchange : KeepsWellFormed change) : ∀ {path : List String} {j r : Json}, j.WellFormed →
      edit change path j = .ok r → r.WellFormed
  | [], _, _, hj, h => by
    cases h
    exact hj
  | [key], _, _, hj, h => hchange hj (by rw [← h, edit])
  | key :: next :: rest, .obj members, r, hj, h => by
    rw [edit] at h
    · split at h
      · rename_i child hget
        obtain ⟨c, hc, h⟩ := bind_eq_ok h
        cases h
        exact hj.insert (wellFormed_edit hchange (hj.get? hget) hc) key
      · cases h
        exact hj
    · simp
  | key :: next :: rest, .arr items, r, hj, h => by
    rw [edit] at h
    · obtain ⟨i, -, h⟩ := bind_eq_ok h
      split at h
      · rename_i p child hget
        obtain ⟨p', -, hget⟩ := Option.bind_eq_some_iff.mp hget
        obtain ⟨child', hget, heq⟩ := Option.map_eq_some_iff.mp hget
        cases heq
        obtain ⟨c, hc, h⟩ := bind_eq_ok h
        cases h
        exact hj.set (wellFormed_edit hchange (hj.item hget) hc) p
      · cases h
        exact hj
    · simp
  | _ :: _ :: _, .null, _, hj, h | _ :: _ :: _, .bool _, _, hj, h
  | _ :: _ :: _, .num _, _, hj, h | _ :: _ :: _, .str _, _, hj, h => by
    cases h
    exact hj

theorem wellFormed_get? {path : List String} {j child : Json} (hj : j.WellFormed)
    (h : get? path j = some child) : child.WellFormed := by
  induction path generalizing j with
  | nil =>
    cases h
    exact hj
  | cons key rest ih =>
    cases j with
    | obj members =>
      obtain ⟨next, hnext, h⟩ := Option.bind_eq_some_iff.mp h
      exact ih (hj.get? hnext) h
    | arr items =>
      obtain ⟨p, -, h⟩ := Option.bind_eq_some_iff.mp h
      obtain ⟨next, hnext, h⟩ := Option.bind_eq_some_iff.mp h
      exact ih (hj.item hnext) h
    | _ => cases h

theorem wellFormed_concat {a b : Json} (ha : a.WellFormed) (hb : b.WellFormed) :
    (concat a b).WellFormed := by
  unfold concat
  split
  · exact ha.extend hb
  · exact ha.append hb
  · exact ha.append hb.singleton
  · exact ha.singleton.append hb
  · exact ha.singleton.append hb.singleton

/-! ## Expressions -/

/-- Not JSON, or a well-formed value. -/
def Datum.WellFormed : Datum → Prop
  | .json j => j.WellFormed
  | _ => True

theorem wellFormed_edited {result : Except ExecutionFault Json} {d : Datum}
    (hresult : ∀ j, result = .ok j → j.WellFormed) (h : edited result = .ok d) : d.WellFormed := by
  cases result with
  | error fault => cases h
  | ok j =>
    cases h
    exact hresult j rfl

theorem wellFormed_castTo {type : String} {d r : Datum} (hd : d.WellFormed)
    (h : castTo type d = .ok r) : r.WellFormed := by
  unfold castTo at h
  split at h
  · cases h
    trivial
  · repeat' split at h
    all_goals cases h
    · trivial
    · rename_i hread
      exact Json.wellFormed_of_read? hread
  · split at h <;> cases h
    exact hd
  · cases h

theorem wellFormed_apply {op : Op} {left right r : Datum} (hleft : left.WellFormed)
    (hright : right.WellFormed) (h : op.apply left right = .ok r) : r.WellFormed := by
  unfold Op.apply at h
  split at h
  · cases h
    trivial
  · cases h
    trivial
  · rename_i j keys
    cases h
    cases hget : get? keys j with
    | none => trivial
    | some child => exact wellFormed_get? hleft hget
  · exact wellFormed_edited
      (fun _ hdelete => wellFormed_edit keepsWellFormed_deleteAt hleft hdelete) h
  · cases h
    exact wellFormed_concat hleft hright
  · cases h

theorem wellFormed_item {d : Datum} {j : Json} (hd : d.WellFormed) (h : item d = .ok j) :
    j.WellFormed := by
  cases d with
  | null =>
    cases h
    trivial
  | json j =>
    cases h
    exact hd
  | _ => cases h

theorem wellFormed_strictCall {name : String} {args : List Datum} {r : Datum}
    (hargs : ∀ d ∈ args, d.WellFormed) (h : strictCall name args = .ok r) : r.WellFormed := by
  unfold strictCall at h
  split at h
  · rename_i target keys new
    have htarget : target.WellFormed := hargs (.json target) (by simp)
    have hnew : new.WellFormed := hargs (.json new) (by simp)
    repeat' split at h
    · exact wellFormed_edited
        (fun _ hset => wellFormed_edit (keepsWellFormed_putAt true hnew) htarget hset) h
    · exact wellFormed_edited
        (fun _ hinsert => wellFormed_edit (keepsWellFormed_insertAt hnew) htarget hinsert) h
    · cases h
  · rename_i target keys new create
    have htarget : target.WellFormed := hargs (.json target) (by simp)
    have hnew : new.WellFormed := hargs (.json new) (by simp)
    split at h
    · exact wellFormed_edited
        (fun _ hset => wellFormed_edit (keepsWellFormed_putAt create hnew) htarget hset) h
    · cases h
  · cases h

theorem wellFormed_callOn {name : String} {args : List Datum} {r : Datum}
    (hargs : ∀ d ∈ args, d.WellFormed) (h : callOn name args = .ok r) : r.WellFormed := by
  unfold callOn at h
  split at h
  · cases h
    cases hfind : args.find? fun d => !d.isNull with
    | none => trivial
    | some d => exact hargs d (List.mem_of_find?_eq_some hfind)
  · split at h
    · obtain ⟨items, hitems, h⟩ := bind_eq_ok h
      cases h
      refine Json.wellFormed_arr.mpr fun j hj => ?_
      obtain ⟨d, hd, hitem⟩ := exists_of_forall₂ (mapM_eq_ok hitems).flip hj
      exact wellFormed_item (hargs d hd) hitem
    · split at h
      · cases h
        trivial
      · exact wellFormed_strictCall hargs h

theorem wellFormed_parameter {params : List Cell} (hparams : Cell.AllWellFormed params)
    {ordinal : Nat} {d : Datum} (h : parameter params ordinal = .ok d) : d.WellFormed := by
  unfold parameter at h
  split at h
  · cases h
  · split at h <;> cases h
    · trivial
    · trivial
    · trivial
    · rename_i hget
      exact hparams _ (List.mem_of_getElem? hget)

section Eval

variable {body : Json} {params : List Cell}

mutual

theorem wellFormed_eval (hbody : body.WellFormed) (hparams : Cell.AllWellFormed params) :
    ∀ {e : Expr} {d : Datum}, e.eval body params = .ok d → d.WellFormed
  | .body, _, h => by
    cases h
    exact hbody
  | .bool _, _, h | .literal _, _, h => by
    cases h
    trivial
  | .param n, _, h => wellFormed_parameter hparams h
  | .cast e type, _, h => by
    obtain ⟨d, hd, h⟩ := bind_eq_ok h
    exact wellFormed_castTo (wellFormed_eval hbody hparams hd) h
  | .binary op left right, _, h => by
    obtain ⟨l, hl, h⟩ := bind_eq_ok h
    obtain ⟨r, hr, h⟩ := bind_eq_ok h
    exact wellFormed_apply (wellFormed_eval hbody hparams hl) (wellFormed_eval hbody hparams hr) h
  | .call name args, _, h => by
    obtain ⟨ds, hds, h⟩ := bind_eq_ok h
    exact wellFormed_callOn (wellFormed_evalAll hbody hparams hds) h
  | .stuck done, _, h => by
    obtain ⟨ds, -, h⟩ := bind_eq_ok h
    cases h

theorem wellFormed_evalAll (hbody : body.WellFormed) (hparams : Cell.AllWellFormed params) :
    ∀ {es : List Expr} {ds : List Datum},
      Expr.evalAll body params es = .ok ds → ∀ d ∈ ds, d.WellFormed
  | [], _, h => by
    cases h
    exact nofun
  | e :: rest, _, h => by
    obtain ⟨d, hd, h⟩ := bind_eq_ok h
    obtain ⟨ds, hds, h⟩ := bind_eq_ok h
    cases h
    exact List.forall_mem_cons.mpr
      ⟨wellFormed_eval hbody hparams hd, wellFormed_evalAll hbody hparams hds⟩

end

/-- Whatever text is evaluated, what it makes of a well-formed body is well-formed. -/
theorem wellFormed_of_evaluate (hbody : body.WellFormed) (hparams : Cell.AllWellFormed params)
    {text : List Char} {r : Json} (h : evaluate text body params = .ok (some r)) :
    r.WellFormed := by
  unfold evaluate at h
  split at h
  · cases h
  · obtain ⟨d, hd, h⟩ := bind_eq_ok h
    have hdatum := wellFormed_eval hbody hparams hd
    split at h <;> cases h
    exact hdatum

end Eval

end Jsonb

/-! ## Documents -/

theorem Cell.wellFormed_toJson {cell : Cell} (h : ∀ j, cell = .json j → j.WellFormed) :
    cell.toJson.WellFormed := by
  cases cell with
  | json j => exact h j rfl
  | _ =>
    unfold Cell.toJson
    repeat' split
    all_goals trivial

namespace Document

theorem wellFormed_bodyMembers {cell : Cell} {members : Json.Members}
    (hcell : ∀ j, cell = .json j → j.WellFormed) (h : bodyMembers cell = .ok members) :
    Json.WellFormed (.obj members) := by
  obtain ⟨j, hj, h⟩ := bind_eq_ok h
  have hwell : j.WellFormed := by
    unfold bodyValue at hj
    split at hj
    · split at hj <;> cases hj
      rename_i hread
      exact Json.wellFormed_of_read? hread
    · cases hj
      exact hcell _ rfl
    · cases hj
  cases j with
  | obj members' =>
    cases h
    exact hwell
  | _ => cases h

/-- A row is read as a well-formed document if what it holds is well-formed. -/
theorem wellFormed_ofRow {r : QueryResult} {row : List Cell} {d : Document}
    (hrow : Cell.AllWellFormed row) (h : ofRow r row = .ok d) : d.toJson.WellFormed := by
  have hcolumn : ∀ {name cell}, column r row name = .ok cell →
      ∀ j, cell = .json j → j.WellFormed := by
    rintro name cell hcell j rfl
    unfold column at hcell
    split at hcell <;> cases hcell
    rename_i hget
    obtain ⟨i, -, hget⟩ := Option.bind_eq_some_iff.mp hget
    exact hrow j (List.mem_of_getElem? hget)
  obtain ⟨id, hid, h⟩ := bind_eq_ok h
  obtain ⟨body, hbody, h⟩ := bind_eq_ok h
  obtain ⟨members, hmembers, h⟩ := bind_eq_ok h
  cases h
  exact (wellFormed_bodyMembers (hcolumn hbody) hmembers).insert
    (Cell.wellFormed_toJson (hcolumn hid)) idColumn

end Document

namespace Table

variable {t : Table} {id : Cell} {body : Json.Members}

theorem wellFormed_insertion (hid : ∀ j, id = .json j → j.WellFormed)
    (hbody : Json.WellFormed (.obj body)) : Cell.AllWellFormed (t.insertion id body).params := by
  intro j hj
  rcases List.mem_pair.mp hj with hj | hj
  · exact hid j hj.symm
  · cases hj
    exact hbody

theorem wellFormed_updating (hid : ∀ j, id = .json j → j.WellFormed)
    (hbody : Json.WellFormed (.obj body)) {s : Statement} (h : t.updating id body = .ok s) :
    Cell.AllWellFormed s.params := by
  intro j hj
  obtain ⟨patch, -, h⟩ := bind_eq_ok h
  cases patch with
  | none =>
    cases h
    rcases List.mem_pair.mp hj with hj | hj
    · exact hid j hj.symm
    · cases hj
      exact hbody
  | some p =>
    -- path and value are sent as text
    obtain ⟨⟨sql, params⟩, hstatement, h⟩ := bind_eq_ok h
    obtain ⟨segments, -, hstatement⟩ := bind_eq_ok hstatement
    cases h
    cases hstatement
    refine hid j ?_
    cases p with
    | write how path value => simpa [Statement.ofSql, Patch.params, eq_comm] using hj
    | remove path => simpa [Statement.ofSql, Patch.params, eq_comm] using hj

end Table

end DocStore
