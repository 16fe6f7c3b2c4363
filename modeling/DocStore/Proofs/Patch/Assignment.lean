import DocStore.Patch
import DocStore.Proofs.Except
import DocStore.Proofs.Expr.ReadBack
import DocStore.Proofs.Path.ArrayText
import DocStore.Proofs.Path.Parts

/-!
# What the assignment of a patch computes

`outcome` is the effect of a patch without its text: the missing parents
are created one after the other, outermost first, and the place is
changed in the result. Parents and the old value are looked up in the
body as it was.

The text of the assignment is read back as the expression it was written
from, and the expression evaluates to `outcome`. The keys of a path may
hold any character: they reach the text only inside constants.

Main statement: `evaluate_assignment`.
-/

namespace DocStore

open Jsonb (Expr Datum)

/-! ## The outcome of a patch -/

/-- The value that is put at the place, given the one that was there. -/
def PatchWrite.written (old : Option Json) (value : Json) : PatchWrite → Json
  | .set => value
  | .insert => value
  | .push => Jsonb.concat (old.getD (.arr [])) (.arr [value])

/-- The change of the container of the place. -/
def PatchWrite.change (new : Json) : PatchWrite → String → Json → Except ExecutionFault Json
  | .set => Jsonb.putAt true new
  | .insert => Jsonb.insertAt new
  | .push => Jsonb.putAt true new

namespace Patch

/-- `j` with every one of `parents` present; what is there already comes from
`body`, and anything else is an empty object. -/
def grow (body : Json) : List (List String) → Json → Except ExecutionFault Json
  | [], j => .ok j
  | parent :: rest, j => do
    grow body rest (← Jsonb.set true parent ((Jsonb.get? parent body).getD (.obj [])) j)

/-- The new body, or the fault that keeps the old one. -/
def outcome (segments : List String) (body : Json) : Patch → Except ExecutionFault Json
  | .write how _ value => do
    Jsonb.edit (how.change (how.written (Jsonb.get? segments body) value)) segments
      (← grow body (DocPath.parents segments) body)
  | .remove _ => Jsonb.delete segments body

/-- The value that a patch writes. -/
def value? : Patch → Option Json
  | .write _ _ value => some value
  | .remove _ => none

/-- The patch with the value that the text of its own value is read as. -/
def reread? : Patch → Option Patch
  | .write how path value => (Json.read? value.text).map (.write how path)
  | .remove path => some (.remove path)

theorem reread?_eq_self {p : Patch} (h : ∀ v ∈ p.value?, Json.read? v.text = some v) :
    p.reread? = some p := by
  cases p with
  | write how path value => rw [reread?, h value rfl, Option.map_some]
  | remove path => rfl

theorem reread?_write {value : Json} (h : Json.read? value.text = some value) (how : PatchWrite)
    (path : String) : (write how path value).reread? = some (write how path value) := by
  apply reread?_eq_self
  rintro v ⟨⟩
  exact h

theorem exists_reread {p : Patch} (h : ∀ v ∈ p.value?, (Json.read? v.text).isSome) :
    ∃ q, p.reread? = some q := by
  cases p with
  | write how path value =>
    obtain ⟨new, hnew⟩ := Option.isSome_iff_exists.mp (h value rfl)
    exact ⟨_, by rw [reread?, hnew, Option.map_some]⟩
  | remove path => exact ⟨_, rfl⟩

/-! ## The text is read back -/

theorem isType_array : Expr.IsType "text[]" := .inr ⟨"text", by decide, rfl⟩

theorem isType_jsonb : Expr.IsType "jsonb" := .inl (by decide)

theorem operand_pathParam : pathParam.Operand := .cast (.param (by decide)) isType_array

theorem operand_valueParam : valueParam.Operand := .cast (.param (by decide)) isType_jsonb

theorem operand_getOr {path other : Expr} (hpath : path.Operand) (hother : other.Operand) :
    (Expr.getOr .body path other).Operand := by
  refine .call (by unfold Expr.IsFunction; decide) ?_
  simp only [List.forall_mem_cons]
  refine ⟨.binary (.operand .body) hpath, .operand hother, ?_⟩
  simp

theorem operand_ensure {e : Expr} (he : e.Operand) (parent : List String) :
    (ensure e parent).Operand := by
  refine .call (by unfold Expr.IsFunction; decide) ?_
  simp only [List.forall_mem_cons]
  refine ⟨.operand he, .operand (.cast (.literal _) isType_array), .operand (operand_getOr
    (.cast (.literal _) isType_array) (.cast (.literal _) isType_jsonb)), .operand (.bool _), ?_⟩
  simp

theorem operand_withParents (segments : List String) : (withParents segments).Operand :=
  List.foldlRecOn _ _ .body fun _ he parent _ => operand_ensure he parent

theorem writable_appended : appended.Writable := by
  refine .binary (.operand (operand_getOr operand_pathParam (.cast (.literal _) isType_jsonb)))
    (.call (by unfold Expr.IsFunction; decide) ?_)
  intro e he
  rw [List.mem_singleton.mp he]
  exact .operand operand_valueParam

theorem writable_assignment (segments : List String) (p : Patch) :
    (p.assignment segments).Writable := by
  have hparents : (withParents segments).Writable := .operand (operand_withParents segments)
  have hpath : pathParam.Writable := .operand operand_pathParam
  have hvalue : valueParam.Writable := .operand operand_valueParam
  have htrue : (Expr.bool true).Writable := .operand (.bool true)
  match p with
  | .write .set _ _ =>
    refine .operand (.call (by unfold Expr.IsFunction; decide) ?_)
    simp [hparents, hpath, hvalue, htrue]
  | .write .insert _ _ =>
    refine .operand (.call (by unfold Expr.IsFunction; decide) ?_)
    simp [hparents, hpath, hvalue]
  | .write .push _ _ =>
    refine .operand (.call (by unfold Expr.IsFunction; decide) ?_)
    simp [hparents, hpath, writable_appended, htrue]
  | .remove _ => exact .binary (.operand .body) operand_pathParam

/-- The only reading of the text of an assignment. -/
theorem scan_assignment (segments : List String) (p : Patch) :
    (Jsonb.Token.scan .between (p.assignment segments).sql.chars).map Expr.ofTokens =
      some (p.assignment segments) := by
  have h := writable_assignment segments p
  rw [h.scan_sql, Option.map_some, h.ofTokens_tokens]

/-! ## Evaluation -/

section Evaluation

open Jsonb

variable {body : Json} {bound : List Cell}

theorem eval_arrayText {segments : List String} (h : segments ≠ []) :
    (Expr.literal (DocPath.arrayText segments)).asPath.eval body bound = .ok (.path segments) := by
  show castTo "text[]" (.text (DocPath.arrayText segments)) = _
  simp [castTo, keys?_arrayText h]

theorem eval_pathParam (body : Json) (id : Cell) {segments : List String} (rest : List Cell)
    (h : segments ≠ []) :
    pathParam.eval body (id :: .text (DocPath.arrayText segments) :: rest) =
      .ok (.path segments) := by
  show castTo "text[]" (.text (DocPath.arrayText segments)) = _
  simp [castTo, keys?_arrayText h]

theorem eval_valueParam (body : Json) (id path : Cell) {value new : Json}
    (h : Json.read? value.text = some new) :
    valueParam.eval body [id, path, .text value.text] = .ok (.json new) := by
  show castTo "jsonb" (.text value.text) = _
  simp [castTo, h]

/-- A constant of JSON, as the two that stand for empty containers. -/
theorem eval_asJson {s : String} {j : Json} (h : Json.read? s = some j) :
    (Expr.literal s).asJson.eval body bound = .ok (.json j) := by
  show castTo "jsonb" (.text s) = _
  simp [castTo, h]

theorem eval_getOr {path other : Expr} {keys : List String} {j : Json}
    (hpath : path.eval body bound = .ok (.path keys))
    (hother : other.eval body bound = .ok (.json j)) :
    (Expr.getOr .body path other).eval body bound = .ok (.json ((get? keys body).getD j)) := by
  have hget : (Expr.binary .get .body path).eval body bound =
      .ok ((get? keys body).elim .null .json) := by
    rw [Expr.eval, hpath]
    rfl
  rw [Expr.getOr, Expr.eval, Expr.evalAll, hget, Expr.evalAll, hother, Expr.evalAll]
  cases get? keys body <;> rfl

theorem eval_ensure {e : Expr} {r : Except ExecutionFault Json}
    (he : e.eval body bound = edited r) {parent : List String} (hparent : parent ≠ []) :
    (ensure e parent).eval body bound =
      edited (r >>= set true parent ((get? parent body).getD (.obj []))) := by
  have hempty : (Expr.literal "\x7b\x7d").asJson.eval body bound = .ok (.json (.obj [])) :=
    eval_asJson rfl
  have hgetOr := eval_getOr (eval_arrayText hparent) hempty
  simp only [ensure, Expr.eval, Expr.evalAll, he, eval_arrayText hparent, hgetOr]
  cases r <;> rfl

theorem grow_cons_bind (parent : List String) (rest : List (List String))
    (r : Except ExecutionFault Json) :
    (r >>= grow body (parent :: rest)) =
      (r >>= set true parent ((get? parent body).getD (.obj []))) >>= grow body rest := by
  cases r <;> rfl

theorem eval_withParents {parents : List (List String)} (h : ∀ p ∈ parents, p ≠ []) {e : Expr}
    {r : Except ExecutionFault Json} (he : e.eval body bound = edited r) :
    (parents.foldl ensure e).eval body bound = edited (r >>= grow body parents) := by
  induction parents generalizing e r with
  | nil =>
    rw [List.foldl_nil, he]
    cases r <;> rfl
  | cons parent rest ih =>
    rw [List.forall_mem_cons] at h
    rw [List.foldl_cons, ih h.2 (eval_ensure he h.1), grow_cons_bind]

theorem eval_appended {segments : List String}
    (hpath : pathParam.eval body bound = .ok (.path segments))
    {new : Json} (hvalue : valueParam.eval body bound = .ok (.json new)) :
    appended.eval body bound =
      .ok (.json (PatchWrite.push.written (get? segments body) new)) := by
  have hempty : (Expr.literal "[]").asJson.eval body bound = .ok (.json (.arr [])) :=
    eval_asJson rfl
  have hgetOr := eval_getOr hpath hempty
  simp only [appended, Expr.eval, Expr.evalAll, hgetOr, hvalue]
  rfl

theorem eval_withParents_body (body : Json) (segments : List String) (bound : List Cell) :
    (withParents segments).eval body bound =
      edited (grow body (DocPath.parents segments) body) :=
  eval_withParents (r := .ok body) DocPath.parents_ne_nil rfl

/-- What an assignment evaluates to, with the value as its text is read. -/
theorem eval_assignment {segments : List String} (hne : segments ≠ []) (id : Cell) {p q : Patch}
    (h : p.reread? = some q) :
    (p.assignment segments).eval body (p.params id segments) =
      edited (q.outcome segments body) := by
  cases p with
  | remove path =>
    cases h
    rw [assignment, Expr.eval, params, eval_pathParam body id [] hne]
    rfl
  | write how path value =>
    obtain ⟨new, hread, rfl⟩ := Option.map_eq_some_iff.mp h
    have hgrow := eval_withParents_body body segments
    have hvalue := eval_valueParam body id (.text (DocPath.arrayText segments)) hread
    have hpath := eval_pathParam body id [.text value.text] hne
    cases how with
    | set =>
      simp only [assignment, params, Expr.eval, Expr.evalAll, hgrow, hpath, hvalue, outcome]
      cases grow body (DocPath.parents segments) body <;> rfl
    | insert =>
      simp only [assignment, params, Expr.eval, Expr.evalAll, hgrow, hpath, hvalue, outcome]
      cases grow body (DocPath.parents segments) body <;> rfl
    | push =>
      simp only [assignment, params, Expr.eval, Expr.evalAll, hgrow, hpath,
        eval_appended hpath hvalue, outcome]
      cases grow body (DocPath.parents segments) body <;> rfl

/-- A value whose text is not read ends the evaluation. -/
theorem eval_assignment_unread {segments : List String} (hne : segments ≠ []) (id : Cell)
    {p : Patch} (h : p.reread? = none) :
    ∃ e, (p.assignment segments).eval body (p.params id segments) = .error e := by
  cases p with
  | remove path => cases h
  | write how path value =>
    have hread : Json.read? value.text = none := Option.map_eq_none_iff.mp h
    have hgrow := eval_withParents_body body segments
    have hpath := eval_pathParam body id [.text value.text] hne
    have hvalue : valueParam.eval body
        [id, .text (DocPath.arrayText segments), .text value.text] =
        .error (.malformed .notJson) := by
      show castTo "jsonb" (.text value.text) = _
      simp [castTo, hread]
    cases hroot : grow body (DocPath.parents segments) body with
    | error fault =>
      refine ⟨.execution fault, ?_⟩
      cases how <;>
        simp only [assignment, params, Expr.eval, Expr.evalAll, hgrow, hroot] <;> rfl
    | ok root =>
      refine ⟨.malformed .notJson, ?_⟩
      have hgetOr : (Expr.getOr .body pathParam (Expr.literal "[]").asJson).eval body
          [id, .text (DocPath.arrayText segments), .text value.text] =
          .ok (.json ((get? segments body).getD (.arr []))) := eval_getOr hpath (eval_asJson rfl)
      cases how <;>
        simp only [assignment, appended, params, Expr.eval, Expr.evalAll, hgrow, hroot, hpath,
          hgetOr, hvalue] <;> rfl

/-- The text of an assignment, evaluated with the parameters of the patch. -/
theorem evaluate_assignment {segments : List String} (hne : segments ≠ []) (id : Cell)
    {p q : Patch} (h : p.reread? = some q) :
    evaluate (p.assignment segments).sql.chars body (p.params id segments) =
      match q.outcome segments body with
      | .ok j => .ok (some j)
      | .error fault => .error (.execution fault) := by
  have hw := writable_assignment segments p
  rw [evaluate, hw.scan_sql]
  simp only [hw.ofTokens_tokens, eval_assignment hne id h]
  cases q.outcome segments body <;> rfl

theorem outcome_of_evaluate {segments : List String} (hne : segments ≠ []) (id : Cell) (p : Patch)
    {r : Json}
    (h : evaluate (p.assignment segments).sql.chars body (p.params id segments) = .ok (some r)) :
    ∃ q, p.reread? = some q ∧ q.outcome segments body = .ok r := by
  cases hread : p.reread? with
  | some q =>
    refine ⟨q, rfl, ?_⟩
    rw [evaluate_assignment hne id hread] at h
    split at h
    · rename_i j hj
      cases h
      exact hj
    · cases h
  | none =>
    have hw := writable_assignment segments p
    have hunread : ∃ e, (p.assignment segments).eval body (p.params id segments) = .error e :=
      eval_assignment_unread hne id hread
    obtain ⟨e, he⟩ := hunread
    rw [evaluate, hw.scan_sql] at h
    simp only [hw.ofTokens_tokens, he] at h
    cases h

end Evaluation

/-! ## The statement -/

theorem statement_eq {p : Patch} (h : "" ∉ DocPath.parts p.path) (table : Sql)
    (primaryKey : String) (id : Cell) :
    p.statement table primaryKey id =
      .ok (updateSql table primaryKey (p.assignment (DocPath.parts p.path)).sql,
        p.params id (DocPath.parts p.path)) := by
  rw [statement, DocPath.segments, if_neg h]
  rfl

end Patch

end DocStore
