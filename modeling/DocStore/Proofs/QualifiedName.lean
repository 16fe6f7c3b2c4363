import DocStore.Proofs.Collection
import DocStore.Proofs.Text.Split

/-!
# Names that lead back

An entity shows a qualified name, which leaves the default schema out, and
a path is cut at its first dot, whether that dot was put there or belongs
to a schema or a name. So the qualified name of an entity leads back to it
if no dot comes before the one that was put there, and if there is none at
all where none was put (`HasPlainPath`).

An entity knows the default schema of the database that it was made for,
and in any database there can be that is the one that paths are read with
(`owns_entities`).

Main statement: `Reachable.addresses`.
-/

namespace DocStore

/-! ## Reading a qualified name -/

/-- The name that is shown for a schema and a name, read as a path. -/
theorem ofPath_qualifiedName_iff (defaultSchema own schema name : String) :
    EntityKey.ofPath defaultSchema (qualifiedName own schema name) = ⟨schema, name⟩ ↔
      (schema = own ∧ schema = defaultSchema ∧ '.' ∉ name.toList) ∨
        (schema ≠ own ∧ '.' ∉ schema.toList) := by
  -- A part of a name that is cut off is shorter than the name.
  have hshorter : ∀ a b : String, b ≠ a ++ "." ++ b := by
    intro a b heq
    have hlength := congrArg String.length heq
    rw [String.length_append, String.length_append, show ".".length = 1 from rfl] at hlength
    omega
  by_cases hown : schema = own
  · rw [qualifiedName, if_pos hown, EntityKey.ofPath]
    cases hcut : Text.cut? "." name with
    | none =>
      have hdot := Text.cut?_dot_eq_none_iff.mp hcut
      simp [hown, hdot, eq_comm]
    | some parts =>
      obtain ⟨a, b⟩ := parts
      obtain ⟨hname, -⟩ := Text.cut?_dot_eq_some_iff.mp hcut
      have hdot : '.' ∈ name.toList := by simp [hname]
      refine iff_of_false (fun hkey => hshorter a b ?_) (by simp [hown, hdot])
      rw [← hname]
      exact congrArg EntityKey.name hkey
  · rw [qualifiedName, if_neg hown, EntityKey.ofPath]
    by_cases hdot : '.' ∈ schema.toList
    · obtain ⟨⟨a, b⟩, hcut⟩ := Option.ne_none_iff_exists'.mp
        (mt Text.cut?_dot_eq_none_iff.mp (not_not_intro hdot))
      obtain ⟨hschema, ha⟩ := Text.cut?_dot_eq_some_iff.mp hcut
      have hpath : Text.cut? "." (schema ++ "." ++ name) = some (a, b ++ "." ++ name) :=
        Text.cut?_dot_eq_some_iff.mpr ⟨by simp [hschema, String.append_assoc], ha⟩
      rw [hpath]
      refine iff_of_false (fun hkey => hshorter b name ?_) (by simp [hown, hdot])
      exact (congrArg EntityKey.name hkey).symm
    · rw [Text.cut?_dot_eq_some_iff.mpr ⟨rfl, hdot⟩]
      exact iff_of_true rfl (.inr ⟨hown, hdot⟩)

theorem ofPath_full {schema : String} (h : '.' ∉ schema.toList) (defaultSchema name : String) :
    EntityKey.ofPath defaultSchema (schema ++ "." ++ name) = ⟨schema, name⟩ := by
  rw [EntityKey.ofPath, Text.cut?_dot_eq_some_iff.mpr ⟨rfl, h⟩]

namespace Entity

theorem qualifiedName_eq (e : Entity) :
    e.qualifiedName = DocStore.qualifiedName e.settings.defaultSchema e.schema e.name := by
  cases e <;> rfl

/-- In the default schema, under a name without a dot, or in another schema,
whose name has no dot. -/
def HasPlainPath (defaultSchema : String) (e : Entity) : Prop :=
  (e.schema = defaultSchema ∧ '.' ∉ e.name.toList) ∨
    (e.schema ≠ defaultSchema ∧ '.' ∉ e.schema.toList)

end Entity

/-! ## Finding an entity -/

namespace Namespace.Coherent

variable {n : Namespace} {e : Entity} (h : n.Coherent) (he : e ∈ n.entities)
include h he

/-- A path leads to a bound entity just if it is read as its schema and name. -/
theorem resolve?_eq_some_iff (path : String) :
    n.resolve? path = some e ↔ EntityKey.ofPath n.defaultSchema path = e.key := by
  rw [resolve?_eq]
  constructor
  · exact fun hfound => (h.keyed _ e hfound).symm
  · intro hkey
    rw [hkey]
    exact h.mem_entities_iff.mp he

theorem resolve?_qualifiedName_iff :
    n.resolve? e.qualifiedName = some e ↔
      (e.schema = e.settings.defaultSchema ∧ e.schema = n.defaultSchema ∧ '.' ∉ e.name.toList) ∨
        (e.schema ≠ e.settings.defaultSchema ∧ '.' ∉ e.schema.toList) := by
  rw [h.resolve?_eq_some_iff he, e.qualifiedName_eq]
  exact ofPath_qualifiedName_iff _ _ _ _

theorem resolve?_own_iff (hown : e.settings.defaultSchema = n.defaultSchema) :
    n.resolve? e.qualifiedName = some e ↔ e.HasPlainPath n.defaultSchema := by
  rw [h.resolve?_qualifiedName_iff he, hown, Entity.HasPlainPath, ← and_assoc, and_self]

end Namespace.Coherent

/-! ## Every database -/

/-- Which of its entities a namespace finds by the names that they show. -/
structure Namespace.Addresses (n : Namespace) : Prop where
  /-- An entity is found just if its path is plain. -/
  own_iff : ∀ e ∈ n.entities,
    (n.resolve? e.qualifiedName = some e ↔ e.HasPlainPath n.defaultSchema)
  /-- No two entities with plain paths show the same name. -/
  distinct : ∀ e ∈ n.entities, ∀ e' ∈ n.entities,
    e.HasPlainPath n.defaultSchema → e'.HasPlainPath n.defaultSchema →
    e ≠ e' → e.qualifiedName ≠ e'.qualifiedName
  /-- With its schema in front an entity is always found, in the default schema
  too, unless the schema has a dot. -/
  full : ∀ e ∈ n.entities, '.' ∉ e.schema.toList →
    n.resolve? (e.schema ++ "." ++ e.name) = some e

namespace Reachable

variable {db : Database} (h : Reachable db)
include h

/-- Every entity of a database was made for it. -/
theorem owns_entities : db.Owns db.bound.entities := by
  obtain ⟨bound, hown, hbound⟩ := h.exists_bound
  intro e he
  refine hown e ?_
  have hlookup := h.coherent.mem_entities_iff.mp he
  rw [hbound, Namespace.lookup?_bindAll] at hlookup
  have hlast : Namespace.lastBound? bound e.schema e.name = some e :=
    (Option.or_none.symm.trans hlookup)
  exact List.mem_of_mem_filter (List.mem_of_getLast? hlast)

theorem resolve?_qualifiedName_iff {e : Entity} (he : e ∈ db.bound.entities) :
    db.bound.resolve? e.qualifiedName = some e ↔ e.HasPlainPath db.bound.defaultSchema := by
  refine h.coherent.resolve?_own_iff he ?_
  rw [h.owns_entities e he, h.defaultSchema_eq]
  rfl

/-- Whatever has been bound in a database in whatever order, an entity is found by the
name that it shows just if its path is plain. -/
theorem addresses : db.bound.Addresses where
  own_iff e he := h.resolve?_qualifiedName_iff he
  distinct e he e' he' hplain hplain' hne hname := by
    have hfound := (h.resolve?_qualifiedName_iff he).mpr hplain
    have hfound' := (h.resolve?_qualifiedName_iff he').mpr hplain'
    rw [hname, hfound'] at hfound
    exact hne (Option.some.inj hfound).symm
  full e he hdot := by
    rw [h.coherent.resolve?_eq_some_iff he, ofPath_full hdot]
    rfl

end Reachable

/-- Two tables of one name, and a function of the default schema whose name reads like the
table of another schema, which is found in its place. -/
theorem addresses_dotted_function :
    ∃ db : Database, Reachable db ∧ db.bound.Addresses ∧
      db.bound.entities.map (fun e =>
          (e.key, e.qualifiedName, (db.bound.resolve? e.qualifiedName).map Entity.key)) =
        [(⟨"a", "b"⟩, "a.b", some ⟨"a", "b"⟩), (⟨"public", "a.b"⟩, "a.b", some ⟨"a", "b"⟩),
          (⟨"public", "users"⟩, "users", some ⟨"public", "users"⟩),
          (⟨"sales", "users"⟩, "sales.users", some ⟨"sales", "users"⟩)] := by
  have h := (Reachable.new {}).change Host.silent () (.bindTable ⟨"public", "users", none⟩) rfl
  have h := h.change Host.silent () (.bindTable ⟨"sales", "users", none⟩) rfl
  have h := h.change Host.silent () (.bindTable ⟨"a", "b", none⟩) rfl
  have h := h.change Host.silent () (.bindFunction ⟨"public", "a.b", 0⟩) rfl
  exact ⟨_, h, h.addresses, rfl⟩

end DocStore
