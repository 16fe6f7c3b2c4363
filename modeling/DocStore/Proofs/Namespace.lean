import DocStore.Namespace
import DocStore.Proofs.Entries
import Mathlib.Algebra.GroupWithZero.Nat
import Mathlib.Data.Finset.Card
import Mathlib.Data.Finset.Dedup

/-!
# The two views of a namespace

The tree and the registry of a namespace are kept apart, and every look-up
and every listing reads only one of them. After any entities have been
bound in any order the two say the same (`Coherent`): each step puts one
entity in both, and leaves all other places of both. What is found under
a schema and a name is therefore the entity that was bound there last,
whichever view is asked.

Main statements: `eq_of_lookup?`, `holds_bindAll`.
-/

namespace DocStore

/-! ## Levels -/

namespace Node

/-- Has entities, and no level below. -/
structure IsLeaf (node : Node) : Prop where
  sorted : node.entities.Sorted
  ne_nil : node.entities ≠ []
  children : node.children = []

theorem sorted_empty : Node.empty.entities.Sorted := .nil

theorem isLeaf_put {node : Node} (hsorted : node.entities.Sorted) (hchildren : node.children = [])
    (e : Entity) : (node.put e).IsLeaf :=
  ⟨hsorted.insert e.name e, Entries.insert_ne_nil e.name e _, hchildren⟩

theorem size_put {node : Node} (h : node.entities.Sorted) (e : Entity) :
    (node.put e).size + (node.get? e.name).toList.length = node.size + 1 :=
  Entries.length_insert h e.name e

theorem IsLeaf.eq_of_get? {node node' : Node} (h : node.IsLeaf) (h' : node'.IsLeaf)
    (hget : ∀ name, node.get? name = node'.get? name) : node = node' := by
  obtain ⟨entities, children⟩ := node
  obtain ⟨entities', children'⟩ := node'
  have hentities : entities = entities' := Entries.eq_of_get? h.sorted h'.sorted hget
  rw [hentities, show children = [] from h.children, show children' = [] from h'.children]

end Node

namespace Namespace

/-! ## Looking up in the tree -/

/-- The entity that the tree has under a schema and a name. -/
def inTree? (n : Namespace) (schema name : String) : Option Entity :=
  if schema = n.defaultSchema then n.get? name else (n.node? schema).bind (·.get? name)

theorem inTree?_bind (n : Namespace) (e : Entity) (schema name : String) :
    (n.bind e).inTree? schema name =
      if e.schema = schema ∧ e.name = name then some e else n.inTree? schema name := by
  unfold inTree?
  rw [defaultSchema_bind]
  by_cases hs : schema = n.defaultSchema
  · rw [if_pos hs, if_pos hs, get?_bind, hs]
  · rw [if_neg hs, if_neg hs, node?_bind]
    by_cases he : e.schema = schema
    · rw [if_pos ⟨he ▸ hs, he⟩, Option.bind_some, Node.get?, Node.put, Entries.get?_insert]
      by_cases hname : e.name = name
      · rw [if_pos hname, if_pos ⟨he, hname⟩]
      · rw [if_neg hname, if_neg fun h => hname h.2]
        cases n.node? schema <;> rfl
    · rw [if_neg fun h => he h.2, if_neg fun h => he h.1]

/-! ## Both views agree -/

/-- The sizes of all levels, added up. -/
def nodeSizes (n : Namespace) : Nat :=
  n.tree.size + (n.tree.children.map fun child => child.2.size).sum

/-- Tree and registry are in order and have the same entities. -/
structure Coherent (n : Namespace) : Prop where
  registry_sorted : n.registry.Sorted
  keyed : ∀ key e, n.registry.get? key = some e → e.key = key
  root_sorted : n.tree.entities.Sorted
  children_sorted : Entries.Sorted n.tree.children
  no_default : n.node? n.defaultSchema = none
  leaf : ∀ schema node, n.node? schema = some node → node.IsLeaf
  agree : ∀ schema name, n.inTree? schema name = n.lookup? schema name
  sizes : n.nodeSizes = n.size

theorem coherent_empty (defaultSchema : String) : (empty defaultSchema).Coherent where
  registry_sorted := .nil
  keyed := nofun
  root_sorted := .nil
  children_sorted := .nil
  no_default := rfl
  leaf := nofun
  agree schema name := by
    unfold inTree?
    split <;> rfl
  sizes := rfl

section Step

variable {n : Namespace} (h : n.Coherent) (e : Entity)
include h

theorem size_bind :
    (n.bind e).size + (n.lookup? e.schema e.name).toList.length = n.size + 1 :=
  Entries.length_insert h.registry_sorted e.key e

/-- A level that is put back with one more entity is still a level of its own. -/
theorem leaf_child_put : (((n.node? e.schema).getD .empty).put e).IsLeaf := by
  cases hnode : n.node? e.schema with
  | none => exact Node.isLeaf_put Node.sorted_empty rfl e
  | some node =>
    have hleaf := h.leaf _ _ hnode
    exact Node.isLeaf_put hleaf.sorted hleaf.children e

theorem nodeSizes_bind :
    (n.bind e).nodeSizes + (n.inTree? e.schema e.name).toList.length = n.nodeSizes + 1 := by
  unfold bind nodeSizes inTree?
  split
  · have hput := Node.size_put h.root_sorted e
    show (n.tree.put e).size + (n.tree.children.map fun child => child.2.size).sum
      + (n.tree.get? e.name).toList.length = _
    omega
  · have hchildren := Entries.sum_insert Node.size h.children_sorted e.schema
      (((n.node? e.schema).getD .empty).put e)
    show n.tree.size + (List.map (fun child => child.2.size)
      (Entries.insert e.schema (((n.node? e.schema).getD .empty).put e) n.tree.children)).sum
        + _ = _
    change _ + ((n.node? e.schema).map Node.size).getD 0 = _ at hchildren
    cases hnode : n.node? e.schema with
    | none =>
      have hput : (Node.empty.put e).size + 0 = 0 + 1 := Node.size_put Node.sorted_empty e
      rw [hnode] at hchildren
      simp only [Option.map_none, Option.getD_none, Option.bind_none, Option.toList_none,
        List.length_nil] at hchildren ⊢
      omega
    | some node =>
      have hput := Node.size_put (h.leaf _ _ hnode).sorted e
      rw [hnode] at hchildren
      simp only [Option.map_some, Option.getD_some, Option.bind_some] at hchildren ⊢
      omega

theorem coherent_bind : (n.bind e).Coherent where
  registry_sorted := h.registry_sorted.insert e.key e
  keyed key e' hget := by
    rw [registry_bind, Entries.get?_insert] at hget
    split at hget
    · rename_i hkey
      cases hget
      exact hkey
    · exact h.keyed key e' hget
  root_sorted := by
    unfold bind
    split
    · exact h.root_sorted.insert e.name e
    · exact h.root_sorted
  children_sorted := by
    unfold bind
    split
    · exact h.children_sorted
    · exact h.children_sorted.insert e.schema _
  no_default := by
    rw [defaultSchema_bind, node?_bind, if_neg fun hs => hs.1 hs.2]
    exact h.no_default
  leaf schema node hnode := by
    rw [node?_bind] at hnode
    split at hnode
    · rename_i hs
      cases hnode
      rw [← hs.2]
      exact leaf_child_put h e
    · exact h.leaf schema node hnode
  agree schema name := by
    rw [inTree?_bind, lookup?_bind, h.agree]
  sizes := by
    have hsize := size_bind h e
    have hsizes := nodeSizes_bind h e
    rw [h.agree, h.sizes] at hsizes
    omega

end Step

theorem coherent_bindAll {n : Namespace} (h : n.Coherent) (entities : List Entity) :
    (n.bindAll entities).Coherent := by
  induction entities generalizing n with
  | nil => exact h
  | cons e entities ih => exact ih (coherent_bind h e)

@[simp] theorem defaultSchema_bindAll (n : Namespace) (entities : List Entity) :
    (n.bindAll entities).defaultSchema = n.defaultSchema := by
  induction entities generalizing n with
  | nil => rfl
  | cons e entities ih => exact ih (n.bind e)

namespace Coherent

variable {n n' : Namespace}

theorem get?_eq (h : n.Coherent) (name : String) :
    n.get? name = n.lookup? n.defaultSchema name := by
  have hagree := h.agree n.defaultSchema name
  rwa [inTree?, if_pos rfl] at hagree

theorem get?_node? (h : n.Coherent) {schema : String} (hs : schema ≠ n.defaultSchema)
    (name : String) : (n.node? schema).bind (·.get? name) = n.lookup? schema name := by
  have hagree := h.agree schema name
  rwa [inTree?, if_neg hs] at hagree

/-- A level is there just if an entity of its schema is. -/
theorem isSome_node?_iff (h : n.Coherent) (schema : String) :
    (n.node? schema).isSome ↔
      schema ≠ n.defaultSchema ∧ ∃ name, (n.lookup? schema name).isSome := by
  constructor
  · intro hsome
    obtain ⟨node, hnode⟩ := Option.isSome_iff_exists.mp hsome
    have hs : schema ≠ n.defaultSchema := by
      rintro rfl
      rw [h.no_default] at hnode
      cases hnode
    have hleaf := h.leaf schema node hnode
    obtain ⟨⟨name, e⟩, rest, hentities⟩ := List.exists_cons_of_ne_nil hleaf.ne_nil
    refine ⟨hs, name, ?_⟩
    have hget : node.get? name = some e := by
      rw [Node.get?, hentities, Entries.get?, if_pos rfl]
    rw [← h.get?_node? hs, hnode, Option.bind_some, hget, Option.isSome_some]
  · rintro ⟨hs, name, hname⟩
    rw [← h.get?_node? hs] at hname
    cases hnode : n.node? schema with
    | none =>
      rw [hnode] at hname
      cases hname
    | some node => rfl

section Found

variable (h : n.Coherent) (h' : n'.Coherent) (hdefault : n.defaultSchema = n'.defaultSchema)
  (hlookup : ∀ schema name, n.lookup? schema name = n'.lookup? schema name)
include h h' hdefault hlookup

theorem node?_eq_of_lookup? (schema : String) : n.node? schema = n'.node? schema := by
  have hiff := h.isSome_node?_iff schema
  simp only [hdefault, hlookup, ← h'.isSome_node?_iff] at hiff
  cases hnode : n.node? schema with
  | none =>
    cases hnode' : n'.node? schema with
    | none => rfl
    | some node' => simp [hnode, hnode'] at hiff
  | some node =>
    cases hnode' : n'.node? schema with
    | none => simp [hnode, hnode'] at hiff
    | some node' =>
      have hs : schema ≠ n.defaultSchema :=
        ((h.isSome_node?_iff schema).mp (by rw [hnode, Option.isSome_some])).1
      congr 1
      refine (h.leaf _ _ hnode).eq_of_get? (h'.leaf _ _ hnode') fun name => ?_
      have hget := h.get?_node? hs name
      rw [hlookup, ← h'.get?_node? (hdefault ▸ hs), hnode, hnode'] at hget
      exact hget

/-- What is found decides all, so binding can only differ in what is found. -/
theorem eq_of_lookup? : n = n' := by
  have hroot : n.tree.entities = n'.tree.entities := by
    refine Entries.eq_of_get? h.root_sorted h'.root_sorted fun name => ?_
    have hget := h.get?_eq name
    rwa [hdefault, hlookup, ← h'.get?_eq] at hget
  have hchildren : n.tree.children = n'.tree.children :=
    Entries.eq_of_get? h.children_sorted h'.children_sorted
      (node?_eq_of_lookup? h h' hdefault hlookup)
  have hregistry : n.registry = n'.registry :=
    Entries.eq_of_get? h.registry_sorted h'.registry_sorted fun key => hlookup key.schema key.name
  obtain ⟨defaultSchema, ⟨entities, children⟩, registry⟩ := n
  obtain ⟨defaultSchema', ⟨entities', children'⟩, registry'⟩ := n'
  simp only at hdefault hroot hchildren hregistry
  rw [hdefault, hroot, hchildren, hregistry]

end Found

/-! ## Listings -/

theorem mem_entities_iff (h : n.Coherent) {e : Entity} :
    e ∈ n.entities ↔ n.lookup? e.schema e.name = some e := by
  rw [entities, List.mem_map]
  constructor
  · rintro ⟨⟨key, e'⟩, hmem, rfl⟩
    have hget := (Entries.mem_iff_get? h.registry_sorted).mp hmem
    rwa [← h.keyed key e' hget] at hget
  · intro hlookup
    exact ⟨(e.key, e), Entries.mem_of_get? hlookup, rfl⟩

theorem ordered_entities (h : n.Coherent) :
    n.entities.Pairwise fun a b => before a.key b.key = true := by
  rw [entities, List.pairwise_map]
  refine List.Pairwise.imp_of_mem ?_ h.registry_sorted
  rintro ⟨key, a⟩ ⟨key', b⟩ ha hb hbefore
  rw [h.keyed key a ((Entries.mem_iff_get? h.registry_sorted).mp ha),
    h.keyed key' b ((Entries.mem_iff_get? h.registry_sorted).mp hb)]
  exact hbefore

end Coherent

/-- Tables and functions among some entities make up all of them. -/
theorem perm_tables_functions (entities : List Entity) :
    ((entities.filterMap Entity.table?).map Entity.table ++
      (entities.filterMap Entity.function?).map Entity.function).Perm entities := by
  induction entities with
  | nil => exact .nil
  | cons e entities ih =>
    cases e with
    | table t => exact ih.cons (Entity.table t)
    | function f => exact List.perm_middle.trans (ih.cons (Entity.function f))

theorem sublist_tables (entities : List Entity) :
    ((entities.filterMap Entity.table?).map Entity.table).Sublist entities := by
  induction entities with
  | nil => exact .slnil
  | cons e entities ih =>
    cases e with
    | table t => exact ih.cons_cons _
    | function f => exact ih.cons _

theorem sublist_functions (entities : List Entity) :
    ((entities.filterMap Entity.function?).map Entity.function).Sublist entities := by
  induction entities with
  | nil => exact .slnil
  | cons e entities ih =>
    cases e with
    | table t => exact ih.cons _
    | function f => exact ih.cons_cons _

/-! ## What was bound last -/

/-- The last of some entities with a schema and a name. -/
def lastBound? (bound : List Entity) (schema name : String) : Option Entity :=
  (bound.filter fun e => e.schema = schema ∧ e.name = name).getLast?

theorem lastBound?_cons (e : Entity) (bound : List Entity) (schema name : String) :
    lastBound? (e :: bound) schema name =
      (lastBound? bound schema name).or
        (if e.schema = schema ∧ e.name = name then some e else none) := by
  unfold lastBound?
  rw [List.filter_cons]
  by_cases h : e.schema = schema ∧ e.name = name
  · rw [if_pos (by simpa using h), if_pos h, List.getLast?_cons]
    cases (bound.filter fun e => e.schema = schema ∧ e.name = name).getLast? <;> rfl
  · rw [if_neg (by simpa using h), if_neg h, Option.or_none]

theorem isSome_lastBound?_iff (bound : List Entity) (schema name : String) :
    (lastBound? bound schema name).isSome ↔ ∃ e ∈ bound, e.schema = schema ∧ e.name = name := by
  rw [lastBound?, List.getLast?_isSome, ne_eq, List.filter_eq_nil_iff]
  simp

/-- A look-up finds what was bound last, or what was there before. -/
theorem lookup?_bindAll (n : Namespace) (bound : List Entity) (schema name : String) :
    (n.bindAll bound).lookup? schema name =
      (lastBound? bound schema name).or (n.lookup? schema name) := by
  induction bound generalizing n with
  | nil => rfl
  | cons e bound ih =>
    show ((n.bind e).bindAll bound).lookup? schema name = _
    rw [ih, lookup?_bind, lastBound?_cons, Option.or_assoc]
    congr 1
    split <;> rfl

/-! ## Every history of bindings -/

/-- A namespace after some entities have been bound in order. -/
structure Holds (n : Namespace) (defaultSchema : String) (bound : List Entity) : Prop where
  /-- A look-up finds the entity that was bound last. -/
  lookup : ∀ schema name, n.lookup? schema name = lastBound? bound schema name
  /-- The root has the entities of the default schema. -/
  root : ∀ name, n.get? name = n.lookup? defaultSchema name
  /-- The level of another schema has the entities of that schema. -/
  below : ∀ schema name, schema ≠ defaultSchema →
    (n.node? schema).bind (·.get? name) = n.lookup? schema name
  no_default : n.node? defaultSchema = none
  /-- There is a level for each other schema of which an entity was bound. -/
  level_iff : ∀ schema, (n.node? schema).isSome ↔
    schema ≠ defaultSchema ∧ ∃ e ∈ bound, e.schema = schema
  /-- A level is not empty, and has no level below. -/
  leaf : ∀ schema node, n.node? schema = some node → node.isEmpty = false ∧ node.children = []
  size_eq_card : n.size = (bound.map Entity.key).toFinset.card
  size_eq_sum : n.size = n.tree.size + (n.tree.children.map fun child => child.2.size).sum
  /-- The last entity of each schema and name is listed, once and in order. -/
  mem_entities : ∀ e, e ∈ n.entities ↔ lastBound? bound e.schema e.name = some e
  ordered : n.entities.Pairwise fun a b => before a.key b.key = true
  /-- Tables and functions are listed apart, each in the order of all entities. -/
  tables : (n.tables.map Entity.table).Sublist n.entities
  functions : (n.functions.map Entity.function).Sublist n.entities
  partition : (n.tables.map Entity.table ++ n.functions.map Entity.function).Perm n.entities
  /-- One more entity displaces the last one that was bound in its place. -/
  displaced : ∀ e, n.displaced? e = lastBound? bound e.schema e.name
  /-- In both views it is found in its place, and all other places are as they were. -/
  registry_frame : ∀ e schema name, (n.bind e).lookup? schema name =
    if e.schema = schema ∧ e.name = name then some e else n.lookup? schema name
  tree_frame : ∀ e schema name, (n.bind e).inTree? schema name =
    if e.schema = schema ∧ e.name = name then some e else n.inTree? schema name

theorem size_eq_card_of_lookup? {n : Namespace} (h : n.Coherent) {bound : List Entity}
    (hlookup : ∀ schema name, n.lookup? schema name = lastBound? bound schema name) :
    n.size = (bound.map Entity.key).toFinset.card := by
  have hnodup : (n.registry.map Prod.fst).Nodup := by
    rw [List.Nodup, List.pairwise_map]
    refine List.Pairwise.imp ?_ h.registry_sorted
    rintro ⟨key, a⟩ ⟨key', b⟩ hbefore rfl
    rw [KeyOrder.before_irrefl] at hbefore
    cases hbefore
  have hkeys : (n.registry.map Prod.fst).toFinset = (bound.map Entity.key).toFinset := by
    ext key
    have hbound := isSome_lastBound?_iff bound key.schema key.name
    rw [← hlookup] at hbound
    simp only [List.mem_toFinset, List.mem_map, Prod.exists, exists_and_right, exists_eq_right]
    constructor
    · rintro ⟨e, hmem⟩
      have hget := (Entries.mem_iff_get? h.registry_sorted).mp hmem
      obtain ⟨e', he', hschema, hname⟩ := hbound.mp (Option.isSome_of_eq_some hget)
      exact ⟨e', he', by rw [Entity.key, hschema, hname]⟩
    · rintro ⟨e, hmem, rfl⟩
      obtain ⟨e', hget⟩ := Option.isSome_iff_exists.mp (hbound.mpr ⟨e, hmem, rfl, rfl⟩)
      exact ⟨e', Entries.mem_of_get? hget⟩
  rw [← hkeys, List.toFinset_card_of_nodup hnodup, List.length_map, size]

/-- Whatever is bound in whatever order, tree and registry have the last
entity of each schema and name and nothing else. -/
theorem holds_bindAll (defaultSchema : String) (bound : List Entity) :
    ((empty defaultSchema).bindAll bound).Holds defaultSchema bound := by
  have h := coherent_bindAll (coherent_empty defaultSchema) bound
  have hdefault : ((empty defaultSchema).bindAll bound).defaultSchema = defaultSchema :=
    defaultSchema_bindAll (empty defaultSchema) bound
  have hlookup : ∀ schema name, ((empty defaultSchema).bindAll bound).lookup? schema name =
      lastBound? bound schema name := by
    intro schema name
    rw [lookup?_bindAll]
    exact Option.or_none
  revert h hdefault hlookup
  generalize (empty defaultSchema).bindAll bound = n
  rintro h rfl hlookup
  refine ⟨hlookup, h.get?_eq, fun schema name hs => h.get?_node? hs name, h.no_default, ?_, ?_,
    size_eq_card_of_lookup? h hlookup, h.sizes.symm, ?_, h.ordered_entities, sublist_tables _,
    sublist_functions _, perm_tables_functions _, fun e => hlookup e.schema e.name,
    n.lookup?_bind, n.inTree?_bind⟩
  · intro schema
    rw [h.isSome_node?_iff]
    simp only [hlookup, isSome_lastBound?_iff]
    refine and_congr_right fun _ => ⟨?_, ?_⟩
    · rintro ⟨name, e, he, hschema, -⟩
      exact ⟨e, he, hschema⟩
    · rintro ⟨e, he, hschema⟩
      exact ⟨e.name, e, he, hschema, rfl⟩
  · intro schema node hnode
    have hleaf := h.leaf schema node hnode
    have hentities : node.entities.isEmpty = false := List.isEmpty_eq_false_iff.mpr hleaf.ne_nil
    exact ⟨by rw [Node.isEmpty, hentities, Bool.false_and], hleaf.children⟩
  · intro e
    rw [h.mem_entities_iff, hlookup]

end Namespace

end DocStore
