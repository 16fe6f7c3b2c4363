import DocStore.Ordered
import DocStore.Table.Basic
import DocStore.Text.Split

/-!
# The namespace of a database

Tables and functions are bound under their schema and name; the two
kinds share one space of names. The default schema makes up the root of a
tree, every other schema with an entity has a level of its own below it,
and a registry lists all entities by schema and name. Binding keeps the
two views in step.
-/

namespace DocStore

/-! ## Entities -/

inductive Entity where
  | table (t : Table)
  | function (f : Function)
deriving Repr, DecidableEq

/-- Schema and name, in this order of weight. -/
structure EntityKey where
  schema : String
  name : String
deriving Repr, DecidableEq

instance : KeyOrder EntityKey where
  before a b := before a.schema b.schema || (a.schema == b.schema && before a.name b.name)
  before_irrefl a := by simp [KeyOrder.before_irrefl]
  before_trans {a b c} hab hbc := by
    simp only [Bool.or_eq_true, Bool.and_eq_true, beq_iff_eq] at *
    rcases hab with hab | ⟨hs, hab⟩ <;> rcases hbc with hbc | ⟨hs', hbc⟩
    · exact .inl (KeyOrder.before_trans hab hbc)
    · exact .inl (hs' ▸ hab)
    · exact .inl (hs ▸ hbc)
    · exact .inr ⟨hs.trans hs', KeyOrder.before_trans hab hbc⟩
  eq_of_not_before {a b} hab hba := by
    simp only [Bool.or_eq_false_iff, Bool.and_eq_false_iff, beq_eq_false_iff_ne] at hab hba
    have hs : a.schema = b.schema := KeyOrder.eq_of_not_before hab.1 hba.1
    have hn : a.name = b.name := KeyOrder.eq_of_not_before
      (hab.2.resolve_left (not_not_intro hs)) (hba.2.resolve_left (not_not_intro hs.symm))
    cases a; cases b; simp_all

namespace Entity

def schema : Entity → String
  | .table t => t.schema
  | .function f => f.schema

def name : Entity → String
  | .table t => t.name
  | .function f => f.name

def key (e : Entity) : EntityKey := ⟨e.schema, e.name⟩

def qualifiedName : Entity → String
  | .table t => t.qualifiedName
  | .function f => f.qualifiedName

def kindName : Entity → String
  | .table _ => "table"
  | .function _ => "function"

def table? : Entity → Option Table
  | .table t => some t
  | .function _ => none

def function? : Entity → Option Function
  | .table _ => none
  | .function f => some f

/-- An entity with its fields by name, texts quoted. -/
def describe : Entity → String
  | .table t =>
    s!"Table(Table \x7b schema: {Text.quoted t.schema}, name: {Text.quoted t.name}, "
      ++ s!"primary_key: {Text.quoted t.primaryKey} \x7d)"
  | .function f =>
    s!"Function(Function \x7b schema: {Text.quoted f.schema}, name: {Text.quoted f.name}, "
      ++ s!"param_count: {f.paramCount} \x7d)"

end Entity

/-! ## The tree -/

/-- The entities of one schema by name. -/
abbrev Level := Entries String Entity

/-- One level of the tree, and the levels below it by name. -/
structure Node where
  entities : Level
  children : List (String × Node)

namespace Node

def empty : Node := ⟨[], []⟩

def get? (node : Node) (name : String) : Option Entity := node.entities.get? name

def child? (node : Node) (name : String) : Option Node := Entries.get? name node.children

def size (node : Node) : Nat := node.entities.length

/-- Neither entities nor levels below. -/
def isEmpty (node : Node) : Bool := node.entities.isEmpty && node.children.isEmpty

/-- Puts an entity on the level, in place of what was there under its name. -/
def put (node : Node) (e : Entity) : Node :=
  { node with entities := node.entities.insert e.name e }

/-- Puts an entity on the level below that is named like its schema, and adds
that level if it is missing. -/
def putBelow (node : Node) (e : Entity) : Node :=
  let child := (node.child? e.schema).getD .empty
  { node with children := Entries.insert e.schema (child.put e) node.children }

end Node

/-! ## The namespace -/

structure Namespace where
  defaultSchema : String
  tree : Node
  registry : Entries EntityKey Entity

namespace Namespace

def empty (defaultSchema : String) : Namespace := ⟨defaultSchema, .empty, []⟩

/-! ## Binding -/

/-- Binds an entity, in place of what was bound under its schema and name. -/
def bind (n : Namespace) (e : Entity) : Namespace :=
  { n with
    tree := if e.schema = n.defaultSchema then n.tree.put e else n.tree.putBelow e
    registry := n.registry.insert e.key e }

/-- What binding an entity displaces. -/
def displaced? (n : Namespace) (e : Entity) : Option Entity := n.registry.get? e.key

def bindAll (n : Namespace) (entities : List Entity) : Namespace := entities.foldl bind n

/-! ## Looking up -/

def lookup? (n : Namespace) (schema name : String) : Option Entity :=
  n.registry.get? ⟨schema, name⟩

/-- The entity of the default schema with a name. -/
def get? (n : Namespace) (name : String) : Option Entity := n.tree.get? name

/-- The level of another schema. -/
def node? (n : Namespace) (schema : String) : Option Node := n.tree.child? schema

def level? (n : Namespace) (schema : String) : Option Level := (n.node? schema).map Node.entities

/-- The entity of a `name` or a `schema.name`, split at the first dot. -/
def resolve? (n : Namespace) (path : String) : Option Entity :=
  match Text.cut? "." path with
  | some (schema, name) => n.lookup? schema name
  | none => n.lookup? n.defaultSchema path

def table? (n : Namespace) (path : String) : Option Table :=
  (n.resolve? path).bind Entity.table?

def function? (n : Namespace) (path : String) : Option Function :=
  (n.resolve? path).bind Entity.function?

/-! ## Listing -/

def entities (n : Namespace) : List Entity := n.registry.map Prod.snd

def tables (n : Namespace) : List Table := n.entities.filterMap Entity.table?

def functions (n : Namespace) : List Function := n.entities.filterMap Entity.function?

def size (n : Namespace) : Nat := n.registry.length

/-- The entities of the default schema. -/
def root (n : Namespace) : Level := n.tree.entities

/-- The other schemas that have entities. -/
def schemas (n : Namespace) : Entries String Level :=
  n.tree.children.map fun (schema, node) => (schema, node.entities)

@[simp] theorem defaultSchema_bind (n : Namespace) (e : Entity) :
    (n.bind e).defaultSchema = n.defaultSchema := rfl

@[simp] theorem registry_bind (n : Namespace) (e : Entity) :
    (n.bind e).registry = n.registry.insert e.key e := rfl

theorem get?_bind (n : Namespace) (e : Entity) (name : String) :
    (n.bind e).get? name =
      if e.schema = n.defaultSchema ∧ e.name = name then some e else n.get? name := by
  unfold bind get?
  split
  · simp_all [Node.get?, Node.put, Entries.get?_insert]
  · simp_all [Node.get?, Node.putBelow]

theorem node?_bind (n : Namespace) (e : Entity) (schema : String) :
    (n.bind e).node? schema =
      if e.schema ≠ n.defaultSchema ∧ e.schema = schema then
        some (((n.node? schema).getD .empty).put e)
      else n.node? schema := by
  unfold bind node?
  split
  · simp_all [Node.child?, Node.put]
  · by_cases h : e.schema = schema
    · subst h
      simp_all [Node.child?, Node.putBelow]
    · simp_all [Node.child?, Node.putBelow, Entries.get?_insert]

theorem lookup?_bind (n : Namespace) (e : Entity) (schema name : String) :
    (n.bind e).lookup? schema name =
      if e.schema = schema ∧ e.name = name then some e else n.lookup? schema name := by
  simp [lookup?, Entries.get?_insert, Entity.key]

end Namespace

end DocStore
