import DocStore.Document
import DocStore.Proofs.Json.Place
import DocStore.Proofs.Patch.Object
import DocStore.Proofs.Patch.Parents
import DocStore.Proofs.Path.Parts
import DocStore.Proofs.Text.Integer

/-!
# Walks along the keys of a path

`Leads` is a walk along keys: through members of objects, through items
of arrays whose index is in range, and from some point on through
nothing, where a member is missing. The walk ends at one position,
although an index can be written in many ways.

A document is read along the same keys, but an index is a position
there, counted from the front.

Main statements: what an update puts at the end of a walk is found there
(`Leads.at?_update`), and is found in the document too
(`Document.pointer?_update`).
-/

namespace DocStore

namespace Jsonb

open Json (Step)

/-- The keys lead to the position, from a value or from nothing. -/
inductive Leads : List String → Option Json → List Step → Prop where
  | here {old : Option Json} : Leads [] old []
  | member {key : String} {keys : List String} {members : Json.Members} {steps : List Step} :
      Leads keys (Entries.get? key members) steps →
      Leads (key :: keys) (some (.obj members)) (.member key :: steps)
  | missing {key : String} {keys : List String} {steps : List Step} :
      Leads keys none steps → Leads (key :: keys) none (.member key :: steps)
  | item {key : String} {keys : List String} {items : List Json} {i : Int} {p : Nat}
      {steps : List Step} : index? key = some i → position? i items.length = some p →
      Leads keys items[p]? steps → Leads (key :: keys) (some (.arr items)) (.item p :: steps)

/-- No index of an array is written with a minus sign. -/
def FromFront (keys : List String) (steps : List Step) : Prop :=
  ∀ key p, (key, Step.item p) ∈ keys.zip steps → key.toList.head? ≠ some '-'

namespace Leads

open Json

variable {key : String} {keys : List String} {old : Option Json} {step : Step}
  {steps : List Step}

/-- One step along a walk: the walk goes on there, and what is put there is
found there. -/
theorem of_cons (h : Leads keys old (step :: steps)) :
    (∃ rest, Leads rest (old.bind (child? step)) steps) ∧
      ∀ new, (put new step old).child? step = some new := by
  cases h with
  | member h => exact ⟨⟨_, h⟩, fun new => Entries.get?_insert_self ..⟩
  | missing h => exact ⟨⟨_, h⟩, fun new => by simp [put, child?, Entries.get?]⟩
  | item hi hp h =>
    exact ⟨⟨_, h⟩, fun new => List.getElem?_set_self (position?_lt hp)⟩

/-- The first key leads to the first step, whatever follows. -/
theorem first (h : Leads (key :: keys) old (step :: steps)) : Leads [key] old [step] := by
  cases h with
  | member _ => exact .member .here
  | missing _ => exact .missing .here
  | item hi hp _ => exact .item hi hp .here

/-- Keys lead to one position only. -/
theorem unique {steps' : List Step} (h : Leads keys old steps) (h' : Leads keys old steps') :
    steps = steps' := by
  induction h generalizing steps' with
  | here =>
    cases h'
    rfl
  | member _ inside =>
    cases h' with
    | member h' => rw [inside h']
  | missing _ inside =>
    cases h' with
    | missing h' => rw [inside h']
  | item hi hp _ inside =>
    cases h' with
    | item hi' hp' h' =>
      cases hi.symm.trans hi'
      cases hp.symm.trans hp'
      rw [inside h']

theorem eq_nil (h : Leads keys old []) : keys = [] := by
  cases h
  rfl

theorem exists_cons (h : Leads keys old (step :: steps)) : ∃ key rest, keys = key :: rest := by
  cases h <;> exact ⟨_, _, rfl⟩

theorem rest (h : Leads (key :: keys) old (step :: steps)) :
    Leads keys (old.bind (child? step)) steps := by
  cases h with
  | member h => exact h
  | missing h => exact h
  | item _ _ h => exact h

theorem at?_update {f : Option Json → Json} (h : Leads keys old steps) :
    (update f steps old).at? steps = some (f (old.bind (at? steps))) := by
  induction steps generalizing keys old with
  | nil =>
    cases h
    cases old <;> rfl
  | cons step steps inside =>
    obtain ⟨⟨rest, hrest⟩, hput⟩ := h.of_cons
    rw [update, at?, hput, Option.bind_some, inside hrest]
    cases old <;> rfl

/-- What is made on the way is an object with the next key only. -/
theorem at?_update_of_missing {f : Option Json → Json} {parent rest : List Step}
    (h : Leads keys old (parent ++ .member key :: rest)) (hnone : old.bind (at? parent) = none) :
    (update f (parent ++ .member key :: rest) old).at? parent =
      some (.obj [(key, update f rest none)]) := by
  induction parent generalizing keys old with
  | nil =>
    cases old with
    | none => rfl
    | some j => cases hnone
  | cons step parent inside =>
    obtain ⟨⟨others, hothers⟩, hput⟩ := h.of_cons
    have hbeyond : (old.bind (child? step)).bind (at? parent) = none := by
      rw [← hnone]
      cases old <;> rfl
    rw [List.cons_append, update, at?, hput, Option.bind_some, inside hothers hbeyond]

/-! ## The walk after an update -/

/-- The keys still lead to the position once something is put there. -/
theorem leads_update (f : Option Json → Json) (h : Leads keys old steps) :
    Leads keys (some (update f steps old)) steps := by
  induction h with
  | here => exact .here
  | @member key keys members steps h inside =>
    refine .member ?_
    rw [Entries.get?_insert_self]
    exact inside
  | @missing key keys steps h inside =>
    have hmember : Entries.get? key [(key, update f steps none)] = some (update f steps none) := by
      rw [Entries.get?, if_pos rfl]
    rw [← hmember] at inside
    exact .member inside
  | @item key keys items i p steps hi hp h inside =>
    refine .item hi (by rwa [List.length_set]) ?_
    rw [List.getElem?_set_self (position?_lt hp)]
    exact inside

/-- Two updates of one position are one, which does both in turn. -/
theorem update_update {f g : Option Json → Json} (h : Leads keys old steps) :
    update g steps (some (update f steps old)) = update (fun j => g (some (f j))) steps old := by
  induction steps generalizing keys old with
  | nil => rfl
  | cons step steps inside =>
    obtain ⟨⟨rest, hrest⟩, hput⟩ := h.of_cons
    have hchild : (update f (step :: steps) old).child? step =
        some (update f steps (old.bind (child? step))) := hput _
    rw [update, Option.bind_some, hchild, inside hrest]
    exact put_put ..

/-- A walk that goes on where another one ends. -/
theorem append {more : List String} {others : List Step} (h : Leads keys old steps)
    (hmore : Leads more (old.bind (at? steps)) others) :
    Leads (keys ++ more) old (steps ++ others) := by
  induction h with
  | @here old =>
    cases old with
    | none => exact hmore
    | some j => exact hmore
  | member _ inside => exact .member (inside hmore)
  | missing _ inside => exact .missing (inside hmore)
  | item hi hp _ inside => exact .item hi hp (inside hmore)

/-- From an object, or where nothing is, a walk goes on to any member. -/
theorem append_member (h : Leads keys old steps) (key : String)
    (hobject : old.bind (at? steps) = none ∨
      ∃ members, old.bind (at? steps) = some (.obj members)) :
    Leads (keys ++ [key]) old (steps ++ [.member key]) := by
  apply h.append
  rcases hobject with hnone | ⟨members, hmembers⟩
  · rw [hnone]
    exact .missing .here
  · rw [hmembers]
    exact .member .here

/-! ## Values that are read -/

/-- What is read along keys stands where they lead. -/
theorem exists_of_get? {keys : List String} {j target : Json} (h : get? keys j = some target) :
    ∃ steps, Leads keys (some j) steps ∧ j.at? steps = some target := by
  induction keys generalizing j with
  | nil => exact ⟨[], .here, h⟩
  | cons key keys inside =>
    cases j with
    | obj members =>
      obtain ⟨child, hchild, hrest⟩ := Option.bind_eq_some_iff.mp h
      obtain ⟨steps, hleads, hat⟩ := inside hrest
      refine ⟨.member key :: steps, .member (by rwa [hchild]), ?_⟩
      rw [at?, child?, hchild]
      exact hat
    | arr items =>
      obtain ⟨p, hposition, hitem⟩ := Option.bind_eq_some_iff.mp h
      obtain ⟨i, hi, hp⟩ := Option.bind_eq_some_iff.mp hposition
      obtain ⟨child, hchild, hrest⟩ := Option.bind_eq_some_iff.mp hitem
      obtain ⟨steps, hleads, hat⟩ := inside hrest
      refine ⟨.item p :: steps, .item hi hp (by rwa [hchild]), ?_⟩
      rw [at?, child?, hchild]
      exact hat
    | _ => cases h

/-! ## Reading along the keys -/

/-- A document is read along the keys if they count from the front. -/
theorem foldlM_child?_update {f : Option Json → Json} (h : Leads keys old steps)
    (hfront : FromFront keys steps) :
    keys.foldlM Document.child? (update f steps old) = some (f (old.bind (at? steps))) := by
  induction h with
  | @here old => cases old <;> rfl
  | @member key keys members steps h inside =>
    have hread : Document.child? (update f (.member key :: steps) (some (.obj members))) key =
        some (update f steps (Entries.get? key members)) := Entries.get?_insert_self ..
    have hfront' : FromFront keys steps := fun key p hmem =>
      hfront key p (List.mem_cons_of_mem _ hmem)
    rw [List.foldlM_cons, hread]
    exact inside hfront'
  | @missing key keys steps h inside =>
    have hread : Document.child? (update f (.member key :: steps) none) key =
        some (update f steps none) := by simp [Document.child?, update, put, Entries.get?]
    have hfront' : FromFront keys steps := fun key p hmem =>
      hfront key p (List.mem_cons_of_mem _ hmem)
    rw [List.foldlM_cons, hread]
    exact inside hfront'
  | @item key keys items i p steps hi hp h inside =>
    obtain ⟨hle, hsize⟩ := Chars.size?_of_int64? hi (hfront key p List.mem_cons_self)
    have hi' : i.toNat = p := by
      rw [position?_eq_some] at hp
      omega
    have hread : Document.child? (update f (.item p :: steps) (some (.arr items))) key =
        some (update f steps items[p]?) := by
      show (Chars.size? key.toList).bind (fun i => (items.set p _)[i]?) = _
      rw [hsize, hi', Option.bind_some]
      exact List.getElem?_set_self (position?_lt hp)
    have hfront' : FromFront keys steps := fun key p hmem =>
      hfront key p (List.mem_cons_of_mem _ hmem)
    rw [List.foldlM_cons, hread]
    exact inside hfront'

end Leads

end Jsonb

/-! ## Documents -/

namespace Document

open Json Jsonb

/-- The value that was put into a body is at the same path of the document
read from its row, unless the path begins at the id. -/
theorem pointer?_update {keys : List String} {steps : List Step} {body : Json}
    {f : Option Json → Json}
    (hbody : body.IsObject) (hne : keys ≠ []) (hdots : ∀ key ∈ keys, '.' ∉ key.toList)
    (hleads : Leads keys (some body) steps) (hfront : FromFront keys steps)
    (hid : keys.head? ≠ some idColumn) {result : QueryResult} {row : List Cell} {id cell : Cell}
    (hidCell : result.cell? row idColumn = some id)
    (hbodyCell : result.cell? row bodyColumn = some cell)
    (hvalue : bodyValue cell = .ok (update f steps (some body))) :
    ∃ doc, ofRow result row = .ok doc ∧
      doc.pointer? (DocPath.joined keys) = some (f (body.at? steps)) := by
  obtain ⟨members, rfl⟩ := hbody
  obtain ⟨key, keys, rfl⟩ := List.exists_cons_of_ne_nil hne
  cases hleads with
  | @member _ _ _ steps h =>
    have hread := (Leads.member h).foldlM_child?_update (f := f) hfront
    have hkey : idColumn ≠ key := fun heq => hid (by rw [heq, List.head?_cons])
    have hmembers : bodyMembers cell =
        .ok (Entries.insert key (update f steps (Entries.get? key members)) members) := by
      rw [bodyMembers, hvalue]
      rfl
    refine ⟨⟨Entries.insert idColumn id.toJson
      (Entries.insert key (update f steps (Entries.get? key members)) members)⟩, ?_, ?_⟩
    · have hidColumn : column result row idColumn = .ok id := by rw [column, hidCell]
      have hbodyColumn : column result row bodyColumn = .ok cell := by rw [column, hbodyCell]
      rw [ofRow, hidColumn, hbodyColumn]
      show (bodyMembers cell >>= _) = _
      rw [hmembers]
      rfl
    · rw [pointer?, DocPath.splitOn_joined (by simp) hdots, ← Option.bind_some (f := at? _),
        ← hread, List.foldlM_cons, List.foldlM_cons]
      congr 1
      exact Entries.get?_insert_of_ne hkey

end Document

end DocStore
