import DocStore.Proofs.Except
import DocStore.Proofs.Patch.Assignment

/-!
# Which updates are patches

An update is read in two steps: the patch is taken out of it, and then
the statement is made from its path. Both steps can refuse, and the path
is looked at in one or the other, depending on how it was given. What is
said of the result here is a grammar: an update with a single member that
names the kind, a path, and for the kinds that write a value (`Written`).

Every other update with a patch key is refused, and the refusal says
which rule of the grammar it breaks (`Misread`). So no update that has a
key for patches is taken for a new body.

Main statement: `update_reads_written`.
-/

namespace DocStore.Patch

/-! ## The grammar -/

/-- `Written update p`: the update is the patch, in writing. The path of a
removal may stand alone, or be the key of an object like other paths. -/
inductive Written : Json.Members → Patch → Prop
  | write (how : PatchWrite) {path : String} (value : Json) : "" ∉ DocPath.parts path →
      Written [(how.key, .obj [(path, value)])] (.write how path value)
  | remove {path : String} : "" ∉ DocPath.parts path →
      Written [(removeKey, .str path)] (.remove path)
  | removeMember {path : String} (value : Json) : "" ∉ DocPath.parts path →
      Written [(removeKey, .obj [(path, value)])] (.remove path)

/-- The keys of the four kinds. -/
def kinds : List String :=
  [PatchWrite.set.key, PatchWrite.insert.key, PatchWrite.push.key, removeKey]

/-- The argument of a patch names a path. -/
def Names (path : String) (argument : Json) : Prop :=
  argument = .str path ∨ ∃ value, argument = .obj [(path, value)]

/-- Why an update with a key for patches is none of them. -/
inductive Misread : Json.Members → Refusal → Prop
  | several {update : Json.Members} {keys : List String} :
      (update.filter (isPatchKey ·.1)).map Prod.fst = keys → 2 ≤ keys.length →
      Misread update (.severalPatches keys)
  | withFields {update : Json.Members} {key : String} {argument : Json} :
      update.filter (isPatchKey ·.1) = [(key, argument)] → 2 ≤ update.length →
      Misread update (.patchWithFields key)
  | unknown {key : String} {argument : Json} : isPatchKey key = true → key ∉ kinds →
      Misread [(key, argument)] (.unknownPatch key)
  | notOnePath {key : String} {argument : Json} : key ∈ kinds →
      (∀ path value, argument ≠ .obj [(path, value)]) →
      Misread [(key, argument)] (.notOnePath key argument)
  | notARemovePath {argument : Json} : (∀ path, argument ≠ .str path) →
      (∀ members, argument ≠ .obj members) →
      Misread [(removeKey, argument)] (.notARemovePath argument)
  | badPath {key path : String} {argument : Json} : key ∈ kinds → Names path argument →
      "" ∈ DocPath.parts path → Misread [(key, argument)] (.badPath path)

/-! ## Arguments -/

section Arguments

variable {key path : String} {value argument : Json} {r : Refusal} {p : Patch}

theorem onlyMember_obj (h : "" ∉ DocPath.parts path) :
    onlyMember key (.obj [(path, value)]) = .ok (path, value) := by
  rw [onlyMember, DocPath.segments_eq_ok_iff.mpr ⟨h, rfl⟩]
  rfl

theorem onlyMember_eq_ok (h : onlyMember key argument = .ok (path, value)) :
    argument = .obj [(path, value)] ∧ "" ∉ DocPath.parts path := by
  unfold onlyMember at h
  split at h
  · obtain ⟨segments, hsegments, h⟩ := bind_eq_ok h
    cases h
    exact ⟨rfl, (DocPath.segments_eq_ok_iff.mp hsegments).1⟩
  · cases h

theorem misread_onlyMember (hkey : key ∈ kinds) (h : onlyMember key argument = .error r) :
    Misread [(key, argument)] r := by
  unfold onlyMember at h
  split at h
  · rcases bind_eq_error h with h | ⟨segments, -, h⟩
    · obtain ⟨hblank, rfl⟩ := DocPath.segments_eq_error_iff.mp h
      exact .badPath hkey (.inr ⟨_, rfl⟩) hblank
    · cases h
  · next hone =>
    cases h
    exact .notOnePath hkey hone

theorem misread_ofWrite {how : PatchWrite} (h : ofWrite how argument = .error r) :
    Misread [(how.key, argument)] r := by
  have hkey : how.key ∈ kinds := by cases how <;> simp [kinds]
  rcases bind_eq_error h with h | ⟨⟨path, value⟩, -, h⟩
  · exact misread_onlyMember hkey h
  · cases h

theorem written_of_ofWrite {how : PatchWrite} (h : ofWrite how argument = .ok p) :
    Written [(how.key, argument)] p := by
  obtain ⟨⟨path, value⟩, honly, h⟩ := bind_eq_ok h
  cases h
  obtain ⟨rfl, hpath⟩ := onlyMember_eq_ok honly
  exact .write how value hpath

theorem misread_ofRemove (h : ofRemove argument = .error r) :
    Misread [(removeKey, argument)] r := by
  unfold ofRemove at h
  split at h
  · cases h
  · rcases bind_eq_error h with h | ⟨⟨path, value⟩, -, h⟩
    · exact misread_onlyMember (by simp [kinds]) h
    · cases h
  · next hstr hobj =>
    cases h
    exact .notARemovePath hstr hobj

/-- A path that stands alone is not looked at yet. -/
theorem names_of_ofRemove (h : ofRemove argument = .ok p) :
    ∃ path, p = .remove path ∧ Names path argument := by
  unfold ofRemove at h
  split at h
  · cases h
    exact ⟨_, rfl, .inl rfl⟩
  · obtain ⟨⟨path, value⟩, honly, h⟩ := bind_eq_ok h
    cases h
    exact ⟨path, rfl, .inr ⟨value, (onlyMember_eq_ok honly).1⟩⟩
  · cases h

end Arguments

/-! ## Members -/

section Members

variable {key : String} {argument : Json} {r : Refusal} {p : Patch}

theorem eq_key_of_mem_kinds (h : key ∈ kinds) :
    (∃ how : PatchWrite, key = how.key) ∨ key = removeKey := by
  simp only [kinds, List.mem_cons, List.not_mem_nil, or_false] at h
  rcases h with rfl | rfl | rfl | rfl
  · exact .inl ⟨_, rfl⟩
  · exact .inl ⟨_, rfl⟩
  · exact .inl ⟨_, rfl⟩
  · exact .inr rfl

theorem ofMember_key (how : PatchWrite) : ofMember how.key argument = ofWrite how argument := by
  cases how <;> simp [ofMember, PatchWrite.key]

theorem ofMember_removeKey : ofMember removeKey argument = ofRemove argument := by
  simp [ofMember, PatchWrite.key, removeKey]

theorem ofMember_unknown (h : key ∉ kinds) :
    ofMember key argument = .error (.unknownPatch key) := by
  simp only [kinds, List.mem_cons, List.not_mem_nil, or_false, not_or] at h
  obtain ⟨hset, hinsert, hpush, hremove⟩ := h
  rw [ofMember, if_neg hset, if_neg hinsert, if_neg hpush, if_neg hremove]

theorem misread_ofMember (hkey : isPatchKey key = true) (h : ofMember key argument = .error r) :
    Misread [(key, argument)] r := by
  by_cases hkind : key ∈ kinds
  · obtain ⟨how, rfl⟩ | rfl := eq_key_of_mem_kinds hkind
    · rw [ofMember_key] at h
      exact misread_ofWrite h
    · rw [ofMember_removeKey] at h
      exact misread_ofRemove h
  · rw [ofMember_unknown hkind] at h
    cases h
    exact .unknown hkey hkind

/-- What was taken out is the patch in writing, or names a path that is none. -/
theorem written_or_blank (h : ofMember key argument = .ok p) :
    Written [(key, argument)] p ∨
      key ∈ kinds ∧ Names p.path argument ∧ "" ∈ DocPath.parts p.path := by
  by_cases hkind : key ∈ kinds
  · obtain ⟨how, rfl⟩ | rfl := eq_key_of_mem_kinds hkind
    · rw [ofMember_key] at h
      exact .inl (written_of_ofWrite h)
    · rw [ofMember_removeKey] at h
      obtain ⟨path, rfl, hnames⟩ := names_of_ofRemove h
      by_cases hblank : "" ∈ DocPath.parts path
      · exact .inr ⟨hkind, hnames, hblank⟩
      · obtain rfl | ⟨value, rfl⟩ := hnames
        · exact .inl (.remove hblank)
        · exact .inl (.removeMember value hblank)
  · rw [ofMember_unknown hkind] at h
    cases h

theorem ofMember_of_written {update : Json.Members} (h : Written update p) :
    ∃ key argument, update = [(key, argument)] ∧ isPatchKey key = true ∧
      ofMember key argument = .ok p ∧ "" ∉ DocPath.parts p.path := by
  cases h with
  | write how value hpath =>
    refine ⟨_, _, rfl, by cases how <;> rfl, ?_, hpath⟩
    rw [ofMember_key, ofWrite, onlyMember_obj hpath]
    rfl
  | remove hpath => exact ⟨_, _, rfl, rfl, ofMember_removeKey, hpath⟩
  | removeMember value hpath =>
    refine ⟨_, _, rfl, rfl, ?_, hpath⟩
    rw [ofMember_removeKey, ofRemove, onlyMember_obj hpath]
    rfl

theorem statement_eq_error (h : "" ∈ DocPath.parts p.path) {table : Sql} {primaryKey : String}
    {id : Cell} : p.statement table primaryKey id = .error (.badPath p.path) := by
  rw [statement, DocPath.segments_eq_error_iff.mpr ⟨h, rfl⟩]
  rfl

end Members

/-! ## Updates -/

section Updates

variable {update : Json.Members} {key : String} {argument : Json}

theorem ofUpdate_singleton (h : isPatchKey key = true) :
    ofUpdate [(key, argument)] = (ofMember key argument).map some := by
  simp [ofUpdate, h]

theorem ofUpdate_eq_none_iff :
    ofUpdate update = .ok none ↔ ∀ member ∈ update, isPatchKey member.1 = false := by
  have hnil : update.filter (isPatchKey ·.1) = [] ↔
      ∀ member ∈ update, isPatchKey member.1 = false := by
    simp [List.filter_eq_nil_iff]
  rw [← hnil]
  unfold ofUpdate
  split
  · next h => exact iff_of_true rfl h
  · next h =>
    rw [h]
    refine iff_of_false ?_ (List.cons_ne_nil _ _)
    split
    · nofun
    · cases ofMember _ _ <;> nofun
  · next hnil _ => exact iff_of_false nofun hnil

/-- A key for patches is the only member, or the update is refused. -/
theorem singleton_or_misread (h : ∃ member ∈ update, isPatchKey member.1 = true) :
    (∃ key argument, update = [(key, argument)] ∧ isPatchKey key = true) ∨
      ∃ r, ofUpdate update = .error r ∧ Misread update r := by
  obtain ⟨member, hmember, hkey⟩ := h
  have hmem : member ∈ update.filter (isPatchKey ·.1) := List.mem_filter.mpr ⟨hmember, hkey⟩
  unfold ofUpdate
  split
  · next hnil =>
    rw [hnil] at hmem
    cases hmem
  · next key argument hone =>
    split
    · next hlength => exact .inr ⟨_, rfl, .withFields hone hlength⟩
    · next hlength =>
      rw [hone, List.mem_singleton] at hmem
      subst hmem
      have hpos := List.length_pos_of_mem hmember
      obtain ⟨only, rfl⟩ := List.length_eq_one_iff.mp (by omega : update.length = 1)
      rw [List.mem_singleton] at hmember
      subst hmember
      exact .inl ⟨key, argument, rfl, hkey⟩
  · next hnil hmany =>
    refine .inr ⟨_, rfl, .several rfl ?_⟩
    rw [List.length_map]
    cases hpatches : update.filter (isPatchKey ·.1) with
    | nil => exact absurd hpatches hnil
    | cons first rest =>
      cases rest with
      | nil => exact absurd hpatches (hmany first.1 first.2)
      | cons second rest => simp

theorem singleton_of_ofUpdate {p : Patch} (h : ofUpdate update = .ok (some p)) :
    ∃ key argument, update = [(key, argument)] ∧ ofMember key argument = .ok p := by
  have hpatch : ∃ member ∈ update, isPatchKey member.1 = true := by
    by_contra hnone
    have hfree : ofUpdate update = .ok none := ofUpdate_eq_none_iff.mpr (by simpa using hnone)
    rw [hfree] at h
    cases h
  obtain ⟨key, argument, rfl, hkey⟩ | ⟨r, hr, -⟩ := singleton_or_misread hpatch
  · rw [ofUpdate_singleton hkey] at h
    obtain ⟨p', hp', hsome⟩ := map_eq_ok h
    cases hsome
    exact ⟨key, argument, rfl, hp'⟩
  · rw [hr] at h
    cases h

end Updates

/-- An update without a key for patches has no patch in it. Of the others, those
that are a patch in writing are taken for that patch, and have its statement;
all the rest are refused, when the patch is taken out or for its path. -/
theorem update_reads_written (update : Json.Members) (table : Sql) (primaryKey : String)
    (id : Cell) :
    (ofUpdate update = .ok none ↔ ∀ member ∈ update, isPatchKey member.1 = false) ∧
    (∀ p, (ofUpdate update = .ok (some p) ∧ ∃ sent, p.statement table primaryKey id = .ok sent) ↔
      Written update p) ∧
    ((∃ member ∈ update, isPatchKey member.1 = true) → (∀ p, ¬ Written update p) →
      ∃ r, (ofUpdate update = .error r ∨
        ∃ p, ofUpdate update = .ok (some p) ∧ p.statement table primaryKey id = .error r) ∧
      Misread update r ∧ (DbError.invalid r).kind = .invalidArgument) := by
  refine ⟨ofUpdate_eq_none_iff, fun p => ⟨?_, ?_⟩, fun hpatch hother => ?_⟩
  · rintro ⟨hp, sent, hsent⟩
    obtain ⟨key, argument, rfl, hmember⟩ := singleton_of_ofUpdate hp
    obtain hwritten | ⟨-, -, hblank⟩ := written_or_blank hmember
    · exact hwritten
    · rw [statement_eq_error hblank] at hsent
      cases hsent
  · intro hwritten
    obtain ⟨key, argument, rfl, hkey, hp, hpath⟩ := ofMember_of_written hwritten
    rw [ofUpdate_singleton hkey, hp]
    exact ⟨rfl, _, statement_eq hpath table primaryKey id⟩
  · obtain ⟨key, argument, rfl, hkey⟩ | ⟨r, hr, hmisread⟩ := singleton_or_misread hpatch
    · rw [ofUpdate_singleton hkey]
      cases hp : ofMember key argument with
      | error r => exact ⟨r, .inl rfl, misread_ofMember hkey hp, rfl⟩
      | ok p =>
        obtain hwritten | ⟨hkind, hnames, hblank⟩ := written_or_blank hp
        · exact absurd hwritten (hother p)
        · exact ⟨_, .inr ⟨p, rfl, statement_eq_error hblank⟩, .badPath hkind hnames hblank, rfl⟩
    · exact ⟨r, .inl hr, hmisread, rfl⟩

/-- A path that stands alone is refused for its blank part by the statement. -/
theorem update_reads_written_blank_part :
    (∀ p, ¬ Written [("$remove", .str "a. ")] p) ∧
      ofUpdate [("$remove", .str "a. ")] = .ok (some (.remove "a. ")) ∧
      ∃ r, Misread [("$remove", .str "a. ")] r ∧
        (Patch.remove "a. ").statement [.name "notes"] "id" (.text "x") = .error r := by
  have hother : ∀ p, ¬ Written [("$remove", .str "a. ")] p := by
    intro p hwritten
    obtain ⟨key, argument, hupdate, -, hp, hpath⟩ := ofMember_of_written hwritten
    cases hupdate
    cases (show ofMember "$remove" (.str "a. ") = .ok (.remove "a. ") from rfl).symm.trans hp
    exact hpath (by decide)
  have hread : ofUpdate [("$remove", .str "a. ")] = .ok (some (.remove "a. ")) := rfl
  obtain ⟨r, hr | ⟨p, hp, hr⟩, hmisread, -⟩ :=
    (update_reads_written [("$remove", .str "a. ")] [.name "notes"] "id" (.text "x")).2.2
      ⟨_, List.mem_singleton_self _, rfl⟩ hother
  · rw [hread] at hr
    cases hr
  · rw [hread] at hp
    cases hp
    exact ⟨hother, hread, r, hmisread, hr⟩

end DocStore.Patch
