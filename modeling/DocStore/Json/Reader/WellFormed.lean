import DocStore.Json.Reader

/-!
# What is read is well-formed

The reader inserts members in key order, so the values it holds are
well-formed at every step. The invariant `Machine.Good` says so of the
stack and of the value just completed; the tokens bring only scalars.

Main statement: `wellFormed_of_read?`.
-/

namespace DocStore.Json

/-! ## Tokens -/

/-- A token that carries no value, or a well-formed one. -/
def Token.Good : Token → Prop
  | .scalar j => j.WellFormed
  | _ => True

theorem Token.good_of_ofWord? {word : List Char} {t : Token} (h : ofWord? word = some t) :
    t.Good := by
  unfold ofWord? at h
  split at h
  · obtain rfl := Option.some.inj h
    simp [Good, WellFormed]
  · split at h
    · obtain rfl := Option.some.inj h
      simp [Good, WellFormed]
    · split at h
      · obtain rfl := Option.some.inj h
        simp [Good, WellFormed]
      · obtain ⟨n, _, rfl⟩ := Option.map_eq_some_iff.mp h
        simp [Good, WellFormed]

theorem Token.good_of_start {c : Char} {mode : Mode} {tokens : List Token}
    (h : start c = some (mode, tokens)) : ∀ t ∈ tokens, t.Good := by
  unfold start at h
  repeat' split at h
  all_goals simp_all [Good]
  all_goals simp_all [← h.2]

theorem Token.good_of_step {mode mode₁ : Mode} {c : Char} {tokens : List Token}
    (h : step mode c = some (mode₁, tokens)) : ∀ t ∈ tokens, t.Good := by
  unfold step at h
  split at h
  · exact good_of_start h
  · split at h
    · simp_all
    · simp only [Option.bind_eq_bind, Option.bind_eq_some_iff, Prod.exists, Option.some.injEq,
        Prod.mk.injEq] at h
      obtain ⟨t, ht, m, ts, hs, rfl, rfl⟩ := h
      exact List.forall_mem_cons.mpr ⟨good_of_ofWord? ht, good_of_start hs⟩
  · repeat' split at h
    all_goals simp_all
    all_goals simp_all [← h.2, Good]
  · split at h
    · simp_all
    · obtain ⟨_, _, h⟩ := Option.map_eq_some_iff.mp h
      simp_all
  · simp only [Option.bind_eq_bind, Option.bind_eq_some_iff] at h
    obtain ⟨_, _, h⟩ := h
    split at h
    · obtain ⟨_, _, h⟩ := Option.map_eq_some_iff.mp h
      simp_all
    · simp_all
  · split at h <;> simp_all
  · split at h <;> simp_all

theorem Token.good_of_scan {mode : Mode} {s : List Char} {tokens : List Token}
    (h : scan mode s = some tokens) : ∀ t ∈ tokens, t.Good := by
  induction s generalizing mode tokens with
  | nil =>
    unfold scan at h
    split at h
    · simp_all
    · obtain ⟨t, ht, rfl⟩ := Option.map_eq_some_iff.mp h
      simpa using good_of_ofWord? ht
    · simp_all
    · simp_all
  | cons c s ih =>
    simp only [scan, Option.bind_eq_bind, Option.bind_eq_some_iff, Prod.exists,
      Option.some.injEq] at h
    obtain ⟨_, _, hstep, _, hrest, rfl⟩ := h
    exact List.forall_mem_append.mpr ⟨good_of_step hstep, ih hrest⟩

/-! ## The machine -/

def Frame.Good : Frame → Prop
  | .items done => ∀ j ∈ done, j.WellFormed
  | .member done _ => done.Sorted ∧ ∀ e ∈ done, e.2.WellFormed

def Place.Good : Place → Prop
  | .key done => done.Sorted ∧ ∀ e ∈ done, e.2.WellFormed
  | .colon done _ => done.Sorted ∧ ∀ e ∈ done, e.2.WellFormed
  | .after j => j.WellFormed
  | _ => True

/-- Every value that the machine holds is well-formed. -/
def Machine.Good (m : Machine) : Prop := (∀ f ∈ m.1, f.Good) ∧ m.2.Good

theorem forall_mem_insert {p : Json → Prop} {done : Members} {key : String} {j : Json}
    (hj : p j) (h : ∀ e ∈ done, p e.2) : ∀ e ∈ done.insert key j, p e.2 := by
  induction done with
  | nil => simpa [Entries.insert] using hj
  | cons e done ih =>
    rw [List.forall_mem_cons] at h
    unfold Entries.insert
    split
    · exact List.forall_mem_cons.mpr ⟨hj, h.2⟩
    · split
      · exact List.forall_mem_cons.mpr ⟨hj, List.forall_mem_cons.mpr h⟩
      · exact List.forall_mem_cons.mpr ⟨h.1, ih h.2⟩

theorem good_of_startValue {stack : List Frame} {t : Token} {m : Machine} (ht : t.Good)
    (hs : ∀ f ∈ stack, f.Good) (h : startValue stack t = some m) : m.Good := by
  unfold startValue at h
  split at h
  · obtain rfl := Option.some.inj h
    exact ⟨hs, ht⟩
  · obtain rfl := Option.some.inj h
    exact ⟨hs, by simp [Place.Good, WellFormed]⟩
  · split at h
    · obtain rfl := Option.some.inj h
      exact ⟨List.forall_mem_cons.mpr ⟨by simp [Frame.Good], hs⟩, trivial⟩
    · simp at h
  · split at h
    · obtain rfl := Option.some.inj h
      exact ⟨hs, trivial⟩
    · simp at h
  · simp at h

theorem good_of_afterValue {j : Json} {stack : List Frame} {t : Token} {m : Machine}
    (hj : j.WellFormed) (hs : ∀ f ∈ stack, f.Good) (h : afterValue j stack t = some m) :
    m.Good := by
  unfold afterValue at h
  split at h
  · obtain rfl := Option.some.inj h
    rw [List.forall_mem_cons] at hs
    exact ⟨List.forall_mem_cons.mpr ⟨List.forall_mem_cons.mpr ⟨hj, hs.1⟩, hs.2⟩, trivial⟩
  · obtain rfl := Option.some.inj h
    rw [List.forall_mem_cons] at hs
    refine ⟨hs.2, wellFormed_arr.mpr fun i hi => ?_⟩
    rcases List.mem_cons.mp (List.mem_reverse.mp hi) with rfl | hi
    · exact hj
    · exact hs.1 i hi
  · obtain rfl := Option.some.inj h
    rw [List.forall_mem_cons] at hs
    exact ⟨hs.2, hs.1.1.insert _ _, forall_mem_insert hj hs.1.2⟩
  · obtain rfl := Option.some.inj h
    rw [List.forall_mem_cons] at hs
    exact ⟨hs.2, wellFormed_obj.mpr ⟨hs.1.1.insert _ _, forall_mem_insert hj hs.1.2⟩⟩
  · simp at h

theorem good_of_advance {m m₁ : Machine} {t : Token} (ht : t.Good) (hm : m.Good)
    (h : advance m t = some m₁) : m₁.Good := by
  unfold advance at h
  split at h
  · exact good_of_startValue ht hm.1 h
  · obtain rfl := Option.some.inj h
    exact ⟨(List.forall_mem_cons.mp hm.1).2, by simp [Place.Good, WellFormed, AllItems]⟩
  · exact good_of_startValue ht hm.1 h
  · obtain rfl := Option.some.inj h
    exact ⟨hm.1, by simp [Place.Good, WellFormed, AllMembers, Entries.Sorted]⟩
  · obtain rfl := Option.some.inj h
    exact ⟨hm.1, by simp [Place.Good, Entries.Sorted]⟩
  · obtain rfl := Option.some.inj h
    exact hm
  · obtain rfl := Option.some.inj h
    exact ⟨List.forall_mem_cons.mpr ⟨hm.2, hm.1⟩, trivial⟩
  · exact good_of_afterValue hm.2 hm.1 h
  · simp at h

theorem wellFormed_of_build {m : Machine} {tokens : List Token} {j : Json} (hm : m.Good)
    (ht : ∀ t ∈ tokens, t.Good) (h : build m tokens = some j) : j.WellFormed := by
  induction tokens generalizing m with
  | nil =>
    unfold build at h
    split at h
    · obtain rfl := Option.some.inj h
      exact hm.2
    · simp at h
    · simp_all
  | cons t rest ih =>
    rw [List.forall_mem_cons] at ht
    simp only [build, Option.bind_eq_some_iff] at h
    obtain ⟨m₁, hadvance, h⟩ := h
    exact ih (good_of_advance ht.1 hm hadvance) ht.2 h

/-- Every value that is read from text is well-formed. -/
theorem wellFormed_of_read? {s : String} {j : Json} (h : read? s = some j) : j.WellFormed := by
  simp only [read?, ofChars?, Option.bind_eq_some_iff] at h
  obtain ⟨tokens, hscan, h⟩ := h
  exact wellFormed_of_build (m := ([], .value)) ⟨by simp, trivial⟩ (Token.good_of_scan hscan) h

end DocStore.Json
