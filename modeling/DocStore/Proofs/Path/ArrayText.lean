import DocStore.Jsonb.Eval
import DocStore.Sql.Path

/-!
# Arrays of keys are read back

An array of keys is written with every key between double quotes, and a
backslash before each backslash and double quote inside. Reading the
text gives the keys, whatever characters they hold; an empty key is
among them, an empty list is not.

The same text is never JSON: the first key is read as the key of a
member, and no colon follows it.

Main statements: `keys?_arrayText`, `read?_arrayText`.
-/

namespace DocStore.Jsonb

open DocPath

theorem elements_escaped (taken : List Char) (quoted : Bool) (c : Char) (s : List Char) :
    elements taken quoted ('\\' :: c :: s) = elements (c :: taken) quoted s := by
  rw [elements]

theorem elements_plain {c : Char} (h : ¬(c = '\\' ∨ c = '"')) (taken s : List Char) :
    elements taken true (c :: s) = elements (c :: taken) true s := by
  rw [not_or] at h
  rw [elements]
  · simp
  · rintro d t hd -
    exact h.1 hd
  · exact fun hc _ => h.1 hc
  · exact h.2

/-- Up to the quote that closes a key. -/
theorem elements_key (key taken rest : List Char) :
    elements taken true
        (key.flatMap (fun c => if c = '\\' || c = '"' then ['\\', c] else [c]) ++ '"' :: rest) =
      elements (key.reverse ++ taken) false rest := by
  induction key generalizing taken with
  | nil => rw [List.flatMap_nil, List.nil_append, elements]; rfl
  | cons c key ih =>
    rw [List.flatMap_cons, List.append_assoc]
    by_cases hc : c = '\\' ∨ c = '"'
    · rw [if_pos (by simpa using hc), List.cons_append, List.cons_append, List.nil_append,
        elements_escaped, ih, List.reverse_cons, List.append_assoc]
      rfl
    · rw [if_neg (by simpa using hc), List.cons_append, List.nil_append, elements_plain hc, ih,
        List.reverse_cons, List.append_assoc]
      rfl

theorem elements_elementChars (key : String) (rest : List Char) :
    elements [] false (elementChars key ++ rest) = elements key.toList.reverse false rest := by
  rw [elementChars, List.cons_append, List.cons_append, List.append_assoc, elements]
  show elements [] true _ = _
  rw [List.cons_append, List.nil_append, elements_key, List.append_nil]

theorem elements_elementsChars : ∀ (key : String) (rest : List String),
    elements [] false (elementsChars (key :: rest)) = key :: rest
  | key, [] => by
    have := elements_elementChars key []
    rw [List.append_nil] at this
    rw [elementsChars, this, elements, List.reverse_reverse, String.ofList_toList]
  | key, next :: rest => by
    rw [elementsChars, elements_elementChars, elements]
    · simp only [Bool.not_false, Bool.and_true, decide_true, if_true]
      rw [elements_elementsChars next rest, List.reverse_reverse, String.ofList_toList]
    all_goals simp

theorem elementsChars_ne_nil (key : String) (rest : List String) :
    elementsChars (key :: rest) ≠ [] := by
  cases rest <;> simp [elementsChars, elementChars]

/-- An array of keys is read back from its text. -/
theorem keys?_arrayText {segments : List String} (h : segments ≠ []) :
    keys? (arrayText segments) = some segments := by
  obtain ⟨key, rest, rfl⟩ := List.exists_cons_of_ne_nil h
  have hopen : Chars.strip? ['\x7b'] (arrayText (key :: rest)).toList =
      some (elementsChars (key :: rest) ++ ['\x7d']) := by
    rw [arrayText, String.toList_ofList]
    exact Chars.strip?_append ['\x7b'] _
  rw [keys?, hopen]
  simp [elementsChars_ne_nil, elements_elementsChars]

end DocStore.Jsonb

namespace DocStore.Json

open DocPath

/-! ## The text is not JSON -/

theorem scan_cons (mode : Token.Mode) (c : Char) (s : List Char) :
    Token.scan mode (c :: s) =
      (Token.step mode c).bind fun r => (Token.scan r.1 s).map (r.2 ++ ·) := by
  rw [Token.scan]
  cases Token.step mode c with
  | none => rfl
  | some r => cases h : Token.scan r.1 s <;> simp [h]

/-- A key is a string of JSON, unless it holds a control character. -/
theorem scan_key (key taken rest : List Char) :
    Token.scan (.string taken)
        (key.flatMap (fun c => if c = '\\' || c = '"' then ['\\', c] else [c]) ++ '"' :: rest) =
      none ∨
    ∃ s, Token.scan (.string taken)
        (key.flatMap (fun c => if c = '\\' || c = '"' then ['\\', c] else [c]) ++ '"' :: rest) =
      (Token.scan .between rest).map (.str s :: ·) := by
  induction key generalizing taken with
  | nil =>
    right
    refine ⟨.ofList taken.reverse, ?_⟩
    rw [List.flatMap_nil, List.nil_append, scan_cons]
    rfl
  | cons c key ih =>
    rw [List.flatMap_cons, List.append_assoc]
    by_cases hc : c = '\\' ∨ c = '"'
    · have hescape : Token.step (.string taken) '\\' = some (.escape taken, []) := rfl
      have hchar : Token.step (.escape taken) c = some (.string (c :: taken), []) := by
        rcases hc with rfl | rfl <;> rfl
      rw [if_pos (by simpa using hc), List.cons_append, List.cons_append, List.nil_append,
        scan_cons, hescape, Option.bind_some, scan_cons, hchar, Option.bind_some]
      simpa using ih (c :: taken)
    · rw [if_neg (by simpa using hc), List.cons_append, List.nil_append, scan_cons]
      rw [not_or] at hc
      by_cases hcontrol : c.toNat < 32
      · left
        simp [Token.step, hc.1, hc.2, hcontrol]
      · have hchar : Token.step (.string taken) c = some (.string (c :: taken), []) := by
          simp [Token.step, hc.1, hc.2, hcontrol]
        rw [hchar, Option.bind_some]
        simpa using ih (c :: taken)

theorem scan_openKey (s : List Char) :
    Token.scan .between ('\x7b' :: '"' :: s) =
      (Token.scan (.string []) s).map (.openObject :: ·) := by
  rw [scan_cons]
  show Option.map _ (Token.scan .between ('"' :: s)) = _
  rw [scan_cons]
  show Option.map _ (Option.map _ (Token.scan (.string []) s)) = _
  cases Token.scan (.string []) s <;> rfl

theorem scan_endKey {c : Char} (hc : c = ',' ∨ c = '\x7d') (s : List Char) :
    ∃ token, (token = .comma ∨ token = .closeObject) ∧
      Token.scan .between (c :: s) = (Token.scan .between s).map (token :: ·) := by
  rcases hc with rfl | rfl
  · exact ⟨.comma, .inl rfl, by rw [scan_cons]; rfl⟩
  · exact ⟨.closeObject, .inr rfl, by rw [scan_cons]; rfl⟩

/-- An array of keys is not JSON. -/
theorem read?_arrayText {segments : List String} (h : segments ≠ []) :
    read? (arrayText segments) = none := by
  obtain ⟨key, rest, rfl⟩ := List.exists_cons_of_ne_nil h
  -- after the first key there is a comma or the closing brace
  have htext : ∃ c s, (arrayText (key :: rest)).toList =
      '\x7b' :: '"' ::
        (key.toList.flatMap (fun c => if c = '\\' || c = '"' then ['\\', c] else [c]) ++
          '"' :: c :: s) ∧ (c = ',' ∨ c = '\x7d') := by
    rw [arrayText, String.toList_ofList]
    cases rest with
    | nil => exact ⟨'\x7d', [], by simp [elementsChars, elementChars], .inr rfl⟩
    | cons next rest =>
      exact ⟨',', elementsChars (next :: rest) ++ ['\x7d'],
        by simp [elementsChars, elementChars], .inl rfl⟩
  obtain ⟨c, s, htext, hc⟩ := htext
  rw [read?, ofChars?, htext, scan_openKey]
  rcases scan_key key.toList [] (c :: s) with hscan | ⟨str, hscan⟩
  · rw [hscan]
    rfl
  · obtain ⟨token, htoken, hend⟩ := scan_endKey hc s
    rw [hscan, hend]
    cases Token.scan .between s with
    | none => rfl
    | some tokens => rcases htoken with rfl | rfl <;> rfl

end DocStore.Json
