import DocStore.Filter.Table
import Mathlib.Data.List.Forall2

/-!
# What a pattern of names matches

That a pattern matches a text is said by recursion on the pattern
(`Likes`). The matcher reads the pattern as symbols first, with one
character of look-ahead, and then goes through the text once for each
symbol. In between there is a third way to say it: the text is cut into
pieces, one for each symbol in turn (`InTurn`).

A regular expression is given its meaning in pieces as well, so a library
with that meaning (`Library.Documented`) agrees with the matcher on the
expression that a pattern is written as.

Main statement: `isMatch_iff_likes`.
-/

namespace DocStore

namespace Like

/-! ## Patterns -/

/-- The text is like the pattern. -/
inductive Likes : List Char → List Char → Prop
  | nil : Likes [] []
  | run {wildcard : Char} {pattern run s : List Char} : wildcard = '%' ∨ wildcard = '*' →
      '\n' ∉ run → Likes pattern s → Likes (wildcard :: pattern) (run ++ s)
  | one {c : Char} {pattern s : List Char} : c ≠ '\n' → Likes pattern s →
      Likes ('_' :: pattern) (c :: s)
  | escaped {c : Char} {pattern s : List Char} : Likes pattern s →
      Likes ('\\' :: c :: pattern) (c :: s)
  | lastBackslash : Likes ['\\'] ['\\']
  | itself {c : Char} {pattern s : List Char} : c ∉ ['%', '*', '_', '\\'] → Likes pattern s →
      Likes (c :: pattern) (c :: s)

/-! ## Symbols -/

/-- The symbol stands for the piece of text. -/
def Symbol.Matches : Symbol → List Char → Prop
  | .anyRun, piece => '\n' ∉ piece
  | .anyOne, piece => ∃ c, c ≠ '\n' ∧ piece = [c]
  | .exactly c, piece => piece = [c]

/-- The text is cut into pieces for which the symbols stand in turn. -/
def InTurn (symbols : List Symbol) (s : List Char) : Prop :=
  ∃ pieces, List.Forall₂ Symbol.Matches symbols pieces ∧ pieces.flatten = s

section InTurn

variable {symbol : Symbol} {rest : List Symbol} {c : Char} {s : List Char}

theorem inTurn_nil_iff : InTurn [] s ↔ s = [] := by
  constructor
  · rintro ⟨pieces, hpieces, rfl⟩
    cases hpieces
    rfl
  · rintro rfl
    exact ⟨[], .nil, rfl⟩

theorem inTurn_cons_iff : InTurn (symbol :: rest) s ↔
    ∃ piece t, s = piece ++ t ∧ symbol.Matches piece ∧ InTurn rest t := by
  constructor
  · rintro ⟨pieces, hpieces, rfl⟩
    cases hpieces with
    | @cons _ piece _ pieces hpiece hrest =>
      exact ⟨piece, pieces.flatten, rfl, hpiece, pieces, hrest, rfl⟩
  · rintro ⟨piece, t, rfl, hpiece, pieces, hrest, rfl⟩
    exact ⟨piece :: pieces, .cons hpiece hrest, rfl⟩

/-- A run is over, or goes on with one more character. -/
theorem inTurn_anyRun_cons_iff : InTurn (.anyRun :: rest) (c :: s) ↔
    InTurn rest (c :: s) ∨ c ≠ '\n' ∧ InTurn (.anyRun :: rest) s := by
  simp only [inTurn_cons_iff (s := c :: s), inTurn_cons_iff (s := s)]
  constructor
  · rintro ⟨piece, t, hs, hpiece, hrest⟩
    cases piece with
    | nil =>
      obtain rfl : c :: s = t := hs
      exact .inl hrest
    | cons d piece =>
      obtain ⟨rfl, rfl⟩ := List.cons.inj hs
      rw [Symbol.Matches, List.mem_cons, not_or] at hpiece
      exact .inr ⟨Ne.symm hpiece.1, piece, t, rfl, hpiece.2, hrest⟩
  · rintro (hrest | ⟨hc, piece, t, rfl, hpiece, hrest⟩)
    · exact ⟨[], c :: s, rfl, List.not_mem_nil, hrest⟩
    · refine ⟨c :: piece, t, rfl, ?_, hrest⟩
      rw [Symbol.Matches, List.mem_cons, not_or]
      exact ⟨Ne.symm hc, hpiece⟩

theorem inTurn_anyRun_nil_iff : InTurn (.anyRun :: rest) [] ↔ InTurn rest [] := by
  rw [inTurn_cons_iff]
  constructor
  · rintro ⟨piece, t, hs, -, hrest⟩
    obtain ⟨rfl, rfl⟩ := List.append_eq_nil_iff.mp hs.symm
    exact hrest
  · exact fun hrest => ⟨[], [], rfl, List.not_mem_nil, hrest⟩

theorem inTurn_anyOne_iff : InTurn (.anyOne :: rest) s ↔
    ∃ c t, s = c :: t ∧ c ≠ '\n' ∧ InTurn rest t := by
  rw [inTurn_cons_iff]
  constructor
  · rintro ⟨_, t, rfl, ⟨c, hc, rfl⟩, hrest⟩
    exact ⟨c, t, rfl, hc, hrest⟩
  · rintro ⟨c, t, rfl, hc, hrest⟩
    exact ⟨[c], t, rfl, ⟨c, hc, rfl⟩, hrest⟩

theorem inTurn_exactly_iff : InTurn (.exactly c :: rest) s ↔ ∃ t, s = c :: t ∧ InTurn rest t := by
  rw [inTurn_cons_iff]
  constructor
  · rintro ⟨_, t, rfl, rfl, hrest⟩
    exact ⟨t, rfl, hrest⟩
  · rintro ⟨t, rfl, hrest⟩
    exact ⟨[c], t, rfl, rfl, hrest⟩

end InTurn

/-! ## The matcher -/

/-- For every end of a text, whether the symbols stand for it in turn. -/
def Tells (symbols : List Symbol) (s : List Char) (ends : List Bool) : Prop :=
  List.Forall₂ (fun b t => b = true ↔ InTurn symbols t) ends s.tails

section Matcher

variable {symbol : Symbol} {symbols rest : List Symbol} {c : Char} {s : List Char}
  {ends : List Bool}

theorem tells_nil_iff :
    Tells symbols [] ends ↔ ∃ b, ends = [b] ∧ (b = true ↔ InTurn symbols []) := by
  rw [Tells, List.tails, List.forall₂_cons_right_iff]
  constructor
  · rintro ⟨b, later, hb, hlater, rfl⟩
    cases hlater
    exact ⟨b, rfl, hb⟩
  · rintro ⟨b, rfl, hb⟩
    exact ⟨b, [], hb, .nil, rfl⟩

theorem tells_cons_iff : Tells symbols (c :: s) ends ↔
    ∃ b later, ends = b :: later ∧ (b = true ↔ InTurn symbols (c :: s)) ∧
      Tells symbols s later := by
  rw [Tells, List.tails, List.forall₂_cons_right_iff]
  constructor
  · rintro ⟨b, later, hb, hlater, rfl⟩
    exact ⟨b, later, rfl, hb, hlater⟩
  · rintro ⟨b, later, rfl, hb, hlater⟩
    exact ⟨b, later, hb, hlater, rfl⟩

theorem Tells.head (h : Tells symbols s ends) : ends.headD false = true ↔ InTurn symbols s := by
  cases s with
  | nil =>
    obtain ⟨b, rfl, hb⟩ := tells_nil_iff.mp h
    exact hb
  | cons c s =>
    obtain ⟨b, later, rfl, hb, -⟩ := tells_cons_iff.mp h
    exact hb

theorem isWild_iff : isWild c = true ↔ c ≠ '\n' := bne_iff_ne

theorem tells_matchSymbol (h : Tells rest s ends) :
    Tells (symbol :: rest) s (matchSymbol symbol s ends) := by
  induction s generalizing ends with
  | nil =>
    cases symbol with
    | anyRun =>
      obtain ⟨b, rfl, hb⟩ := tells_nil_iff.mp h
      exact tells_nil_iff.mpr ⟨b, rfl, hb.trans inTurn_anyRun_nil_iff.symm⟩
    | anyOne => exact tells_nil_iff.mpr ⟨false, rfl, by simp [inTurn_anyOne_iff]⟩
    | exactly d => exact tells_nil_iff.mpr ⟨false, rfl, by simp [inTurn_exactly_iff]⟩
  | cons c s ih =>
    obtain ⟨b, later, rfl, hb, hlater⟩ := tells_cons_iff.mp h
    refine tells_cons_iff.mpr ⟨_, _, rfl, ?_, ih hlater⟩
    cases symbol with
    | anyRun =>
      show (b || (isWild c && (matchSymbol .anyRun s later).headD false)) = true ↔ _
      rw [Bool.or_eq_true, Bool.and_eq_true, hb, isWild_iff, (ih hlater).head,
        inTurn_anyRun_cons_iff]
    | anyOne =>
      show (isWild c && later.headD false) = true ↔ _
      rw [Bool.and_eq_true, isWild_iff, hlater.head, inTurn_anyOne_iff]
      simp
    | exactly d =>
      show (c == d && later.headD false) = true ↔ _
      rw [Bool.and_eq_true, beq_iff_eq, hlater.head, inTurn_exactly_iff]
      simp

theorem tells_matchEnds (symbols : List Symbol) (s : List Char) :
    Tells symbols s (matchEnds symbols s) := by
  induction symbols with
  | nil =>
    rw [matchEnds]
    induction s with
    | nil => exact tells_nil_iff.mpr ⟨true, rfl, by simp [inTurn_nil_iff]⟩
    | cons c s ih => exact tells_cons_iff.mpr ⟨false, _, rfl, by simp [inTurn_nil_iff], ih⟩
  | cons symbol rest ih => exact tells_matchSymbol ih

end Matcher

/-! ## Reading the pattern -/

section Reading

variable {c : Char} {pattern s : List Char}

theorem likes_run_iff (hc : c = '%' ∨ c = '*') : Likes (c :: pattern) s ↔
    ∃ run t, s = run ++ t ∧ '\n' ∉ run ∧ Likes pattern t := by
  constructor
  · intro h
    cases h with
    | @run _ _ run t _ hrun h => exact ⟨run, t, rfl, hrun, h⟩
    | one => simp at hc
    | escaped => simp at hc
    | lastBackslash => simp at hc
    | itself hself => exact absurd hself (by rcases hc with rfl | rfl <;> simp)
  · rintro ⟨run, t, rfl, hrun, h⟩
    exact .run hc hrun h

theorem likes_one_iff : Likes ('_' :: pattern) s ↔
    ∃ c t, s = c :: t ∧ c ≠ '\n' ∧ Likes pattern t := by
  constructor
  · intro h
    cases h with
    | run hwildcard => simp at hwildcard
    | one hc h => exact ⟨_, _, rfl, hc, h⟩
    | itself hself => simp at hself
  · rintro ⟨c, t, rfl, hc, h⟩
    exact .one hc h

theorem likes_escaped_iff : Likes ('\\' :: c :: pattern) s ↔ ∃ t, s = c :: t ∧ Likes pattern t := by
  constructor
  · intro h
    cases h with
    | run hwildcard => simp at hwildcard
    | escaped h => exact ⟨_, rfl, h⟩
    | itself hself => simp at hself
  · rintro ⟨t, rfl, h⟩
    exact .escaped h

/-- A backslash is itself only at the end. -/
theorem likes_itself_iff (hrun : ¬ (c = '%' ∨ c = '*')) (hone : c ≠ '_')
    (hlast : c = '\\' → pattern = []) :
    Likes (c :: pattern) s ↔ ∃ t, s = c :: t ∧ Likes pattern t := by
  constructor
  · intro h
    cases h with
    | run hwildcard => exact absurd hwildcard hrun
    | one => exact absurd rfl hone
    | escaped => cases hlast rfl
    | lastBackslash => exact ⟨[], rfl, .nil⟩
    | itself _ h => exact ⟨_, rfl, h⟩
  · rintro ⟨t, rfl, h⟩
    by_cases hc : c = '\\'
    · subst hc
      obtain rfl := hlast rfl
      cases h
      exact .lastBackslash
    · rw [not_or] at hrun
      exact .itself (by simp [hrun, hone, hc]) h

theorem likes_nil_iff : Likes [] s ↔ s = [] := by
  constructor
  · rintro ⟨⟩
    rfl
  · rintro rfl
    exact .nil

theorem inTurn_symbols_iff : InTurn (symbols pattern) s ↔ Likes pattern s := by
  fun_induction symbols pattern generalizing s with
  | case1 => rw [inTurn_nil_iff, likes_nil_iff]
  | case2 c pattern ih => simp only [inTurn_exactly_iff, likes_escaped_iff, ih]
  | case3 c pattern _ hc ih =>
    have hrun : c = '%' ∨ c = '*' := by simpa using hc
    simp only [inTurn_cons_iff, likes_run_iff hrun, ih]
    rfl
  | case4 pattern _ _ ih => simp only [inTurn_anyOne_iff, likes_one_iff, ih]
  | case5 c pattern hlast hc hone ih =>
    have hrun : ¬ (c = '%' ∨ c = '*') := by simpa using hc
    have hnil : c = '\\' → pattern = [] := by
      intro hbackslash
      cases pattern with
      | nil => rfl
      | cons d pattern => exact (hlast d pattern hbackslash rfl).elim
    simp only [inTurn_exactly_iff, likes_itself_iff hrun hone hnil, ih]

end Reading

theorem isMatch_iff (pattern text : String) :
    isMatch pattern text = true ↔ Likes pattern.toList text.toList := by
  rw [isMatch, (tells_matchEnds _ _).head, inTurn_symbols_iff]

/-! ## Libraries of regular expressions -/

/-- How a library writes a character that stands for itself alone, and whether
an expression matches in a text. -/
structure Library where
  escape : Char → List Char
  isMatch : String → String → Bool

namespace Library

def written (library : Library) : Symbol → List Char
  | .anyRun => ['.', '*']
  | .anyOne => ['.']
  | .exactly c => library.escape c

/-- The meaning that libraries document. Anchored at both ends, an expression
matches a text as a whole, the parts of the one in turn the pieces of the other:
`.` any character but a line feed, `.*` any run of these, and an escaped
character itself. -/
def Documented (library : Library) : Prop :=
  ∀ (symbols : List Symbol) (text : String),
    library.isMatch (.ofList ('^' :: symbols.flatMap library.written ++ ['$'])) text = true ↔
      InTurn symbols text.toList

variable {library : Library}

theorem expressionChars_eq (pattern : List Char) :
    expressionChars library.escape pattern = (symbols pattern).flatMap library.written := by
  fun_induction symbols pattern with
  | case1 => rfl
  | case2 c pattern ih =>
    rw [expressionChars, ih, List.flatMap_cons]
    rfl
  | case3 c pattern hlast hrun ih =>
    rw [expressionChars, if_pos hrun, ih, List.flatMap_cons]
    · rfl
    · exact hlast
  | case4 pattern hlast hrun ih =>
    rw [expressionChars, if_neg hrun, if_pos rfl, ih, List.flatMap_cons]
    · rfl
    · exact hlast
  | case5 c pattern hlast hrun hone ih =>
    rw [expressionChars, if_neg hrun, if_neg hone, ih, List.flatMap_cons]
    · rfl
    · exact hlast

theorem isMatch_expression (h : library.Documented) (pattern text : String) :
    library.isMatch (expression library.escape pattern) text = Like.isMatch pattern text := by
  rw [Bool.eq_iff_iff, expression, expressionChars_eq, h, Like.isMatch, (tells_matchEnds _ _).head]

end Library

end Like

/-- Whether a pattern matches the name, bare or with its schema, as the library
finds with the expressions for the patterns. -/
def TablePatterns.isMatchIn (library : Like.Library) (p : TablePatterns) (schema name : String) :
    Bool :=
  p.source.entries.any fun pattern =>
    let expression := Like.expression library.escape pattern
    library.isMatch expression name || library.isMatch expression (schema ++ "." ++ name)

namespace Like

/-- Patterns match a table if one of them is like its bare name or its name with
the schema; and so does any library of regular expressions with the expressions
for the patterns. -/
theorem isMatch_iff_likes {library : Library} (h : library.Documented) (patterns : TablePatterns)
    (schema name : String) :
    (patterns.isMatch schema name = true ↔ ∃ entry ∈ patterns.source.entries,
      Likes entry.toList name.toList ∨ Likes entry.toList (schema ++ "." ++ name).toList) ∧
    patterns.isMatchIn library schema name = patterns.isMatch schema name := by
  constructor
  · simp only [TablePatterns.isMatch, List.any_eq_true, Bool.or_eq_true, isMatch_iff]
  · simp only [TablePatterns.isMatchIn, TablePatterns.isMatch, Library.isMatch_expression h]

/-! ## A library -/

namespace Library

/-- The characters that mean something else than themselves in expressions. -/
def metaCharacters : List Char :=
  ['\\', '.', '+', '*', '?', '(', ')', '|', '[', ']', '\x7b', '\x7d', '^', '$', '#', '&', '-', '~']

/-- The symbols of an expression, up to the anchor at its end. -/
def read : List Char → List Symbol
  | [] => []
  | ['$'] => []
  | '.' :: '*' :: e => .anyRun :: read e
  | '.' :: e => .anyOne :: read e
  | '\\' :: c :: e => .exactly c :: read e
  | c :: e => .exactly c :: read e

/-- A library that knows no more than it needs. -/
def plain : Library where
  escape c := if c ∈ metaCharacters then ['\\', c] else [c]
  isMatch expression text :=
    match expression.toList with
    | '^' :: e => (matchEnds (read e) text.toList).headD false
    | _ => false

/-- No part of an expression begins with a star. -/
theorem head?_written (symbols : List Symbol) :
    (symbols.flatMap plain.written ++ ['$']).head? ≠ some '*' := by
  cases symbols with
  | nil => simp
  | cons symbol rest =>
    cases symbol with
    | anyRun => simp [written]
    | anyOne => simp [written]
    | exactly c =>
      show ((if c ∈ metaCharacters then ['\\', c] else [c]) ++ _ ++ _).head? ≠ _
      split
      · simp
      · next hc =>
        rintro h
        obtain rfl : c = '*' := by simpa using h
        exact hc (by decide)

theorem read_written (symbols : List Symbol) :
    read (symbols.flatMap plain.written ++ ['$']) = symbols := by
  induction symbols with
  | nil => rfl
  | cons symbol rest ih =>
    rw [List.flatMap_cons, List.append_assoc]
    have hhead := head?_written rest
    generalize rest.flatMap plain.written ++ ['$'] = e at ih hhead
    cases symbol with
    | anyRun => exact congrArg (List.cons _) ih
    | anyOne =>
      show read ('.' :: e) = _
      rw [read, ih]
      rintro e' rfl
      exact hhead rfl
    | exactly c =>
      show read ((if c ∈ metaCharacters then ['\\', c] else [c]) ++ e) = _
      split
      · show read ('\\' :: c :: e) = _
        rw [read, ih]
      · next hc =>
        show read (c :: e) = _
        rw [read, ih]
        · rintro rfl
          exact absurd (by decide) hc
        · rintro e' rfl
          exact absurd (by decide) hc
        · rintro rfl
          exact absurd (by decide) hc
        · rintro d e' rfl
          exact absurd (by decide) hc

theorem documented_plain : plain.Documented := by
  intro symbols text
  have hmatch : plain.isMatch (.ofList ('^' :: symbols.flatMap plain.written ++ ['$'])) text =
      (matchEnds (read (symbols.flatMap plain.written ++ ['$'])) text.toList).headD false := by
    simp [plain]
  rw [hmatch, read_written, (tells_matchEnds _ _).head]

end Library

/-- Escaped, a wildcard stands for itself alone, as a parenthesis does anyway. -/
theorem isMatch_iff_likes_escaped : Library.plain.Documented ∧
    Likes "a\\_b(*".toList "a_b(c".toList ∧
    TablePatterns.isMatchIn Library.plain ⟨⟨["a\\_b(*"]⟩⟩ "s" "a_b(c" = true ∧
    TablePatterns.isMatchIn Library.plain ⟨⟨["a\\_b(*"]⟩⟩ "s" "axb(c" = false := by
  have h (name : String) :=
    isMatch_iff_likes Library.documented_plain ⟨⟨["a\\_b(*"]⟩⟩ "s" name
  refine ⟨Library.documented_plain, ?_, (h _).2.trans (by decide), (h _).2.trans (by decide)⟩
  obtain ⟨entry, hentry, hlikes⟩ := (h "a_b(c").1.mp (by decide)
  obtain rfl := List.mem_singleton.mp hentry
  refine hlikes.resolve_right fun hqualified => ?_
  exact absurd ((isMatch_iff _ _).mpr hqualified) (by decide)

end Like

end DocStore
