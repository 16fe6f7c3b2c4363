import DocStore.Proofs.Sql.Lexeme

/-!
# Tokens of a clause

Outside of quotes, letters, digits and underscores that stand next to
each other make up a word, and the characters of operators a symbol;
blanks only separate. Quoted texts and placeholders are tokens already,
so a word or a symbol ends before them.
-/

namespace DocStore.Clause

open Sql (Lexeme)

inductive Token where
  | word (s : String)
  | symbol (s : String)
  | opening
  | closing
  | name (s : String)
  | literal (s : String)
  | placeholder (ordinal : Nat)
deriving Repr, DecidableEq

/-- What is being taken, in reverse. -/
inductive Run where
  | between
  | word (taken : List Char)
  | symbol (taken : List Char)

namespace Run

def isWordChar (c : Char) : Bool := c.isAlphanum || c = '_'

/-- The token that ends here, if any. -/
def ended : Run → List Token
  | .between => []
  | .word taken => [.word (.ofList taken.reverse)]
  | .symbol taken => [.symbol (.ofList taken.reverse)]

/-- One more character, with the tokens that it completes. -/
def step (run : Run) (c : Char) : Run × List Token :=
  if c = ' ' then (.between, run.ended)
  else if c = '(' then (.between, run.ended ++ [.opening])
  else if c = ')' then (.between, run.ended ++ [.closing])
  else if isWordChar c then
    match run with
    | .word taken => (.word (c :: taken), [])
    | run => (.word [c], run.ended)
  else
    match run with
    | .symbol taken => (.symbol (c :: taken), [])
    | run => (.symbol [c], run.ended)

end Run

def tokensFrom (run : Run) : List Lexeme → List Token
  | [] => run.ended
  | .char c :: rest => (run.step c).2 ++ tokensFrom (run.step c).1 rest
  | .name s :: rest => run.ended ++ .name s :: tokensFrom .between rest
  | .literal s :: rest => run.ended ++ .literal s :: tokensFrom .between rest
  | .placeholder n :: rest => run.ended ++ .placeholder n :: tokensFrom .between rest

/-- The tokens of a text that is taken apart by the rules of quoting. -/
def tokens (lexemes : List Lexeme) : List Token := tokensFrom .between lexemes

/-! ## Where a word ends -/

/-- Whatever is being taken ends before this text. -/
def Breaks (lexemes : List Lexeme) : Prop :=
  ∀ run, tokensFrom run lexemes = run.ended ++ tokens lexemes

theorem breaks_nil : Breaks [] := fun _ => (List.append_nil _).symm

theorem breaks_blank (rest : List Lexeme) : Breaks (.char ' ' :: rest) := fun _ => rfl

theorem breaks_closing (rest : List Lexeme) : Breaks (.char ')' :: rest) := fun _ =>
  List.append_assoc ..

end DocStore.Clause
