import DocStore.Error
import DocStore.Statement

/-!
# Sessions

An operation talks to three partners: the database, which answers
statements, the opener of connections, and the source of new ids. A
`Session` is the operation as a tree of requests: either it is done, or
it makes one request and goes on with the answer. What an operation asks
for, and in which order, can be read off the tree without a database;
`run` plays it against a `Host`, any state machine that answers.

A failing operation is a session that is done with an error, so
`Call` adds errors on top and stops at the first.
-/

namespace DocStore

/-- How an attempt to open a connection turns out: how long it takes, in
nanoseconds, with none for ever, and what it yields then. -/
structure Attempt where
  delay : Option Nat
  result : Except DbError Unit

inductive Session (α : Type) where
  | done (a : α)
  | connect (url : String) (next : Attempt → Session α)
  | send (statement : Statement) (next : Except DbError QueryResult → Session α)
  | newId (next : Cell → Session α)

namespace Session

/-! ## Sequencing -/

def bind {α β : Type} : Session α → (α → Session β) → Session β
  | .done a, f => f a
  | .connect url next, f => .connect url fun answer => bind (next answer) f
  | .send statement next, f => .send statement fun answer => bind (next answer) f
  | .newId next, f => .newId fun answer => bind (next answer) f

instance : Monad Session where
  pure := .done
  bind := bind

@[simp] theorem done_bind {α β : Type} (a : α) (f : α → Session β) :
    (Session.done a >>= f) = f a := rfl

@[simp] theorem connect_bind {α β : Type} (url : String) (next : Attempt → Session α)
    (f : α → Session β) :
    (Session.connect url next >>= f) = .connect url fun answer => next answer >>= f := rfl

@[simp] theorem send_bind {α β : Type} (statement : Statement)
    (next : Except DbError QueryResult → Session α) (f : α → Session β) :
    (Session.send statement next >>= f) = .send statement fun answer => next answer >>= f := rfl

@[simp] theorem newId_bind {α β : Type} (next : Cell → Session α) (f : α → Session β) :
    (Session.newId next >>= f) = .newId fun answer => next answer >>= f := rfl

theorem bind_done {α : Type} (s : Session α) : (s >>= Session.done) = s := by
  induction s with
  | done a => rfl
  | connect url next ih => simp [ih]
  | send statement next ih => simp [ih]
  | newId next ih => simp [ih]

theorem bind_assoc {α β γ : Type} (s : Session α) (f : α → Session β) (g : β → Session γ) :
    (s >>= f >>= g) = (s >>= fun a => f a >>= g) := by
  induction s with
  | done a => rfl
  | connect url next ih => simp [ih]
  | send statement next ih => simp [ih]
  | newId next ih => simp [ih]

instance : LawfulMonad Session :=
  LawfulMonad.mk' Session (fun s => bind_done s) (fun _ _ => rfl) bind_assoc

end Session

/-! ## Operations that can fail -/

/-- An operation that ends with a value or an error. -/
abbrev Call := ExceptT DbError Session

namespace Call

/-- Sends a statement; an error of the database ends the call. -/
def send (statement : Statement) : Call QueryResult := ExceptT.mk (.send statement .done)

def newId : Call Cell := ExceptT.mk (.newId fun id => .done (.ok id))

def connect (url : String) : Call Attempt :=
  ExceptT.mk (.connect url fun attempt => .done (.ok attempt))

/-- A computation that needs no request and may refuse its arguments. -/
def check {α : Type} (result : Except Refusal α) : Call α :=
  ExceptT.mk (.done (result.mapError .invalid))

/-- A computation that needs no request and may find a row malformed. -/
def decode {α : Type} (result : Except Malformation α) : Call α :=
  ExceptT.mk (.done (result.mapError .malformed))

end Call

/-! ## Playing a session -/

/-- A partner that answers every request and keeps a state. -/
structure Host (σ : Type) where
  connect : String → σ → Attempt × σ
  execute : Statement → σ → Except DbError QueryResult × σ
  newId : σ → Cell × σ

inductive Request where
  | connect (url : String)
  | send (statement : Statement)
  | newId

/-- How a session went: its value, what was asked for in order, and the
state of the host afterwards. -/
structure Outcome (α σ : Type) where
  value : α
  requests : List Request
  state : σ

namespace Outcome

variable {α σ : Type}

/-- With one more request in front. -/
def after (r : Request) (o : Outcome α σ) : Outcome α σ := { o with requests := r :: o.requests }

def sent (o : Outcome α σ) : List Statement :=
  o.requests.filterMap fun
    | .send statement => some statement
    | _ => none

def opened (o : Outcome α σ) : List String :=
  o.requests.filterMap fun
    | .connect url => some url
    | _ => none

end Outcome

def Session.run {α σ : Type} (host : Host σ) : Session α → σ → Outcome α σ
  | .done a, state => ⟨a, [], state⟩
  | .connect url next, state =>
    let (answer, state) := host.connect url state
    ((next answer).run host state).after (.connect url)
  | .send statement next, state =>
    let (answer, state) := host.execute statement state
    ((next answer).run host state).after (.send statement)
  | .newId next, state =>
    let (answer, state) := host.newId state
    ((next answer).run host state).after .newId

namespace Session

variable {α β σ : Type}

@[simp] theorem run_done (host : Host σ) (a : α) (state : σ) :
    (Session.done a).run host state = ⟨a, [], state⟩ := rfl

/-- The second part goes on where the first one left the host. -/
theorem run_bind (host : Host σ) (s : Session α) (f : α → Session β) (state : σ) :
    (s >>= f).run host state =
      let first := s.run host state
      let second := (f first.value).run host first.state
      ⟨second.value, first.requests ++ second.requests, second.state⟩ := by
  induction s generalizing state with
  | done a => rfl
  | connect url next ih => simp [run, ih, Outcome.after]
  | send statement next ih => simp [run, ih, Outcome.after]
  | newId next ih => simp [run, ih, Outcome.after]

end Session

end DocStore
