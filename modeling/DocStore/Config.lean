import DocStore.Error
import DocStore.Filter.Table

/-!
# Configuration

How to reach a database, which of its tables to load, and the settings
of searches. Everything has a default but the connection.

A message shows the address of a database without the password, and the
time that an attempt to connect may take in the largest unit of which it
has at least one.
-/

namespace DocStore

/-! ## Addresses without passwords

The password is replaced by three asterisks. The credentials stand between
the first `://` and the last `@` after it; within them the user ends at the
first colon. -/

namespace Chars

/-- The address with its password masked; without a password it is shown as
it is. -/
def masked (url : List Char) : List Char :=
  match cut? [':', '/', '/'] url with
  | none => url
  | some (scheme, rest) =>
    match cutLast? ['@'] rest with
    | none => url
    | some (credentials, host) =>
      match cut? [':'] credentials with
      | none => url
      | some (user, _) =>
        scheme ++ [':', '/', '/'] ++ user ++ [':', '*', '*', '*', '@'] ++ host

end Chars

def maskedUrl (url : String) : String := .ofList (Chars.masked url.toList)

/-! ## Durations in words

Seconds, milliseconds, microseconds or nanoseconds, with as many decimals as
it needs. -/

namespace Duration

/-- The digits of `rest`, a fraction of ten to the power `places`, without
trailing zeros and with the point before them. -/
def fraction (places rest : Nat) : List Char :=
  let digits := Nat.toDigits 10 rest
  let padded := List.replicate (places - digits.length) '0' ++ digits
  match (padded.reverse.dropWhile (· == '0')).reverse with
  | [] => []
  | shown => '.' :: shown

/-- A count of nanoseconds in units of ten to the power `places`. -/
def inUnits (places : Nat) (nanoseconds : Nat) (unit : String) : String :=
  let size := Nat.pow 10 places
  .ofList (Nat.toDigits 10 (nanoseconds / size) ++ fraction places (nanoseconds % size)
    ++ unit.toList)

def text (nanoseconds : Nat) : String :=
  if 1000000000 ≤ nanoseconds then inUnits 9 nanoseconds "s"
  else if 1000000 ≤ nanoseconds then inUnits 6 nanoseconds "ms"
  else if 1000 ≤ nanoseconds then inUnits 3 nanoseconds "µs"
  else inUnits 0 nanoseconds "ns"

end Duration

/-! ## Settings -/

structure Config where
  connection : Option String := none
  /-- Schemas to load; without any, all are. -/
  schemas : FilterList := .empty
  blacklist : FilterList := .empty
  /-- Patterns of tables to load even if they would be skipped. -/
  exceptions : FilterList := .empty
  /-- If given, only tables with these patterns are loaded. -/
  whitelist : Option FilterList := none
  /-- The schema whose entities go by their bare names. -/
  defaultSchema : String := "public"
  findLimit : Nat := 1000
  /-- How long an attempt to connect may take, in nanoseconds. -/
  connectTimeout : Nat := 30000000000
deriving Repr, DecidableEq

namespace Config

/-- The connection to a database on this machine. -/
def localConnection (name : String) : String := "postgres://localhost/" ++ name

def url (c : Config) : Except ConfigFault String :=
  match c.connection with
  | some url => .ok url
  | none => .error .noConnection

/-- The connection as it may be shown; empty if there is none. -/
def shownUrl (c : Config) : String := (c.connection.map maskedUrl).getD ""

def filter (c : Config) : TableFilter :=
  .ofLists c.schemas c.blacklist c.exceptions c.whitelist

def validate (c : Config) : Except ConfigFault Unit := do
  if Text.isBlank (← c.url) then throw .emptyConnection
  if c.defaultSchema = "" then throw .emptyDefaultSchema
  if c.findLimit = 0 then throw .zeroFindLimit
  if c.connectTimeout = 0 then throw .zeroTimeout

end Config

end DocStore
