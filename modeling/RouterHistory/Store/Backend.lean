import RouterHistory.Store.Ledger
import RouterHistory.Store.Tables

/-!
The places where a history can be kept, behind one way to answer calls: memory, database tables,
and a database server that may refuse statements. A call runs its statements on the server in
order; the first refused one fails the call, and the transaction it belongs to is rolled back, so
nothing of the call is kept. Statements after a refused one are not run.
-/
namespace RouterHistory

/-- The kinds of statements that can be refused. -/
inductive StatementKind where
  | beginning
  | commit
  | historyWrite
  | provisionalWrite
  | quarantineWrite
  | checkpointInsert
  | checkpointUpdate
  | historyDelete
  | provisionalDelete
  deriving DecidableEq, Repr

namespace StatementKind

/-- The statements that write one entry. A row that stays as it is needs none of these kinds. -/
def ofOutcome : WriteOutcome → List StatementKind
  | .unchanged => []
  | _ => [.historyWrite, .provisionalWrite]

/-- The statements that write entries, and whether all of them can be written. -/
def ofEntries (p : TimePrecision) : Tables → List Entry → List StatementKind × Bool
  | _, [] => ([], true)
  | t, e :: rest =>
      match t.upsert p e with
      | .error _ => ([], false)
      | .ok (outcome, t) =>
          let (kinds, complete) := ofEntries p t rest
          (ofOutcome outcome ++ kinds, complete)

def ofMove (t : Tables) : Option Move → List StatementKind × Bool
  | none => ([], true)
  | some m => ([.checkpointUpdate], (t.advance m 0).toBool)

def transaction (body : List StatementKind × Bool) : List StatementKind :=
  .beginning :: body.1 ++ if body.2 then [.commit] else []

def andThen (first second : List StatementKind × Bool) : List StatementKind × Bool :=
  if first.2 then (first.1 ++ second.1, second.2) else first

def ofCall (p : TimePrecision) (t : Tables) : StoreCall → List StatementKind
  | .start _ _ => [.checkpointInsert]
  | .advance m => transaction (ofMove t (some m))
  | .upsert e => transaction (ofEntries p t [e])
  | .upsertAll [] => []
  | .upsertAll entries => transaction (ofEntries p t entries)
  | .commit c =>
      let rejected := c.quarantined.map fun _ => StatementKind.quarantineWrite
      transaction (andThen (ofMove t c.move) (andThen (ofEntries p t c.entries) (rejected, true)))
  | .finalizeThrough _ => [.provisionalDelete]
  | .orphan signature slot =>
      if t.isMarkedAt signature slot then
        transaction ([.provisionalDelete, .historyDelete], true)
      else transaction ([.provisionalDelete], false)
  | _ => []

end StatementKind

abbrev Refusals := StatementKind → UInt32

namespace Refusals

def none : Refusals := fun _ => 0

def set (r : Refusals) (kind : StatementKind) (count : UInt32) : Refusals :=
  fun k => if k = kind then count else r k

/-- The first statement that is refused; it uses up one refusal of its kind. -/
def firstRefused (r : Refusals) : List StatementKind → Option StatementKind × Refusals
  | [] => (Option.none, r)
  | kind :: rest =>
      if r kind = 0 then firstRefused r rest else (some kind, r.set kind (r kind - 1))

end Refusals

structure Server where
  precision : TimePrecision
  tables : Tables
  refusals : Refusals

namespace Server

def empty : Server := ⟨.microseconds, .empty, .none⟩

def refusing (s : Server) (kind : StatementKind) (count : UInt32) : Server :=
  { s with refusals := s.refusals.set kind count }

def refusalText : String := "error returned from database: server refused"

/-- The calls that store several entries say so when their commit is refused. -/
def refusal : StoreCall → StatementKind → Failure
  | .upsertAll _, .commit => .storage ("commit batch: " ++ refusalText)
  | .commit _, .commit => .storage ("commit batch: " ++ refusalText)
  | _, _ => .storage refusalText

def answer (now : Int) (s : Server) (c : StoreCall) : Except Failure c.Answer × Server :=
  match s.refusals.firstRefused (StatementKind.ofCall s.precision s.tables c) with
  | (some kind, refusals) => (.error (refusal c kind), { s with refusals })
  | (none, refusals) =>
      let (result, tables) := s.tables.answer s.precision now c
      (result, { s with tables, refusals })

end Server

inductive Backend where
  | memory (ledger : Ledger)
  | database (precision : TimePrecision) (tables : Tables)
  /-- Tables that can only be read. -/
  | readOnly (precision : TimePrecision) (tables : Tables)
  | server (server : Server)

namespace Backend

def databaseError (code : Nat) (text : String) : Failure :=
  .storage s!"error returned from database: (code: {code}) {text}"

def writeRefused : Failure := databaseError 8 "attempt to write a readonly database"

def answer (now : Int) (b : Backend) (c : StoreCall) : Except Failure c.Answer × Backend :=
  match b with
  | .memory ledger => let (result, ledger) := ledger.answer now c; (result, .memory ledger)
  | .database p tables =>
      let (result, tables) := tables.answer p now c
      (result, .database p tables)
  | .readOnly p tables =>
      if c.writes then (.error writeRefused, b) else ((tables.answer p now c).1, b)
  | .server s => let (result, s) := s.answer now c; (result, .server s)

end Backend

structure Kept where
  tables : Tables
  /-- Whether it has a write-ahead log. -/
  logged : Bool

end RouterHistory
