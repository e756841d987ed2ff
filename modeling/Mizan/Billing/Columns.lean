import Mizan.Billing.Session
import Mizan.Interleaving.Eval

namespace Mizan

open Interleaving

-- The values of an INTEGER column lie below this and not below its negative.
def columnLimit : DatabaseBackend → Nat
  | .sqlite => 2 ^ 63
  | .postgres => 2 ^ 31

def fitsColumn (backend : DatabaseBackend) (value : Int64) : Bool :=
  -(columnLimit backend : Int) ≤ value.toInt && value.toInt < columnLimit backend

def UsageEventRecord.integers (row : UsageEventRecord) : List Int64 :=
  [row.usagePromptTokens, row.usageCompletionTokens, row.usageTotalTokens, row.usageEstimated,
    row.statusCode, row.latencyMs]

-- What a write stores in INTEGER columns.
def Write.integers : Write → List Int64
  | .wallet row => [row.balanceMicrocredits]
  | .ledger row => [row.requestDeltaMicrocredits, row.balanceAfterMicrocredits]
  | .balance _ balanceMicrocredits _ => [balanceMicrocredits]
  | .usageEvent row => row.integers
  | .adminAudit _ => []

def Write.storable (backend : DatabaseBackend) (write : Write) : Bool :=
  write.integers.all (fitsColumn backend)

namespace Billing

def OUT_OF_RANGE : String := "integer out of range"

-- The rows that a command is about to store.
def storing (s : Session) : SqlCommand → List Write
  | .statement statement =>
      match s.tx with
      | none => []
      | some writes =>
          match statement.execute (s.database.accounts.applyAll writes) with
          | .ok (_, more) => more
          | .error _ => []
  | .insertUsageEvent row => [.usageEvent row]
  | .insertAdminAudit row => [.adminAudit row]
  | _ => []

def columnFault (backend : DatabaseBackend) (s : Session) (c : SqlCommand) : Option String :=
  if (storing s c).all (Write.storable backend) then none else some OUT_OF_RANGE

-- A database that fails for no other reason than its columns, and how often it has been asked.
structure Engine where
  session : Session
  asked : Nat
  deriving DecidableEq, Repr

-- The ids and the times that a call is given, by the number of commands before them.
abbrev Supply := Nat → Uuid × String

def Engine.choice (backend : DatabaseBackend) (supply : Supply) (c : SqlCommand) (e : Engine) :
    SqlChoice :=
  { fault := columnFault backend e.session c
    uuid := (supply e.asked).1
    timestamp := (supply e.asked).2 }

def Engine.handle (backend : DatabaseBackend) (supply : Supply) (c : SqlCommand) (e : Engine) :
    c.Response × Engine :=
  let result := Session.exec c (e.choice backend supply c) e.session
  (result.1, { session := result.2, asked := e.asked + 1 })

structure BackendCall where
  job : Job
  supply : Supply

def callOn (backend : DatabaseBackend) (call : BackendCall) (database : Database) :
    Except AppError JobResult × Database :=
  let result := (call.job.program backend).run.eval (Engine.handle backend call.supply)
    { session := .idle database, asked := 0 }
  (result.1, result.2.session.database)

-- The engine at a command inside a transaction.
def inside (database : Database) (writes : List Write) (asked : Nat) : Engine :=
  { session := { database, tx := some writes }, asked }

section Commands

variable {backend : DatabaseBackend} {supply : Supply} {database : Database} {writes : List Write}
  {asked : Nat}

theorem eval_query (statement : Statement) (message : String → String) {e e' : Engine}
    {answered : Except String statement.Rows} {result : Except AppError statement.Rows}
    (hresult : failing message answered = result)
    (h : answer (e.choice backend supply (.statement statement))
      (e.session.runStatement statement) e.session = (answered, e'.session))
    (hasked : e'.asked = e.asked + 1) :
    (query statement message).run.eval (Engine.handle backend supply) e =
      (result, e') := by
  subst hresult
  change (failing message (answer (e.choice backend supply (.statement statement))
      (e.session.runStatement statement) e.session).1, Engine.mk (answer
        (e.choice backend supply (.statement statement)) (e.session.runStatement statement)
        e.session).2 (e.asked + 1)) = _
  rw [h, ← hasked]

theorem eval_query_ok {statement : Statement} {message : String → String} {rows : statement.Rows}
    {more : List Write}
    (h : statement.execute (database.accounts.applyAll writes) = .ok (rows, more))
    (hfits : more.all (Write.storable backend) = true) :
    (query statement message).run.eval (Engine.handle backend supply)
        (inside database writes asked) =
      (.ok rows, inside database (writes ++ more) (asked + 1)) := by
  refine eval_query statement message (rfl : failing message (.ok rows) = _) ?_ rfl
  simp [Engine.choice, columnFault, storing, inside, h, hfits, answer, Session.runStatement,
    Except.map]

theorem eval_query_unfit {statement : Statement} {message : String → String} {rows : statement.Rows}
    {more : List Write}
    (h : statement.execute (database.accounts.applyAll writes) = .ok (rows, more))
    (hfits : more.all (Write.storable backend) = false) :
    (query statement message).run.eval (Engine.handle backend supply)
        (inside database writes asked) =
      (.error (.infrastructure (message OUT_OF_RANGE)), inside database writes (asked + 1)) := by
  refine eval_query statement message (rfl : failing message (.error OUT_OF_RANGE) = _) ?_ rfl
  simp [Engine.choice, columnFault, storing, inside, h, hfits, answer]

theorem eval_query_error {statement : Statement} {message : String → String} {error : String}
    (h : statement.execute (database.accounts.applyAll writes) = .error error) :
    (query statement message).run.eval (Engine.handle backend supply)
        (inside database writes asked) =
      (.error (.infrastructure (message error)), inside database writes (asked + 1)) := by
  refine eval_query statement message (rfl : failing message (.error error) = _) ?_ rfl
  simp [Engine.choice, columnFault, storing, inside, h, answer, Session.runStatement, Except.map]

theorem eval_nowV7 :
    nowV7.run.eval (Engine.handle backend supply) (inside database writes asked) =
      (.ok (supply asked).1, inside database writes (asked + 1)) := rfl

theorem eval_unixTimestampString :
    unixTimestampString.run.eval (Engine.handle backend supply) (inside database writes asked) =
      (.ok (supply asked).2, inside database writes (asked + 1)) := rfl

theorem eval_executeUsageEvent (row : UsageEventRecord) (message : String → String) (e : Engine) :
    (executeUsageEvent row message).run.eval (Engine.handle backend supply) e =
      if (Write.usageEvent row).storable backend then
        (.ok (), { session := { e.session with
          database := e.session.database.apply (.usageEvent row) }, asked := e.asked + 1 })
      else
        (.error (.infrastructure (message OUT_OF_RANGE)),
          { session := e.session, asked := e.asked + 1 }) := by
  have hfault : columnFault backend e.session (.insertUsageEvent row) =
      if (Write.usageEvent row).storable backend then none else some OUT_OF_RANGE := by
    simp [columnFault, storing]
  change (failing message (Engine.handle backend supply (.insertUsageEvent row) e).1,
    (Engine.handle backend supply (.insertUsageEvent row) e).2) = _
  simp only [Engine.handle, Engine.choice, Session.exec, hfault]
  by_cases hstorable : (Write.usageEvent row).storable backend
  · rw [if_pos hstorable, if_pos hstorable]
    rfl
  · rw [if_neg hstorable, if_neg hstorable]
    rfl

theorem eval_beginTx (database : Database) (message : String → String) :
    (beginTx message).run.eval (Engine.handle backend supply)
        { session := .idle database, asked := asked } =
      (.ok (), inside database [] (asked + 1)) := by
  have hfault : columnFault backend (.idle database) .begin = none := by
    simp [columnFault, storing]
  have hanswer : Engine.handle backend supply .begin { session := .idle database, asked := asked } =
      (.ok (), inside database [] (asked + 1)) := by
    simp only [Engine.handle, Engine.choice, Session.exec, hfault]
    rfl
  change (failing message (Engine.handle backend supply .begin _).1, _) = _
  rw [hanswer]
  rfl

theorem eval_commitTx (message : String → String) :
    (commitTx message).run.eval (Engine.handle backend supply) (inside database writes asked) =
      (.ok (), { session := .idle (database.applyAll writes), asked := asked + 1 }) := by
  have hfault : columnFault backend (inside database writes asked).session .commit = none := by
    simp [columnFault, storing]
  have hanswer : Engine.handle backend supply .commit (inside database writes asked) =
      (.ok (), { session := .idle (database.applyAll writes), asked := asked + 1 }) := by
    simp only [Engine.handle, Engine.choice, Session.exec, hfault]
    rfl
  change (failing message (Engine.handle backend supply .commit _).1, _) = _
  rw [hanswer]
  rfl

end Commands

end Billing

end Mizan
