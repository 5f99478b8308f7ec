/-
  Lmalloc/Tasks/Startup.lean
  ==========================
  **The three tasks of a thread group meet at a barrier for three.**

  `PgThread`, `MbPgTestServer` and `MbThread` set themselves up and wait at
  `Ctx->Barrier` for each other.  `MbRun` makes no call that may fail before the
  barrier; its configuration is read behind it, and again until it can be read.
  `PgRun` and `RunModbusTestServer` return as soon as a call fails, without having
  been at the barrier, and leave the other tasks there.

  What the calls answer is an argument.  The arenas have room, and a sensor has a
  row of at least one byte; otherwise the process is killed.
-/
import Lmalloc.Library.Barrier
import Lmalloc.Postgres.Table

namespace Lmalloc.Tasks

open Lmalloc.Library Lmalloc.Postgres

/-! ### The configuration -/

/-- A parsed JSON text. -/
inductive Json where
  | null
  | bool (b : Bool)
  | number
  | string (s : Text)
  | array (items : List Json)
  | object (items : List (Text × Json))

namespace Json

def isObject : Json → Bool
  | object _ => true
  | _ => false

def isArray : Json → Bool
  | array _ => true
  | _ => false

def isString : Json → Bool
  | string _ => true
  | _ => false

/-- The name of a field counts without regard to case. -/
def getObjectItem (name : String) : Json → Option Json
  | object items =>
      (items.find? fun item => item.1.map Char.toLower = name.toList.map Char.toLower).map Prod.snd
  | _ => none

/-- What `cJSON_ArrayForEach` goes through. -/
def children : Json → List Json
  | array items => items
  | object items => items.map Prod.snd
  | _ => []

end Json

/-! ### The calls before the barrier

A list of the results of the calls a task makes, in the order of the source; each
one that fails makes the task return. -/

/-- What `PgRun` finds. -/
structure PgCalls where
  confFile : Bool                    -- `SdbLoadFileIntoMemory` of the connection string
  schemaConf : Option Json           -- `DbInitGetConfFromFile`
  connected : Bool                   -- `PQstatus` is `CONNECTION_OK`
  created : ℕ → ExecStatus           -- of the table of sensor number `i`
  metadata : ℕ → MetadataQuery
  epollCreate1 : Int
  epollCtl : Int

/-- The body of the loop over the sensors. -/
def sensorCalls (created : ExecStatus) (metadata : MetadataQuery) (sensorSchema : Json) :
    List Bool :=
  let sensorName := sensorSchema.getObjectItem "name"
  let sensorData := sensorSchema.getObjectItem "data"
  [sensorSchema.isObject,
    sensorName.any Json.isString,
    sensorData.any Json.isObject,
    sensorData.all fun data => data.children.all Json.isString,
    created == .commandOk,
    (pgPrepareTable [] metadata).isSome]

def pgPrepareCtxCalls (o : PgCalls) : List Bool :=
  let sensorSchemaArray := o.schemaConf.bind (Json.getObjectItem "sensors")
  [o.confFile, o.schemaConf.any Json.isObject, sensorSchemaArray.any Json.isArray, o.connected] ++
    (sensorSchemaArray.elim [] Json.children).zipIdx.flatMap fun (sensorSchema, i) =>
      sensorCalls (o.created i) (o.metadata i) sensorSchema

/-- `PgPrepareCtx` returns a context and not `NULL`. -/
def pgPrepareCtx (o : PgCalls) : Bool := (pgPrepareCtxCalls o).all id

def pgRunCalls (o : PgCalls) : List Bool :=
  pgPrepareCtxCalls o ++ [o.epollCreate1 != -1, o.epollCtl != -1]

/-- What `RunModbusTestServer` finds. -/
structure ServerCalls where
  socket : Int
  setReuseAddr : Int
  setNoDelay : Int
  bind : Int
  listen : Int
deriving DecidableEq, Repr

def runModbusTestServerCalls (o : ServerCalls) : List Bool :=
  [o.socket != -1, o.setReuseAddr != -1, o.setNoDelay != -1, o.bind != -1, o.listen != -1]

/-! ### The tasks -/

/-- `MbPgTestTasks`. -/
inductive Task where
  | pgThread | mbPgTestServer | mbThread
deriving DecidableEq, Repr

instance : Fintype Task where
  elems := {.pgThread, .mbPgTestServer, .mbThread}
  complete task := by
    cases task with
    | pgThread | mbPgTestServer | mbThread => decide

/-- The parties of `SdbBarrierInit(&Ctx->Barrier, 3)`. -/
def barrierCount : ℕ := 3

def taskCalls (pg : PgCalls) (server : ServerCalls) : Task → List Bool
  | .pgThread => pgRunCalls pg
  | .mbPgTestServer => runModbusTestServerCalls server
  | .mbThread => []

def startup (pg : PgCalls) (server : ServerCalls) : Meeting Task :=
  Meeting.start (taskCalls pg server)

/-- Every call of `PgRun` before the barrier succeeds. -/
def PgCalls.Succeed (o : PgCalls) : Prop :=
  pgPrepareCtx o ∧ o.epollCreate1 ≠ -1 ∧ o.epollCtl ≠ -1

instance (o : PgCalls) : Decidable o.Succeed :=
  inferInstanceAs (Decidable (pgPrepareCtx o ∧ o.epollCreate1 ≠ -1 ∧ o.epollCtl ≠ -1))

def ServerCalls.Succeed (o : ServerCalls) : Prop :=
  o.socket ≠ -1 ∧ o.setReuseAddr ≠ -1 ∧ o.setNoDelay ≠ -1 ∧ o.bind ≠ -1 ∧ o.listen ≠ -1

theorem pgRunCalls_iff (o : PgCalls) : (∀ call ∈ pgRunCalls o, call = true) ↔ o.Succeed := by
  simp [pgRunCalls, PgCalls.Succeed, pgPrepareCtx]

theorem runModbusTestServerCalls_iff (o : ServerCalls) :
    (∀ call ∈ runModbusTestServerCalls o, call = true) ↔ o.Succeed := by
  simp [runModbusTestServerCalls, ServerCalls.Succeed]

theorem taskCalls_iff (pg : PgCalls) (server : ServerCalls) :
    (∀ task, ∀ call ∈ taskCalls pg server task, call = true) ↔ pg.Succeed ∧ server.Succeed := by
  rw [← pgRunCalls_iff, ← runModbusTestServerCalls_iff]
  constructor
  · exact fun h => ⟨h .pgThread, h .mbPgTestServer⟩
  · rintro ⟨hpg, hserver⟩ task
    cases task with
    | pgThread => exact hpg
    | mbPgTestServer => exact hserver
    | mbThread => exact fun _ hcall => absurd hcall List.not_mem_nil

/-- **In every run of the three tasks each one waits at the barrier exactly once before
    it returns, and none waits for one that has not, if and only if every call before
    the barrier succeeds.** -/
theorem startup_iff (pg : PgCalls) (server : ServerCalls) :
    (∀ s, Reachable (Meeting.step barrierCount) (startup pg server) s →
        s.ArrivedOnce ∧ ¬ s.Stranded) ↔
      pg.Succeed ∧ server.Succeed := by
  rw [← taskCalls_iff]
  exact Meeting.meeting_iff (taskCalls pg server)

/-- One sensor of one value, and a database that answers. -/
def goodPg : PgCalls where
  confFile := true
  schemaConf := some (.object [("sensors".toList, .array [.object
    [("name".toList, .string "shaft".toList),
      ("data".toList, .object [("rpm".toList, .string "FLOAT8".toList)])]])])
  connected := true
  created := fun _ => .commandOk
  metadata := fun _ => ⟨.tuplesOk,
    [⟨"rpm".toList, "701".toList, "8".toList, "-1".toList, "f".toList, "f".toList⟩], true⟩
  epollCreate1 := 7
  epollCtl := 0

example : goodPg.Succeed := by decide

/-- The port of the test server is in use. -/
def portInUse : ServerCalls := ⟨8, 0, 0, -1, 0⟩

/-- The server fails to bind and returns; the Modbus task is at the barrier. -/
theorem bind_failure_strands :
    ¬ ∀ s, Reachable (Meeting.step barrierCount) (startup goodPg portInUse) s →
        s.ArrivedOnce ∧ ¬ s.Stranded := by
  intro hall
  have hrun : ((run (Meeting.step barrierCount) (startup goodPg portInUse)
      [.mbPgTestServer, .mbPgTestServer, .mbPgTestServer, .mbPgTestServer, .mbThread]).map
        fun s => decide s.Stranded) = some true := by decide
  obtain ⟨s, hs, hstranded⟩ := Option.map_eq_some_iff.mp hrun
  exact (hall s ⟨_, hs⟩).2 (of_decide_eq_true hstranded)

end Lmalloc.Tasks
