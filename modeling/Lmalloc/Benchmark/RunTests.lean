/-
  Lmalloc/Benchmark/RunTests.lean
  ===============================
  **The suite that a benchmark configuration asks for.**

  `run_tests` goes through the tests of the parsed configuration and calls the
  function of each that is enabled; the first test that fails ends the suite.  A
  test without a name and a disabled suite have a return value of their own.  A name
  that no test has gives `NULL`, and `run_tests` calls through it.

  A call has no result if the process ends in it.  What the tests do besides reading
  the configuration is left to the system they run on.
-/
import Lmalloc.Benchmark.EachSize
import Lmalloc.Handler.Configured

namespace Lmalloc.Benchmark.RunTests

open Lmalloc.Json Lmalloc.Handler Lmalloc.Strings.MemSize

variable {Num σ : Type}

/-! ### The tests -/

structure UaParams where
  arenaSz : UInt64
  mallocd : Bool
  contiguous : Bool
deriving DecidableEq

/-- The arguments of `tight_loop_test`. -/
structure TightLoop where
  uaParams : Option UaParams
  runningInDebugger : Bool
  isKarena : Bool
  allocIterations : UInt64
  allocFn : AllocFn
  allocFnName : String
  allocSizes : List UInt64
  sizeName : String
  logFilename : List UInt8
  logDirectory : List UInt8
deriving DecidableEq

/-- What the tests do.  `logUaInfo` writes what the arena is like to the log,
    `prepareLogging` returns the log's name, and `sdhsMain` forks unless it runs in the
    debugger. -/
structure System (Num σ : Type) where
  toU64 : Num → Option UInt64
  prepareLogging : List UInt8 → σ → Option (List UInt8 × σ)
  logUaInfo : UaParams → List UInt8 → σ → Option σ
  tightLoopTest : TightLoop → σ → Option σ
  sdhsMain : List UInt8 → Bool → σ → Option (Int32 × σ)

def smallSizes : List UInt64 := [8, 27, 64, 125, 128]
def mediumSizes : List UInt64 := [183, 512, 1359, 3875, 4096]
def largeSizes : List UInt64 := [5 * 1024 + 35, 32 * 1024, 128 * 1024 + 133]

/-- The test functions. -/
inductive Test where
  | arenaTest | mallocTest | sdhsTest
deriving DecidableEq

def testDefinitions : List (List UInt8 × Test) :=
  [(ascii "arena", .arenaTest), (ascii "malloc", .mallocTest), (ascii "sdhs", .sdhsTest)]

def aAllocFunctions : List (AllocFn × String) :=
  [(.okaAllocTimed, "okalloc"), (.kaAllocTimed, "kalloc"), (.uaAllocTimed, "ualloc")]

def mallocAndFam : List (AllocFn × String) := [(.mallocTimed, "malloc")]

section Tests

variable (sys : System Num σ)

/-- `test` has all the arguments but the sizes. -/
def tightLoopTestAllSizes (test : List UInt64 → String → TightLoop) (s : σ) : Option σ := do
  let s ← sys.tightLoopTest (test smallSizes "small") s
  let s ← sys.tightLoopTest (test mediumSizes "medium") s
  sys.tightLoopTest (test largeSizes "large") s

/-- The cast of what `cJSON_GetNumberValue` returns. -/
def iterationsOf (allocIterations : Item Num) : Option UInt64 :=
  (cJSONGetNumberValue allocIterations).bind sys.toU64

def arenaTest (ctx : Option (Item Num)) (runningInDebugger : Bool) (s : σ) :
    Option (Int32 × σ) := do
  let arenaSz ← getObjectItem ctx "arena_sz"
  let mallocd ← getObjectItem ctx "mallocd"
  let contiguous ← getObjectItem ctx "contiguous"
  let allocIterations ← getObjectItem ctx "alloc_iterations"
  let logDirectory ← getObjectItem ctx "log_directory"
  let params : UaParams :=
    ⟨lmMemSzFromString ((getStringValue (some arenaSz)).map toText), cJSONIsTrue (some mallocd),
      cJSONIsTrue (some contiguous)⟩
  let iterations ← iterationsOf sys allocIterations
  if iterations = 0 then none
  else
    let logDir ← getStringValue (some logDirectory)
    let (logFilename, s) ← sys.prepareLogging logDir s
    let s ← sys.logUaInfo params logFilename s
    let s ← aAllocFunctions.foldlM (fun s fn =>
      tightLoopTestAllSizes sys (fun sizes sizeName =>
        ⟨some params, runningInDebugger, fn.1 = .kaAllocTimed ∨ fn.1 = .okaAllocTimed, iterations,
          fn.1, fn.2, sizes, sizeName, logFilename, logDir⟩) s) s
    some (0, s)

def mallocTest (ctx : Option (Item Num)) (runningInDebugger : Bool) (s : σ) :
    Option (Int32 × σ) := do
  let allocIterations ← getObjectItem ctx "alloc_iterations"
  let logDirectory ← getObjectItem ctx "log_directory"
  let iterations ← iterationsOf sys allocIterations
  let logDir ← getStringValue (some logDirectory)
  let (logFilename, s) ← sys.prepareLogging logDir s
  if iterations = 0 then none
  else
    let s ← mallocAndFam.foldlM (fun s fn =>
      tightLoopTestAllSizes sys (fun sizes sizeName =>
        ⟨none, runningInDebugger, false, iterations, fn.1, fn.2, sizes, sizeName, logFilename,
          logDir⟩) s) s
    some (0, s)

def sdhsTest (ctx : Option (Item Num)) (runningInDebugger : Bool) (s : σ) :
    Option (Int32 × σ) :=
  match getObjectItem ctx "log_directory" with
  | none => some (-1, s)
  | some logDirectory => do
      let logDir ← getStringValue (some logDirectory)
      let (_, s) ← sys.prepareLogging logDir s
      sys.sdhsMain logDir runningInDebugger s

def Test.call : Test → Option (Item Num) → Bool → σ → Option (Int32 × σ)
  | .arenaTest => RunTests.arenaTest sys
  | .mallocTest => RunTests.mallocTest sys
  | .sdhsTest => RunTests.sdhsTest sys

/-- The test of the name, `none` for `NULL`.  There is no result if the name is no string. -/
def getTestDefinition (testNameJson : Item Num) : Option (Option Test) :=
  (getStringValue (some testNameJson)).map fun testName =>
    (testDefinitions.find? (·.1 = testName)).map Prod.snd

def cJSONHasObjectItem (object : Item Num) (name : String) : Bool :=
  (getObjectItem (some object) name).isSome

/-- The loop of `run_tests`. -/
def runTestsLoop (runningInDebugger : Bool) : List (Item Num) → σ → Option (Int32 × σ)
  | [], s => some (0, s)
  | testJson :: rest, s =>
    if cJSONIsTrue (getObjectItem (some testJson) "enabled") then
      match getObjectItem (some testJson) "name" with
      | none => some (-1, s)
      | some nameJson => do
        let ctxJson :=
          if cJSONHasObjectItem testJson "ctx" then getObjectItem (some testJson) "ctx" else none
        let definition ← getTestDefinition nameJson
        let test ← definition   -- the call through `NULL`
        let (result, s) ← test.call sys ctxJson runningInDebugger s
        if result ≠ 0 then some (result, s) else runTestsLoop runningInDebugger rest s
    else runTestsLoop runningInDebugger rest s

def cJSONIsFalse (item : Option (Item Num)) : Bool := item.any (·.kind = Kind.isFalse)

def runTests (conf : Option (Item Num)) (s : σ) : Option (Int32 × σ) :=
  match conf with
  | none => some (-1, s)
  | some conf =>
    let suiteEnabled := getObjectItem (some conf) "enabled"
    let runningInDebugger := getObjectItem (some conf) "debugger"
    let tests := getObjectItem (some conf) "tests"
    if ¬ (suiteEnabled.isSome ∧ runningInDebugger.isSome) then some (-1, s)
    else if cJSONIsFalse suiteEnabled then some (1, s)
    else runTestsLoop sys (cJSONIsTrue runningInDebugger) (tests.elim [] Item.child) s

/-- `main`, from the bytes of the configuration up to their `NUL` on. -/
def benchmarks (doubles : Doubles Num) (testConfigFile : List UInt8) (heap : Json.Heap) (s : σ) :
    Option (Int32 × σ) :=
  (cJSONParse doubles testConfigFile heap).bind fun r => runTests sys r.item s

end Tests

/-! ### The meaning of the suite -/

/-- What is asked for by one of the tests. -/
inductive Job where
  | skipped
  | unnamed
  | unknown
  | arena (params : UaParams) (iterations : UInt64) (logDir : List UInt8)
  | malloc (iterations : UInt64) (logDir : List UInt8)
  | sdhs (logDir : List UInt8)

/-- The loops of a test, one for each function and each list of sizes. -/
def loopsOf (functions : List (AllocFn × String))
    (test : AllocFn × String → List UInt64 → String → TightLoop) : List TightLoop :=
  functions.flatMap fun fn =>
    [test fn smallSizes "small", test fn mediumSizes "medium", test fn largeSizes "large"]

def Job.loops (runningInDebugger : Bool) (logFilename : List UInt8) : Job → List TightLoop
  | .arena params iterations logDir =>
      loopsOf aAllocFunctions fun fn sizes sizeName =>
        ⟨some params, runningInDebugger, fn.1 = .kaAllocTimed ∨ fn.1 = .okaAllocTimed, iterations,
          fn.1, fn.2, sizes, sizeName, logFilename, logDir⟩
  | .malloc iterations logDir =>
      loopsOf mallocAndFam fun fn sizes sizeName =>
        ⟨none, runningInDebugger, false, iterations, fn.1, fn.2, sizes, sizeName, logFilename,
          logDir⟩
  | _ => []

section Suite

variable (sys : System Num σ)

def Job.run (runningInDebugger : Bool) (s : σ) : Job → Option (Int32 × σ)
  | .skipped => some (0, s)
  | .unnamed => some (-1, s)
  | .unknown => none
  | .arena params iterations logDir => do
      let (logFilename, s) ← sys.prepareLogging logDir s
      let s ← sys.logUaInfo params logFilename s
      let loops := Job.loops runningInDebugger logFilename (.arena params iterations logDir)
      let s ← loops.foldlM (fun s loop => sys.tightLoopTest loop s) s
      some (0, s)
  | .malloc iterations logDir => do
      let (logFilename, s) ← sys.prepareLogging logDir s
      let loops := Job.loops runningInDebugger logFilename (.malloc iterations logDir)
      let s ← loops.foldlM (fun s loop => sys.tightLoopTest loop s) s
      some (0, s)
  | .sdhs logDir => do
      let (_, s) ← sys.prepareLogging logDir s
      sys.sdhsMain logDir runningInDebugger s

/-- The jobs in order, up to the first that fails. -/
def runJobs (runningInDebugger : Bool) : List Job → σ → Option (Int32 × σ)
  | [], s => some (0, s)
  | job :: jobs, s =>
      (job.run sys runningInDebugger s).bind fun r =>
        if r.1 ≠ 0 then some r else runJobs runningInDebugger jobs r.2

end Suite

section Meaning

variable (toU64 : Num → Option UInt64)

/-- The member is a string of these characters. -/
def HasText (value : Json Num) (name : String) (text : List UInt8) : Prop :=
  ∃ bytes, memberOf value name = some (Json.string bytes) ∧ upToNul bytes = text

/-- The member is `true` exactly if the flag is set. -/
def HasFlag (value : Json Num) (name : String) (flag : Bool) : Prop :=
  ∃ found, memberOf value name = some found ∧ (found = Json.isTrue ↔ flag = true)

def HasIterations (ctx : Json Num) (iterations : UInt64) : Prop :=
  iterations ≠ 0 ∧ ∃ n, memberOf ctx "alloc_iterations" = some (Json.number n) ∧
    toU64 n = some iterations

structure HasParams (ctx : Json Num) (params : UaParams) : Prop where
  arenaSz : ∃ text, HasText ctx "arena_sz" text ∧
    lmMemSzFromString (some (toText text)) = params.arenaSz
  mallocd : HasFlag ctx "mallocd" params.mallocd
  contiguous : HasFlag ctx "contiguous" params.contiguous

/-- The value asks for the job. -/
inductive Asks (value : Json Num) : Job → Prop where
  | skipped {members : List (List UInt8 × Json Num)} (hobject : value = Json.object members)
      (hnot : ¬ Enabled value) : Asks value .skipped
  | unnamed {members : List (List UInt8 × Json Num)} (hobject : value = Json.object members)
      (henabled : Enabled value) (hnone : memberOf value "name" = none) : Asks value .unnamed
  | unknown {name : List UInt8} (henabled : Enabled value) (hname : HasName value name)
      (hunknown : name ∉ testDefinitions.map Prod.fst) : Asks value .unknown
  | arena {ctx : Json Num} {params : UaParams} {iterations : UInt64} {logDir : List UInt8}
      (henabled : Enabled value) (hname : HasName value (ascii "arena"))
      (hctx : memberOf value "ctx" = some ctx) (hparams : HasParams ctx params)
      (hiterations : HasIterations toU64 ctx iterations)
      (hlog : HasText ctx "log_directory" logDir) : Asks value (.arena params iterations logDir)
  | malloc {ctx : Json Num} {iterations : UInt64} {logDir : List UInt8}
      (henabled : Enabled value) (hname : HasName value (ascii "malloc"))
      (hctx : memberOf value "ctx" = some ctx) (hiterations : HasIterations toU64 ctx iterations)
      (hlog : HasText ctx "log_directory" logDir) : Asks value (.malloc iterations logDir)
  | sdhs {ctx : Json Num} {logDir : List UInt8} (henabled : Enabled value)
      (hname : HasName value (ascii "sdhs")) (hctx : memberOf value "ctx" = some ctx)
      (hlog : HasText ctx "log_directory" logDir) : Asks value (.sdhs logDir)

end Meaning

/-! ### One test -/

section Test

variable {doubles : Doubles Num} {sys : System Num σ} {item : Item Num} {value : Json Num}
  {name : String}

theorem getObjectItem_text {text : List UInt8} (hname : ∀ c ∈ ascii name, c ≠ 0)
    (h : item.Holds doubles value) (htext : HasText value name text) :
    ∃ child, getObjectItem (some item) name = some child ∧
      getStringValue (some child) = some text := by
  obtain ⟨bytes, hmember, rfl⟩ := htext
  obtain ⟨child, hget, hholds⟩ := getObjectItem_member hname h hmember
  exact ⟨child, hget, (kind_of_string hholds).2⟩

theorem getObjectItem_flag {flag : Bool} (hname : ∀ c ∈ ascii name, c ≠ 0)
    (h : item.Holds doubles value) (hflag : HasFlag value name flag) :
    ∃ child, getObjectItem (some item) name = some child ∧ cJSONIsTrue (some child) = flag := by
  obtain ⟨found, hmember, htrue⟩ := hflag
  obtain ⟨child, hget, hholds⟩ := getObjectItem_member hname h hmember
  refine ⟨child, hget, ?_⟩
  rw [Bool.eq_iff_iff, ← htrue, ← kind_of_isTrue hholds]
  simp [cJSONIsTrue]

theorem getObjectItem_iterations {iterations : UInt64} (h : item.Holds doubles value)
    (hiterations : HasIterations sys.toU64 value iterations) :
    ∃ child, getObjectItem (some item) "alloc_iterations" = some child ∧
      iterationsOf sys child = some iterations := by
  obtain ⟨-, n, hmember, hn⟩ := hiterations
  obtain ⟨child, hget, hholds⟩ := getObjectItem_member (by decide +kernel) h hmember
  refine ⟨child, hget, ?_⟩
  cases hholds with
  | number hkind _ => simp [iterationsOf, cJSONGetNumberValue, hkind, hn]

/-- The loops over the functions and the sizes, as one list. -/
theorem foldlM_loopsOf (functions : List (AllocFn × String))
    (test : AllocFn × String → List UInt64 → String → TightLoop) (s : σ) :
    (loopsOf functions test).foldlM (fun s loop => sys.tightLoopTest loop s) s =
      functions.foldlM (fun s fn => tightLoopTestAllSizes sys (test fn) s) s := by
  induction functions generalizing s with
  | nil => rfl
  | cons fn functions ih =>
    simp only [loopsOf] at ih
    rw [loopsOf, List.flatMap_cons, List.foldlM_append]
    simp only [List.foldlM_cons, List.foldlM_nil, tightLoopTestAllSizes, bind_assoc, bind_pure, ih]

theorem arenaTest_asked {params : UaParams} {iterations : UInt64} {logDir : List UInt8}
    (h : item.Holds doubles value) (hparams : HasParams value params)
    (hiterations : HasIterations sys.toU64 value iterations)
    (hlog : HasText value "log_directory" logDir) (runningInDebugger : Bool) (s : σ) :
    arenaTest sys (some item) runningInDebugger s =
      Job.run sys runningInDebugger s (.arena params iterations logDir) := by
  obtain ⟨text, htext, hsz⟩ := hparams.arenaSz
  obtain ⟨sizeItem, hsize, hsizeText⟩ := getObjectItem_text (by decide +kernel) h htext
  obtain ⟨mallocdItem, hmallocd, hmallocdFlag⟩ :=
    getObjectItem_flag (by decide +kernel) h hparams.mallocd
  obtain ⟨contiguousItem, hcontiguous, hcontiguousFlag⟩ :=
    getObjectItem_flag (by decide +kernel) h hparams.contiguous
  obtain ⟨iterationsItem, hget, hcast⟩ := getObjectItem_iterations h hiterations
  obtain ⟨logItem, hlogGet, hlogText⟩ := getObjectItem_text (by decide +kernel) h hlog
  simp only [arenaTest, hsize, hmallocd, hcontiguous, hget, hlogGet, hcast, hsizeText,
    hmallocdFlag, hcontiguousFlag, hlogText, Option.bind_eq_bind, Option.bind_some,
    Option.map_some, hsz, if_neg hiterations.1, Job.run, Job.loops, foldlM_loopsOf]

theorem mallocTest_asked {iterations : UInt64} {logDir : List UInt8}
    (h : item.Holds doubles value) (hiterations : HasIterations sys.toU64 value iterations)
    (hlog : HasText value "log_directory" logDir) (runningInDebugger : Bool) (s : σ) :
    mallocTest sys (some item) runningInDebugger s =
      Job.run sys runningInDebugger s (.malloc iterations logDir) := by
  obtain ⟨iterationsItem, hget, hcast⟩ := getObjectItem_iterations h hiterations
  obtain ⟨logItem, hlogGet, hlogText⟩ := getObjectItem_text (by decide +kernel) h hlog
  simp only [mallocTest, hget, hlogGet, hcast, hlogText, Option.bind_eq_bind, Option.bind_some,
    if_neg hiterations.1, Job.run, Job.loops, foldlM_loopsOf]

theorem sdhsTest_asked {logDir : List UInt8} (h : item.Holds doubles value)
    (hlog : HasText value "log_directory" logDir) (runningInDebugger : Bool) (s : σ) :
    sdhsTest sys (some item) runningInDebugger s =
      Job.run sys runningInDebugger s (.sdhs logDir) := by
  obtain ⟨logItem, hlogGet, hlogText⟩ := getObjectItem_text (by decide +kernel) h hlog
  simp only [sdhsTest, hlogGet, hlogText, Option.bind_eq_bind, Option.bind_some, Job.run]

/-- The call of an enabled test with a name. -/
theorem runTestsLoop_named {testName : List UInt8} (h : item.Holds doubles value)
    (henabled : Enabled value) (hname : HasName value testName) (runningInDebugger : Bool)
    (rest : List (Item Num)) (s : σ) :
    runTestsLoop sys runningInDebugger (item :: rest) s =
      ((testDefinitions.find? (·.1 = testName)).map Prod.snd).bind fun test =>
        (test.call sys (getObjectItem (some item) "ctx") runningInDebugger s).bind fun r =>
          if r.1 ≠ 0 then some r else runTestsLoop sys runningInDebugger rest r.2 := by
  obtain ⟨nameItem, hget, htext⟩ := getObjectItem_text (by decide +kernel) h hname
  have hctx : (if cJSONHasObjectItem item "ctx" then getObjectItem (some item) "ctx" else none) =
      getObjectItem (some item) "ctx" := by
    rw [cJSONHasObjectItem]
    cases getObjectItem (some item) "ctx" <;> rfl
  simp only [runTestsLoop, (getObjectItem_enabled h henabled).2, if_true, hget, hctx,
    getTestDefinition, htext, Option.map_some, Option.bind_eq_bind, Option.bind_some]

/-- **One test does what it is asked for.** -/
theorem runTestsLoop_asked {job : Job} (h : item.Holds doubles value)
    (hasks : Asks sys.toU64 value job) (runningInDebugger : Bool) (rest : List (Item Num)) (s : σ) :
    runTestsLoop sys runningInDebugger (item :: rest) s =
      (job.run sys runningInDebugger s).bind fun r =>
        if r.1 ≠ 0 then some r else runTestsLoop sys runningInDebugger rest r.2 := by
  cases hasks with
  | skipped hobject hnot =>
    subst hobject
    rw [runTestsLoop, getObjectItem_notEnabled h hnot]
    rfl
  | unnamed hobject henabled hnone =>
    subst hobject
    have hget := getObjectItem_noMember (by decide +kernel) h hnone
    simp only [runTestsLoop, (getObjectItem_enabled h henabled).2, if_true, hget, Job.run,
      Option.bind_some]
    rfl
  | unknown henabled hname hunknown =>
    rename_i testName
    have hfind : testDefinitions.find? (·.1 = testName) = none := by
      rw [List.find?_eq_none]
      intro definition hmem heq
      exact hunknown (List.mem_map.mpr ⟨definition, hmem, of_decide_eq_true heq⟩)
    rw [runTestsLoop_named h henabled hname, hfind]
    rfl
  | arena henabled hname hctx hparams hiterations hlog =>
    obtain ⟨ctxItem, hget, hholds⟩ := getObjectItem_member (by decide +kernel) h hctx
    have hfind : testDefinitions.find? (·.1 = ascii "arena") =
      some (ascii "arena", .arenaTest) := by decide +kernel
    rw [runTestsLoop_named h henabled hname, hfind, hget,
      ← arenaTest_asked hholds hparams hiterations hlog]
    rfl
  | malloc henabled hname hctx hiterations hlog =>
    obtain ⟨ctxItem, hget, hholds⟩ := getObjectItem_member (by decide +kernel) h hctx
    have hfind : testDefinitions.find? (·.1 = ascii "malloc") =
      some (ascii "malloc", .mallocTest) := by decide +kernel
    rw [runTestsLoop_named h henabled hname, hfind, hget,
      ← mallocTest_asked hholds hiterations hlog]
    rfl
  | sdhs henabled hname hctx hlog =>
    obtain ⟨ctxItem, hget, hholds⟩ := getObjectItem_member (by decide +kernel) h hctx
    have hfind : testDefinitions.find? (·.1 = ascii "sdhs") =
      some (ascii "sdhs", .sdhsTest) := by decide +kernel
    rw [runTestsLoop_named h henabled hname, hfind, hget, ← sdhsTest_asked hholds hlog]
    rfl

theorem runTestsLoop_jobs {items : List (Item Num)} {values : List (Json Num)} {jobs : List Job}
    (h : List.Forall₂ (Item.Holds doubles) items values)
    (hasks : List.Forall₂ (Asks sys.toU64) values jobs) (runningInDebugger : Bool) (s : σ) :
    runTestsLoop sys runningInDebugger items s = runJobs sys runningInDebugger jobs s := by
  induction hasks generalizing items s with
  | nil =>
    cases h
    rfl
  | cons hask hasks ih =>
    cases h with
    | cons hholds h =>
    rw [runTestsLoop_asked hholds hask, runJobs]
    simp only [ih h]

end Test

/-! ### The whole suite -/

/-- What is to be done about a configuration. -/
inductive Suite where
  | malformed
  | disabled
  | tests (runningInDebugger : Bool) (jobs : List Job)

def Suite.run (sys : System Num σ) (s : σ) : Suite → Option (Int32 × σ)
  | .malformed => some (-1, s)
  | .disabled => some (1, s)
  | .tests runningInDebugger jobs => runJobs sys runningInDebugger jobs s

/-- The value is the configuration of the suite. -/
inductive Configures (toU64 : Num → Option UInt64) (conf : Json Num) : Suite → Prop where
  | malformed {members : List (List UInt8 × Json Num)} (hobject : conf = Json.object members)
      (hnone : memberOf conf "enabled" = none ∨ memberOf conf "debugger" = none) :
      Configures toU64 conf .malformed
  | disabled {debugger : Json Num} (henabled : memberOf conf "enabled" = some Json.isFalse)
      (hdebugger : memberOf conf "debugger" = some debugger) : Configures toU64 conf .disabled
  | tests {enabled : Json Num} {runningInDebugger : Bool} {values : List (Json Num)}
      {jobs : List Job} (henabled : memberOf conf "enabled" = some enabled)
      (hne : enabled ≠ Json.isFalse) (hdebugger : HasFlag conf "debugger" runningInDebugger)
      (htests : memberOf conf "tests" = some (Json.array values))
      (hasks : List.Forall₂ (Asks toU64) values jobs) :
      Configures toU64 conf (.tests runningInDebugger jobs)

section Suites

variable {doubles : Doubles Num} {sys : System Num σ} {item : Item Num} {conf : Json Num}
  {suite : Suite}

theorem kind_of_isFalse {value : Json Num} (h : item.Holds doubles value) :
    cJSONIsFalse (some item) = true ↔ value = Json.isFalse := by
  cases h <;> simp_all [cJSONIsFalse]

theorem runTests_configured (h : item.Holds doubles conf)
    (hconf : Configures sys.toU64 conf suite) (s : σ) :
    runTests sys (some item) s = suite.run sys s := by
  cases hconf with
  | malformed hobject hnone =>
    subst hobject
    have hmissing : ¬ ((getObjectItem (some item) "enabled").isSome ∧
        (getObjectItem (some item) "debugger").isSome) := by
      rcases hnone with hnone | hnone
      · rw [getObjectItem_noMember (by decide +kernel) h hnone]
        simp
      · rw [getObjectItem_noMember (by decide +kernel) h hnone]
        simp
    simp only [runTests, if_pos hmissing, Suite.run]
  | disabled henabled hdebugger =>
    obtain ⟨enabledItem, hget, hholds⟩ := getObjectItem_member (by decide +kernel) h henabled
    obtain ⟨debuggerItem, hdebuggerGet, -⟩ := getObjectItem_member (by decide +kernel) h hdebugger
    have hfalse := (kind_of_isFalse hholds).mpr rfl
    simp only [runTests, hget, hdebuggerGet, Option.isSome_some, and_self, not_true_eq_false,
      if_false, hfalse, if_true, Suite.run]
  | tests henabled hne hdebugger htests hasks =>
    obtain ⟨enabledItem, hget, hholds⟩ := getObjectItem_member (by decide +kernel) h henabled
    obtain ⟨debuggerItem, hdebuggerGet, hflag⟩ :=
      getObjectItem_flag (by decide +kernel) h hdebugger
    obtain ⟨testsItem, htestsGet, htestsHolds⟩ := getObjectItem_member (by decide +kernel) h htests
    have hnot : ¬ cJSONIsFalse (some enabledItem) = true := mt (kind_of_isFalse hholds).mp hne
    cases htestsHolds with
    | array hkind hchild =>
    simp only [runTests, hget, hdebuggerGet, htestsGet, Option.isSome_some, and_self,
      not_true_eq_false, if_false, if_neg hnot, Option.elim_some, hflag, Suite.run]
    exact runTestsLoop_jobs hchild hasks _ s

/-- The program reads the configuration from its text. -/
theorem benchmarks_reads (sys : System Num σ) {n : ℕ} (hn : n ≤ cJSONNestingLimit)
    {bom w text rest : List UInt8} (hbom : bom = [] ∨ bom = utf8Bom) (hw : Blanks w)
    (htext : Text doubles n conf text) (hrest : Stops rest) (hnul : 0 ∉ bom ++ w ++ text ++ rest)
    {heap : Json.Heap} (hgranted : heap.NeverRefuses) (s : σ) :
    ∃ item : Item Num, item.Holds doubles conf ∧
      benchmarks sys doubles (bom ++ w ++ text ++ rest) heap s = runTests sys (some item) s := by
  obtain ⟨item, heap', hparse, hholds, -⟩ :=
    cJSONParse_reads doubles hbom hw (htext.mono doubles hn) hrest hnul hgranted
  exact ⟨item, hholds, by rw [benchmarks, hparse, Option.bind_some]⟩

end Suites

/-! ### When the process ends -/

/-- No call of the tests ends the process. -/
structure System.Alive (sys : System Num σ) : Prop where
  prepareLogging : ∀ logDir s, (sys.prepareLogging logDir s).isSome
  logUaInfo : ∀ params logFilename s, (sys.logUaInfo params logFilename s).isSome
  tightLoopTest : ∀ loop s, (sys.tightLoopTest loop s).isSome
  sdhsMain : ∀ logDir runningInDebugger s, (sys.sdhsMain logDir runningInDebugger s).isSome

section Ends

variable {doubles : Doubles Num} {sys : System Num σ} {runningInDebugger : Bool}

theorem System.Alive.loops (h : sys.Alive) (loops : List TightLoop) (s : σ) :
    ∃ s', loops.foldlM (fun s loop => sys.tightLoopTest loop s) s = some s' := by
  induction loops generalizing s with
  | nil => exact ⟨s, rfl⟩
  | cons loop loops ih =>
    obtain ⟨s₁, hs₁⟩ := Option.isSome_iff_exists.mp (h.tightLoopTest loop s)
    obtain ⟨s', hs'⟩ := ih s₁
    refine ⟨s', ?_⟩
    rw [List.foldlM_cons, hs₁]
    exact hs'

theorem Job.run_eq_none_iff (h : sys.Alive) {job : Job} {s : σ} :
    job.run sys runningInDebugger s = none ↔ job = .unknown := by
  cases job with
  | skipped | unnamed | unknown => simp [Job.run]
  | arena params iterations logDir =>
    obtain ⟨⟨logFilename, s₁⟩, hs₁⟩ := Option.isSome_iff_exists.mp (h.prepareLogging logDir s)
    obtain ⟨s₂, hs₂⟩ := Option.isSome_iff_exists.mp (h.logUaInfo params logFilename s₁)
    obtain ⟨s₃, hs₃⟩ := h.loops (Job.loops runningInDebugger logFilename
      (.arena params iterations logDir)) s₂
    simp [Job.run, hs₁, hs₂, hs₃]
  | malloc iterations logDir =>
    obtain ⟨⟨logFilename, s₁⟩, hs₁⟩ := Option.isSome_iff_exists.mp (h.prepareLogging logDir s)
    obtain ⟨s₂, hs₂⟩ := h.loops (Job.loops runningInDebugger logFilename
      (.malloc iterations logDir)) s₁
    simp [Job.run, hs₁, hs₂]
  | sdhs logDir =>
    obtain ⟨⟨logFilename, s₁⟩, hs₁⟩ := Option.isSome_iff_exists.mp (h.prepareLogging logDir s)
    obtain ⟨r, hr⟩ := Option.isSome_iff_exists.mp (h.sdhsMain logDir runningInDebugger s₁)
    simp [Job.run, hs₁, hr]

theorem runJobs_cons {job : Job} {jobs : List Job} {s s₁ : σ} {result : Int32}
    (hrun : job.run sys runningInDebugger s = some (result, s₁)) :
    runJobs sys runningInDebugger (job :: jobs) s =
      if result ≠ 0 then some (result, s₁) else runJobs sys runningInDebugger jobs s₁ := by
  rw [runJobs, hrun, Option.bind_some]

/-- The process ends at a job that is unknown, if all in front of it have passed. -/
theorem runJobs_eq_none_iff (h : sys.Alive) {jobs : List Job} {s : σ} :
    runJobs sys runningInDebugger jobs s = none ↔
      ∃ before after s', jobs = before ++ Job.unknown :: after ∧
        runJobs sys runningInDebugger before s = some (0, s') := by
  induction jobs generalizing s with
  | nil => simp [runJobs]
  | cons job jobs ih =>
    cases hrun : job.run sys runningInDebugger s with
    | none =>
      obtain rfl := (Job.run_eq_none_iff h).mp hrun
      exact iff_of_true (by rw [runJobs, hrun]; rfl) ⟨[], jobs, s, rfl, rfl⟩
    | some r =>
      obtain ⟨result, s₁⟩ := r
      -- so the unknown job is one of the others
      have hsplit : ∀ {before after : List Job}, job :: jobs = before ++ Job.unknown :: after →
          ∃ before', before = job :: before' ∧ jobs = before' ++ Job.unknown :: after := by
        intro before after hjobs
        rcases List.cons_eq_append_iff.mp hjobs with ⟨-, hfirst⟩ | hothers
        · rw [(List.cons.inj hfirst).1.symm] at hrun
          cases hrun
        · exact hothers
      rw [runJobs_cons hrun]
      by_cases hresult : result = 0
      · have hpasses : ¬ result ≠ 0 := not_not_intro hresult
        rw [if_neg hpasses, ih]
        constructor
        · rintro ⟨before, after, s', rfl, hbefore⟩
          refine ⟨job :: before, after, s', rfl, ?_⟩
          rw [runJobs_cons hrun, if_neg hpasses]
          exact hbefore
        · rintro ⟨before, after, s', hjobs, hbefore⟩
          obtain ⟨before', rfl, hjobs'⟩ := hsplit hjobs
          rw [runJobs_cons hrun, if_neg hpasses] at hbefore
          exact ⟨before', after, s', hjobs', hbefore⟩
      · rw [if_pos hresult]
        refine iff_of_false (Option.some_ne_none _) ?_
        rintro ⟨before, after, s', hjobs, hbefore⟩
        obtain ⟨before', rfl, -⟩ := hsplit hjobs
        rw [runJobs_cons hrun, if_pos hresult] at hbefore
        exact hresult (congrArg Prod.fst (Option.some.inj hbefore))

end Ends

/-! ### A suite of two tests, the second one misspelt -/

section Written

variable {n : ℕ}

/-- Each loop is written down. -/
def recorder : System ℤ (List TightLoop) where
  toU64 n := some (UInt64.ofInt n)
  prepareLogging logDir s := some (logDir ++ ascii "1-log.txt", s)
  logUaInfo _ _ s := some s
  tightLoopTest loop s := some (s ++ [loop])
  sdhsMain _ _ s := some (0, s)

theorem alive_recorder : recorder.Alive := ⟨fun _ _ => rfl, fun _ _ _ => rfl, fun _ _ => rfl,
  fun _ _ _ => rfl⟩

theorem plain_empty : Plain (ascii "") := by decide +kernel

theorem plain_name : Plain (ascii "name") := by decide +kernel

theorem text_false : Text wholeNumbers n Json.isFalse (ascii "false") :=
  Scalar.isFalse.text wholeNumbers n

def debuggerMember : Written wholeNumbers n where
  name := ascii "debugger"
  value := Json.isFalse
  text := ascii "false"
  plain := by decide +kernel
  reads := text_false

def iterationsMember : Written wholeNumbers n where
  name := ascii "alloc_iterations"
  value := Json.number 1000
  text := ascii "1000"
  plain := by decide +kernel
  reads := (Scalar.number ⟨⟨49, rfl, by decide⟩, by decide +kernel, by decide,
    by decide +kernel⟩).text wholeNumbers n

def mallocEntry : Written wholeNumbers 3 :=
  objectMember ""
    [stringMember "name" "malloc" plain_name (by decide +kernel), enabledMember,
      objectMember "ctx"
        [iterationsMember,
          stringMember "log_directory" "./logs/" (by decide +kernel) (by decide +kernel)]
        (by decide +kernel) (by simp)]
    plain_empty (by simp)

def misspeltEntry : Written wholeNumbers 3 :=
  objectMember "" [stringMember "name" "maloc" plain_name (by decide +kernel), enabledMember]
    plain_empty (by simp)

def testsMember (entries : List (Written wholeNumbers 3)) (hne : entries ≠ []) :
    Written wholeNumbers 4 where
  name := ascii "tests"
  value := Json.array (entries.map (·.value))
  text := 91 :: commaSeparated (entries.map (·.text)) ++ [93]
  plain := by decide +kernel
  reads := text_array wholeNumbers
    (List.forall₂_map_left_iff.mpr (List.forall₂_map_right_iff.mpr
      (List.forall₂_same.mpr fun entry _ => entry.reads))) (by simpa using hne)

def suiteOf (entries : List (Written wholeNumbers 3)) (hne : entries ≠ []) :
    Written wholeNumbers 5 :=
  objectMember "" [enabledMember, debuggerMember, testsMember entries hne] plain_empty (by simp)

def misspelt : Written wholeNumbers 5 := suiteOf [mallocEntry, misspeltEntry] (List.cons_ne_nil _ _)

def mallocJob : Job := .malloc 1000 (ascii "./logs/")

theorem asks_mallocEntry : Asks recorder.toU64 mallocEntry.value mallocJob :=
  .malloc rfl ⟨_, rfl, by decide +kernel⟩ rfl ⟨by decide, 1000, rfl, rfl⟩
    ⟨_, rfl, by decide +kernel⟩

theorem asks_misspeltEntry : Asks recorder.toU64 misspeltEntry.value .unknown :=
  .unknown rfl ⟨_, rfl, rfl⟩ (by decide +kernel)

theorem configures_suiteOf {entries : List (Written wholeNumbers 3)} (hne : entries ≠ [])
    {jobs : List Job}
    (hasks : List.Forall₂ (Asks recorder.toU64) (entries.map (·.value)) jobs) :
    Configures recorder.toU64 (suiteOf entries hne).value (.tests false jobs) :=
  .tests rfl (fun h => by cases h) ⟨_, rfl, by simp [Written.member, debuggerMember]⟩ rfl hasks

end Written

end Lmalloc.Benchmark.RunTests
