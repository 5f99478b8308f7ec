/-
  Lmalloc/Handler/SetUp.lean
  ==========================
  **From the configuration file to the thread groups.**

  `SetUpFromConf` parses the file and makes a thread group for each data handler that
  the file describes.  What it builds stays; the file, the parsed items and the array
  of groups are given back.  The groups are given to nobody if one cannot be made,
  and then they stay as well.

  A call has no result if it fails an assertion, converts `NAN` to an integer or
  compares a name that is `NULL`.  The pipes take memory of their own, not that of
  the allocator.
-/
import Lmalloc.Json.Lookup
import Lmalloc.Pipe.Create
import Lmalloc.Strings.MemSize
import Lmalloc.Tasks.Startup

namespace Lmalloc.Handler

open Lmalloc.Json Lmalloc.Arena Lmalloc.Pipe.Create Lmalloc.Strings.MemSize
open Lmalloc.Postgres (Text)

variable {Num : Type}

/-! ### Reading the items -/

section Fields

def ascii (s : String) : List UInt8 := s.toList.map fun c => c.toNat.toUInt8

/-- A C string as text. -/
def toText (bytes : List UInt8) : Text := bytes.map fun c => Char.ofNat c.toNat

/-- `cJSON_GetObjectItem`; every item may be `NULL`. -/
def getObjectItem (object : Option (Item Num)) (name : String) : Option (Item Num) :=
  object.bind fun object => cJSONGetObjectItem object (ascii name)

def cJSONIsTrue (item : Option (Item Num)) : Bool := item.any (·.kind = Kind.isTrue)
def cJSONIsBool (item : Option (Item Num)) : Bool :=
  item.any fun item => item.kind = Kind.isTrue ∨ item.kind = Kind.isFalse
def cJSONIsString (item : Option (Item Num)) : Bool := item.any (·.kind = Kind.string)
def cJSONIsArray (item : Option (Item Num)) : Bool := item.any (·.kind = Kind.array)

def getStringValue (item : Option (Item Num)) : Option (List UInt8) :=
  (item.bind cJSONGetStringValue).map Str.cString

/-- The size of a list of children is counted in a `size_t` and cast to `int`. -/
def cJSONGetArraySize (array : Item Num) : Int32 := Int32.ofNat array.child.length

end Fields

/-! ### What is built -/

structure MbpgCtx where
  block : ℕ
  modbusMemSize : UInt64
  modbusScratchSize : UInt64
  pgMemSize : UInt64
  pgScratchSize : UInt64
  sdPipe : SdpPipe
  barrier : ℕ

structure TgGroup where
  block : ℕ
  groupId : UInt64
  threadCount : ℕ
  tasks : List Tasks.Task
  sharedData : MbpgCtx

structure TgManager where
  block : ℕ
  groups : List TgGroup

/-- What is allocated, and what the calls of `SdpCreate` have returned. -/
structure World where
  heap : Json.Heap
  pipes : List SdpReturn

/-- What the calls of the system answer to one `SdpCreate`. -/
structure PipeCall where
  sys : System
  readFd : Option ℕ
  writeFd : Option ℕ
  heads : Heads UArena

/-- `toU64` is the cast of a `double`, without a result where it has none. -/
structure Platform (Num : Type) where
  line : CacheLine
  toU64 : Num → Option UInt64
  pipeCall : ℕ → PipeCall

def ENOMEM : Int32 := 12
def EINVAL : Int32 := 22
def sdbeJsonErr : Int32 := 7

def sizeofMbpgCtx : ℕ := 72
def sizeofTgGroup : ℕ := 64
def sizeofTgManager : ℕ := 112

section Create

variable (platform : Platform Num)

def Platform.sdpCreate (n : ℕ) (bufCount bufSize : UInt64) : Option SdpReturn :=
  let call := platform.pipeCall n
  Pipe.Create.sdpCreate platform.line call.sys call.readFd call.writeFd call.heads bufCount bufSize
    none

/-- Both sizes; the assertion fails where one of them is no string. -/
def dhsGetMemAndScratchSize (conf : Option (Item Num)) : Option (UInt64 × UInt64) :=
  let memSizeObj := getObjectItem conf "mem"
  let scratchSizeObj := getObjectItem conf "scratch_size"
  if cJSONIsString memSizeObj ∧ cJSONIsString scratchSizeObj then
    some (sdbMemSizeFromString ((getStringValue memSizeObj).map toText),
      sdbMemSizeFromString ((getStringValue scratchSizeObj).map toText))
  else none

def mbPgTestTasks : List Tasks.Task := [.pgThread, .mbPgTestServer, .mbThread]

/-- `TgCreateGroup` with data of its caller and without an arena. -/
def tgCreateGroup (groupId : UInt64) (threadCount : ℕ) (sharedData : MbpgCtx)
    (tasks : List Tasks.Task) (heap : Json.Heap) : Option TgGroup × Json.Heap :=
  match heap.allocate (sizeofTgGroup + threadCount * 8 + threadCount * 8) with
  | (none, heap) => (none, heap)
  | (some block, heap) => (some ⟨block, groupId, threadCount, tasks, sharedData⟩, heap)

/-- `MbPgCreateTg` behind the `malloc` of the context. -/
def mbPgCreateTgIn (conf : Item Num) (groupId : UInt64) (ctx : ℕ) (w : World) :
    Option (Option TgGroup × World) :=
  let pipeConf := getObjectItem (some conf) "pipe"
  let testConf := getObjectItem (some conf) "testing"
  (dhsGetMemAndScratchSize (getObjectItem (some conf) "modbus")).bind fun modbus =>
  (dhsGetMemAndScratchSize (getObjectItem (some conf) "postgres")).bind fun pg =>
  (((getObjectItem pipeConf "buf_count").bind cJSONGetNumberValue).bind platform.toU64).bind
    fun pipeBufCount =>
  let pipeBufSize :=
    sdbMemSizeFromString ((getStringValue (getObjectItem pipeConf "buf_size")).map toText)
  (platform.sdpCreate w.pipes.length pipeBufCount pipeBufSize).bind fun created =>
    let pipes := w.pipes ++ [created]
    match created.pipe with
    | none => (w.heap.deallocate ctx).map fun heap => (none, ⟨heap, pipes⟩)
    | some sdPipe =>
        if cJSONIsTrue (getObjectItem testConf "enabled") then
          let sharedData : MbpgCtx := ⟨ctx, modbus.1, modbus.2, pg.1, pg.2, sdPipe, 3⟩
          let (group, heap) := tgCreateGroup groupId 3 sharedData mbPgTestTasks w.heap
          some (group, ⟨heap, pipes⟩)
        else some (none, ⟨w.heap, pipes⟩)   -- neither the context nor the pipe is given back

def mbPgCreateTg (conf : Item Num) (groupId : UInt64) (w : World) :
    Option (Option TgGroup × World) :=
  match w.heap.allocate sizeofMbpgCtx with
  | (none, heap) => some (none, { w with heap := heap })
  | (some ctx, heap) => mbPgCreateTgIn platform conf groupId ctx { w with heap := heap }

def availableHandlers : List (List UInt8) := [ascii "modbus_with_postgres"]

def dhsCreateTg (conf : Item Num) (groupId : UInt64) (w : World) :
    Option (Option TgGroup × World) :=
  let enabled := getObjectItem (some conf) "enabled"
  if cJSONIsBool enabled ∧ cJSONIsTrue enabled then
    (getStringValue (getObjectItem (some conf) "name")).bind fun handlerName =>
      match availableHandlers.idxOf? handlerName with
      | some 0 => mbPgCreateTg platform conf groupId w
      | _ => some (none, w)
  else some (none, w)

/-! ### The whole file -/

/-- What the loop over the handlers leaves; `complete` if it has gone to its end. -/
structure Made where
  groups : List TgGroup
  complete : Bool
  world : World

/-- The loop over the handlers, from number `tg` on.  The array has room for `entries`
    groups. -/
def makeGroups (entries : ℕ) : ℕ → List (Item Num) → World → Option Made
  | _, [], w => some ⟨[], true, w⟩
  | tg, conf :: confs, w =>
      (dhsCreateTg platform conf (UInt64.ofNat tg) w).bind fun created =>
        if entries ≤ tg then none
        else
          match created.1 with
          | none => some ⟨[], false, created.2⟩
          | some group => (makeGroups entries (tg + 1) confs created.2).map fun made =>
              { made with groups := group :: made.groups }

structure SetUp where
  ret : Int32
  manager : Option TgManager
  world : World

/-- `TgCreateManager` without an arena; it reads as many entries as it is told. -/
def tgCreateManager (groups : List TgGroup) (groupCount : UInt64) (w : World) : Option SetUp :=
  match w.heap.allocate (sizeofTgManager + groupCount.toNat * 8) with
  | (none, heap) => some ⟨-1, none, { w with heap := heap }⟩
  | (some block, heap) =>
      if groupCount.toNat ≤ groups.length then
        some ⟨0, some ⟨block, groups.take groupCount.toNat⟩, { w with heap := heap }⟩
      else none

/-- From the `malloc` of the array to its `free`. -/
def setUpHandlers (handlers : List (Item Num)) (handlerCount : UInt64) (w : World) :
    Option SetUp :=
  let size := 8 * handlerCount
  match w.heap.allocate size.toNat with
  | (none, heap) => some ⟨-ENOMEM, none, { w with heap := heap }⟩
  | (some tgs, heap) =>
      (makeGroups platform (size.toNat / 8) 0 handlers { w with heap := heap }).bind fun made =>
        (if made.complete then tgCreateManager made.groups handlerCount made.world
          else some ⟨-1, none, made.world⟩).bind fun r =>
            (r.world.heap.deallocate tgs).map fun heap =>
              { r with world := { r.world with heap := heap } }

/-- From the result of the parser to the clean-up. -/
def setUpFromItem (conf : Option (Item Num)) (w : World) : Option SetUp :=
  match conf with
  | none => some ⟨-sdbeJsonErr, none, w⟩
  | some conf =>
      match getObjectItem (some conf) "data_handlers" with
      | none => some ⟨-sdbeJsonErr, none, w⟩
      | some dataHandlersConfs =>
          if cJSONIsArray (some dataHandlersConfs) then
            let handlerCount := (cJSONGetArraySize dataHandlersConfs).toInt64.toUInt64
            if handlerCount = 0 then some ⟨-EINVAL, none, w⟩
            else setUpHandlers platform dataHandlersConfs.child handlerCount w
          else some ⟨-sdbeJsonErr, none, w⟩

/-- `SetUpFromConf`; `content` is what `SdbLoadFileIntoMemory` reads, if it can. -/
def setUpFromConf (doubles : Doubles Num) (content : Option (List UInt8)) (w : World) :
    Option SetUp :=
  match content with
  | none => some ⟨-ENOMEM, none, w⟩
  | some content =>
      match w.heap.allocate (8 + content.length + 1) with
      | (none, heap) => some ⟨-ENOMEM, none, { w with heap := heap }⟩
      | (some confFile, heap) =>
          (cJSONParse doubles content heap).bind fun parsed =>
            (setUpFromItem platform parsed.item { w with heap := parsed.heap }).bind fun r =>
              ((r.world.heap.deallocate confFile).bind (cJSONDelete parsed.item.toList)).map
                fun heap => { r with world := { r.world with heap := heap } }

end Create

/-! ### What a call leaves allocated -/

section Accounts

variable {platform : Platform Num} {w w' : World}

def MbpgCtx.blocks (ctx : MbpgCtx) : Multiset ℕ := {ctx.block}

def TgGroup.blocks (group : TgGroup) : Multiset ℕ := group.sharedData.blocks + {group.block}

def TgManager.blocks (manager : TgManager) : Multiset ℕ :=
  (manager.groups.map TgGroup.blocks).sum + {manager.block}

/-- A group has the three tasks, and a barrier for as many. -/
def TgGroup.Whole (group : TgGroup) : Prop :=
  group.threadCount = 3 ∧ group.tasks = mbPgTestTasks ∧ group.tasks.length = group.threadCount ∧
    group.sharedData.barrier = group.threadCount

/-- The call has made the group, with a pipe of its own. -/
structure MakesGroup (w w' : World) (groupId : UInt64) (group : TgGroup) : Prop where
  live : w'.heap.live.val = w.heap.live.val + group.blocks
  pipes : ∃ returned, w'.pipes = w.pipes ++ [returned] ∧
    returned.pipe = some group.sharedData.sdPipe
  groupId_eq : group.groupId = groupId
  whole : group.Whole

/-- The call has made no group; it may have lost a context and a pipe. -/
structure MakesNone (w w' : World) (lost : Multiset ℕ) : Prop where
  live : w'.heap.live.val = w.heap.live.val + lost
  lost_le : lost.card ≤ 1
  pipes : ∃ returned, w'.pipes = w.pipes ++ returned ∧ returned.length ≤ 1

/-- What there is of a call that has returned. -/
def Makes (w w' : World) (groupId : UInt64) : Option TgGroup → Prop
  | some group => MakesGroup w w' groupId group
  | none => ∃ lost, MakesNone w w' lost

theorem makesNone_same (hlive : w'.heap.live.val = w.heap.live.val) (hpipes : w'.pipes = w.pipes) :
    MakesNone w w' 0 :=
  ⟨by rw [hlive, add_zero], by simp, [], by rw [hpipes, List.append_nil], by simp⟩

theorem mbPgCreateTg_makes {conf : Item Num} {groupId : UInt64} {group : Option TgGroup}
    (h : mbPgCreateTg platform conf groupId w = some (group, w')) : Makes w w' groupId group := by
  unfold mbPgCreateTg at h
  split at h
  · next heap hctx =>
    cases h
    exact ⟨0, makesNone_same (Json.Heap.allocate_none hctx) rfl⟩
  next ctx heap hctx =>
  have hlive := Json.Heap.allocate_some hctx
  simp only [mbPgCreateTgIn, Option.bind_eq_some_iff] at h
  obtain ⟨modbus, -, pg, -, bufCount, -, created, -, h⟩ := h
  split at h
  · next hpipe =>
    obtain ⟨heap', hfree, heq⟩ := Option.map_eq_some_iff.mp h
    cases heq
    have hfreed := Json.Heap.deallocate_some hfree
    rw [hlive] at hfreed
    exact ⟨0, by rw [add_zero]; exact add_right_cancel hfreed, by simp, [created], rfl, by simp⟩
  next sdPipe hpipe =>
  split at h
  · simp only [tgCreateGroup, Option.some.injEq] at h
    split at h
    · next heap' hgroup =>
      cases h
      have hnone := Json.Heap.allocate_none hgroup
      exact ⟨{ctx}, by rw [hnone]; exact hlive, by simp, [created], rfl, by simp⟩
    · next block heap' hgroup =>
      cases h
      have hsome := Json.Heap.allocate_some hgroup
      refine ⟨?_, ⟨created, rfl, hpipe⟩, rfl, rfl, rfl, rfl, rfl⟩
      rw [hsome]
      change heap.live.val + {block} = w.heap.live.val + ({ctx} + {block})
      rw [hlive, add_assoc]
  · cases h
    exact ⟨{ctx}, hlive, by simp, [created], rfl, by simp⟩

theorem dhsCreateTg_makes {conf : Item Num} {groupId : UInt64} {group : Option TgGroup}
    (h : dhsCreateTg platform conf groupId w = some (group, w')) : Makes w w' groupId group := by
  unfold dhsCreateTg at h
  dsimp only at h
  split at h
  · obtain ⟨name, -, h⟩ := Option.bind_eq_some_iff.mp h
    split at h
    · exact mbPgCreateTg_makes h
    · cases h
      exact ⟨0, makesNone_same rfl rfl⟩
  · cases h
    exact ⟨0, makesNone_same rfl rfl⟩

/-- What the loop has built from group number `tg` on, and the pipes it has got. -/
structure Built (tg : ℕ) (w w' : World) (groups : List TgGroup) (returned : List SdpReturn) :
    Prop where
  pipes : w'.pipes = w.pipes ++ returned
  returned_le : returned.length ≤ groups.length + 1
  own : (returned.take groups.length).map SdpReturn.pipe =
    groups.map fun group => some group.sharedData.sdPipe
  ids : groups.map TgGroup.groupId = (List.range' tg groups.length).map UInt64.ofNat
  whole : ∀ group ∈ groups, group.Whole

/-- What stays allocated: the groups with their contexts, and perhaps one context more. -/
def Leaves (w w' : World) (groups : List TgGroup) (lost : Multiset ℕ) : Prop :=
  w'.heap.live.val = w.heap.live.val + ((groups.map TgGroup.blocks).sum + lost) ∧ lost.card ≤ 1

/-- Every handler has its group. -/
def Complete (confs : List (Item Num)) (groups : List TgGroup) (lost : Multiset ℕ)
    (returned : List SdpReturn) : Prop :=
  groups.length = confs.length ∧ lost = 0 ∧ returned.length = groups.length

section Cons

variable {tg : ℕ} {w₁ : World} {group : TgGroup} {groups : List TgGroup} {lost : Multiset ℕ}
  {returned : List SdpReturn}

theorem MakesGroup.built_cons (h : MakesGroup w w₁ (UInt64.ofNat tg) group)
    (hrest : Built (tg + 1) w₁ w' groups returned) :
    ∃ first, Built tg w w' (group :: groups) (first :: returned) := by
  obtain ⟨first, hpipes, hpipe⟩ := h.pipes
  refine ⟨first, ?_, ?_, ?_, ?_, ?_⟩
  · rw [hrest.pipes, hpipes, List.append_assoc]
    rfl
  · have hle := hrest.returned_le
    simp only [List.length_cons]
    omega
  · rw [List.length_cons, List.take_succ_cons, List.map_cons, List.map_cons, hpipe, hrest.own]
  · rw [List.map_cons, h.groupId_eq, hrest.ids, List.length_cons, List.range'_succ, List.map_cons]
  · intro g hg
    rcases List.mem_cons.mp hg with rfl | hg
    · exact h.whole
    · exact hrest.whole g hg

theorem MakesGroup.leaves_cons {groupId : UInt64} (h : MakesGroup w w₁ groupId group)
    (hrest : Leaves w₁ w' groups lost) : Leaves w w' (group :: groups) lost := by
  refine ⟨?_, hrest.2⟩
  rw [hrest.1, h.live, List.map_cons, List.sum_cons]
  simp only [add_assoc]

end Cons

theorem makeGroups_built {entries : ℕ} {confs : List (Item Num)} {tg : ℕ} {made : Made}
    (h : makeGroups platform entries tg confs w = some made) :
    ∃ lost returned, Built tg w made.world made.groups returned ∧
      Leaves w made.world made.groups lost ∧
      (made.complete = true → Complete confs made.groups lost returned) := by
  induction confs generalizing tg w made with
  | nil =>
    cases h
    exact ⟨0, [], ⟨by simp, by simp, rfl, rfl, by simp⟩, ⟨by simp, by simp⟩,
      fun _ => ⟨rfl, rfl, rfl⟩⟩
  | cons conf confs ih =>
    obtain ⟨⟨created, w₁⟩, hcreate, h⟩ := Option.bind_eq_some_iff.mp h
    have hmakes := dhsCreateTg_makes hcreate
    obtain ⟨-, h⟩ := Option.ite_none_left_eq_some.mp h
    cases created with
    | none =>
      cases h
      obtain ⟨lost, hnone⟩ := hmakes
      obtain ⟨returned, hpipes, hle⟩ := hnone.pipes
      refine ⟨lost, returned, ⟨hpipes, by simpa using hle, by simp, rfl, by simp⟩,
        ⟨?_, hnone.lost_le⟩, nofun⟩
      rw [hnone.live]
      simp
    | some group =>
      obtain ⟨made', hrest, rfl⟩ := Option.map_eq_some_iff.mp h
      obtain ⟨lost, returned, hbuilt, hleaves, hcomplete⟩ := ih hrest
      obtain ⟨first, hcons⟩ := MakesGroup.built_cons hmakes hbuilt
      refine ⟨lost, first :: returned, hcons, MakesGroup.leaves_cons hmakes hleaves,
        fun hdone => ?_⟩
      obtain ⟨hlen, hlost, hreturned⟩ := hcomplete hdone
      exact ⟨by simp [hlen], hlost, by simp [hreturned]⟩

/-- The array has room for the groups that were written to it. -/
theorem makeGroups_entries {entries : ℕ} {confs : List (Item Num)} {tg : ℕ} {made : Made}
    (h : makeGroups platform entries tg confs w = some made) (hne : made.groups ≠ []) :
    tg + made.groups.length ≤ entries := by
  induction confs generalizing tg w made with
  | nil =>
    cases h
    exact absurd rfl hne
  | cons conf confs ih =>
    obtain ⟨created, -, h⟩ := Option.bind_eq_some_iff.mp h
    obtain ⟨hroom, h⟩ := Option.ite_none_left_eq_some.mp h
    split at h
    · cases h
      exact absurd rfl hne
    · obtain ⟨made', hrest, rfl⟩ := Option.map_eq_some_iff.mp h
      simp only [List.length_cons]
      by_cases hlast : made'.groups = []
      · rw [hlast, List.length_nil]
        omega
      · have hle := ih hrest hlast
        omega

/-! ### The whole set-up -/

/-- **The account of a set-up**: the groups it has built, a context it may have lost,
    and what `SdpCreate` has returned.  With a manager everything belongs to it. -/
structure SetUp.Accounts (w : World) (r : SetUp) (groups : List TgGroup) (lost : Multiset ℕ)
    (returned : List SdpReturn) : Prop where
  built : Built 0 w r.world groups returned
  lost_le : lost.card ≤ 1
  live : r.world.heap.live.val = w.heap.live.val + ((groups.map TgGroup.blocks).sum + lost) +
    r.manager.elim 0 fun manager => {manager.block}
  ret : r.ret = 0 ↔ r.manager.isSome
  manager : ∀ manager, r.manager = some manager → manager.groups = groups ∧ groups ≠ [] ∧
    lost = 0 ∧ returned.length = groups.length

/-- A set-up that has stopped before the loop. -/
theorem SetUp.accounts_stopped {ret : Int32} (hret : ret ≠ 0)
    (hlive : w'.heap.live.val = w.heap.live.val) (hpipes : w'.pipes = w.pipes) :
    SetUp.Accounts w ⟨ret, none, w'⟩ [] 0 [] := by
  refine ⟨⟨by simp [hpipes], by simp, rfl, rfl, by simp⟩, by simp, by simp [hlive], ?_, nofun⟩
  simp [hret]

/-- A block that was live all the while is given back at the end. -/
theorem SetUp.Accounts.release {r : SetUp} {groups : List TgGroup} {lost : Multiset ℕ}
    {returned : List SdpReturn} {heap : Json.Heap} {blocks : Multiset ℕ} {w₁ : World}
    (h : SetUp.Accounts w₁ r groups lost returned) (hpipes : w₁.pipes = w.pipes)
    (hlive : w₁.heap.live.val = w.heap.live.val + blocks)
    (hreleased : heap.live.val + blocks = r.world.heap.live.val) :
    SetUp.Accounts w { r with world := { r.world with heap := heap } } groups lost returned := by
  have hbuilt := h.built
  refine ⟨⟨?_, hbuilt.returned_le, hbuilt.own, hbuilt.ids, hbuilt.whole⟩, h.lost_le, ?_, h.ret,
    h.manager⟩
  · rw [← hpipes]
    exact hbuilt.pipes
  · have hall := h.live
    rw [hlive, ← hreleased] at hall
    apply add_right_cancel (b := blocks)
    rw [hall]
    simp only [add_assoc, add_comm, add_left_comm]

/-- As many groups as the manager is told of, if the array had room for them. -/
theorem length_eq_of_entries {n : ℕ} {count : UInt64} (hpos : count ≠ 0) (hle : count.toNat ≤ n)
    (hentries : n ≠ 0 → n ≤ (8 * count).toNat / 8) : n = count.toNat := by
  have height : (8 : UInt64).toNat = 8 := rfl
  have hcount : count.toNat ≠ 0 := fun h => hpos (UInt64.toNat_inj.mp h)
  have hlt := count.toNat_lt
  rw [UInt64.toNat_mul, height] at hentries
  have hroom := hentries (by omega)
  omega

theorem tgCreateManager_accounts {w₀ : World} {confs : List (Item Num)} {made : Made}
    {count : UInt64} {lost : Multiset ℕ} {returned : List SdpReturn} {r : SetUp}
    (hbuilt : Built 0 w₀ made.world made.groups returned)
    (hleaves : Leaves w₀ made.world made.groups lost)
    (hcomplete : Complete confs made.groups lost returned) (hcount : count ≠ 0)
    (hentries : made.groups.length ≠ 0 → made.groups.length ≤ (8 * count).toNat / 8)
    (h : tgCreateManager made.groups count made.world = some r) :
    SetUp.Accounts w₀ r made.groups lost returned := by
  unfold tgCreateManager at h
  split at h
  · next heap hmanager =>
    cases h
    refine ⟨⟨hbuilt.pipes, hbuilt.returned_le, hbuilt.own, hbuilt.ids, hbuilt.whole⟩, hleaves.2, ?_,
      by simp, nofun⟩
    rw [Json.Heap.allocate_none hmanager, hleaves.1]
    simp
  · next block heap hmanager =>
    obtain ⟨hle, h⟩ := Option.ite_none_right_eq_some.mp h
    cases h
    have hlen := length_eq_of_entries hcount hle hentries
    refine ⟨⟨hbuilt.pipes, hbuilt.returned_le, hbuilt.own, hbuilt.ids, hbuilt.whole⟩, hleaves.2, ?_,
      by simp, ?_⟩
    · rw [Json.Heap.allocate_some hmanager, hleaves.1]
      rfl
    · rintro manager hmanager
      cases hmanager
      refine ⟨?_, ?_, hcomplete.2⟩
      · rw [← hlen, List.take_length]
      · intro hnil
        rw [hnil, List.length_nil] at hlen
        exact hcount (UInt64.toNat_inj.mp hlen.symm)

theorem setUpHandlers_accounts {handlers : List (Item Num)} {count : UInt64} (hcount : count ≠ 0)
    {r : SetUp} (h : setUpHandlers platform handlers count w = some r) :
    ∃ groups lost returned, SetUp.Accounts w r groups lost returned := by
  unfold setUpHandlers at h
  dsimp only at h
  split at h
  · next heap htgs =>
    cases h
    exact ⟨[], 0, [], SetUp.accounts_stopped (by decide) (Json.Heap.allocate_none htgs) rfl⟩
  next tgs heap htgs =>
  obtain ⟨made, hmake, h⟩ := Option.bind_eq_some_iff.mp h
  obtain ⟨lost, returned, hbuilt, hleaves, hcomplete⟩ := makeGroups_built hmake
  obtain ⟨r', hr', h⟩ := Option.bind_eq_some_iff.mp h
  obtain ⟨heap', hfree, rfl⟩ := Option.map_eq_some_iff.mp h
  have hmade : SetUp.Accounts { w with heap := heap } r' made.groups lost returned := by
    split at hr'
    · next hdone =>
      refine tgCreateManager_accounts hbuilt hleaves (hcomplete hdone) hcount (fun hne => ?_) hr'
      have hentries := makeGroups_entries hmake fun hnil => hne (by rw [hnil, List.length_nil])
      omega
    · cases hr'
      refine ⟨hbuilt, hleaves.2, ?_, by simp, nofun⟩
      rw [hleaves.1]
      simp
  exact ⟨made.groups, lost, returned,
    hmade.release rfl (Json.Heap.allocate_some htgs) (Json.Heap.deallocate_some hfree)⟩

theorem setUpFromItem_accounts {conf : Option (Item Num)} {r : SetUp}
    (h : setUpFromItem platform conf w = some r) :
    ∃ groups lost returned, SetUp.Accounts w r groups lost returned := by
  have hstopped : ∀ {ret : Int32}, ret ≠ 0 → some (⟨ret, none, w⟩ : SetUp) = some r →
      ∃ groups lost returned, SetUp.Accounts w r groups lost returned := by
    intro ret hret hr
    cases hr
    exact ⟨[], 0, [], SetUp.accounts_stopped hret rfl rfl⟩
  unfold setUpFromItem at h
  split at h
  · exact hstopped (by decide) h
  split at h
  · exact hstopped (by decide) h
  split at h
  · dsimp only at h
    split at h
    · exact hstopped (by decide) h
    · next hcount => exact setUpHandlers_accounts hcount h
  · exact hstopped (by decide) h

/-- The items of a text are what the parser has left allocated. -/
theorem cJSONParse_live {doubles : Doubles Num} {content : List UInt8} {heap : Json.Heap}
    {parsed : ParseResult Num} (h : cJSONParse doubles content heap = some parsed) :
    parsed.heap.live.val = heap.live.val + childBlocks parsed.item.toList := by
  obtain ⟨result, hresult, hparsed⟩ :=
    cJSONParseWithLengthOpts_textParsed doubles (content.takeWhile (· ≠ 0) ++ [0]) false heap
  obtain rfl := Option.some.inj (hresult.symm.trans h)
  cases hparsed with
  | refused hlive _ =>
    rw [hlive]
    exact (add_zero _).symm
  | read hlive _ _ =>
    rw [hlive]
    simp [childBlocks]

end Accounts

/-- A system that has memory and descriptors for every pipe. -/
def smallPlatform : Platform ℤ where
  line := lineOf64
  toU64 n := some (UInt64.ofInt n)
  pipeCall _ := ⟨oneBlock, some 5, some 6, emptyHundred⟩

/-- A handler with two buffers of 16 bytes, as a text. -/
def oneHandler : List UInt8 := ascii (
  "\x7b\"name\": \"modbus_with_postgres\", \"enabled\": true, " ++
  "\"modbus\": \x7b\"mem\": \"8mB\", \"scratch_size\": \"128kB\"\x7d, " ++
  "\"postgres\": \x7b\"mem\": \"8mB\", \"scratch_size\": \"128kB\"\x7d, " ++
  "\"pipe\": \x7b\"buf_count\": 2, \"buf_size\": \"16\"\x7d, " ++
  "\"testing\": \x7b\"enabled\": true\x7d\x7d")

/-- Two handlers; the second one is not enabled. -/
def secondDisabled : List UInt8 :=
  ascii "\x7b\"data_handlers\": [" ++ oneHandler ++ ascii ", \x7b\"enabled\": false\x7d]\x7d"

end Lmalloc.Handler
