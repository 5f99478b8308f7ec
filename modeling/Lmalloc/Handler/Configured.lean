/-
  Lmalloc/Handler/Configured.lean
  ===============================
  **What a configuration means, and that the program builds it.**

  A value describes a handler if it says that the handler is enabled, gives the name
  the program knows, and has all the sizes.  The program makes a group for each of
  the handlers described, up to the first one that is not enabled or has another
  name.  If there is one like that, the groups before it are not started, and what
  was allocated for them stays.
-/
import Lmalloc.Handler.SetUp

namespace Lmalloc.Handler

open Lmalloc.Json Lmalloc.Arena Lmalloc.Pipe.Create Lmalloc.Strings.MemSize

variable {Num : Type}

/-! ### The meaning of a value -/

structure HandlerSpec where
  modbusMem : UInt64
  modbusScratch : UInt64
  pgMem : UInt64
  pgScratch : UInt64
  bufCount : UInt64
  bufSize : UInt64

section Meaning

variable (toU64 : Num → Option UInt64)

/-- The member of an object. -/
def memberOf (value : Json Num) (name : String) : Option (Json Num) :=
  match value with
  | .object members => (findMember (ascii name) members).map Prod.snd
  | _ => none

def sizeOfText (bytes : List UInt8) : UInt64 :=
  sdbMemSizeFromString (some (toText (upToNul bytes)))

/-- The member is a string that stands for the size. -/
def HasSize (value : Json Num) (name : String) (size : UInt64) : Prop :=
  ∃ bytes, memberOf value name = some (Json.string bytes) ∧ sizeOfText bytes = size

/-- The member is an object with two sizes. -/
def HasSizes (value : Json Num) (name : String) (mem scratch : UInt64) : Prop :=
  ∃ sizes, memberOf value name = some sizes ∧ HasSize sizes "mem" mem ∧
    HasSize sizes "scratch_size" scratch

def HasName (value : Json Num) (name : List UInt8) : Prop :=
  ∃ bytes, memberOf value "name" = some (Json.string bytes) ∧ upToNul bytes = name

def Enabled (value : Json Num) : Prop := memberOf value "enabled" = some Json.isTrue

structure Describes (value : Json Num) (spec : HandlerSpec) : Prop where
  enabled : Enabled value
  name : HasName value (ascii "modbus_with_postgres")
  modbus : HasSizes value "modbus" spec.modbusMem spec.modbusScratch
  postgres : HasSizes value "postgres" spec.pgMem spec.pgScratch
  pipe : ∃ pipe n, memberOf value "pipe" = some pipe ∧
    memberOf pipe "buf_count" = some (Json.number n) ∧ toU64 n = some spec.bufCount ∧
      HasSize pipe "buf_size" spec.bufSize
  testing : ∃ testing, memberOf value "testing" = some testing ∧ Enabled testing

/-- An object that the program makes no group for. -/
def Refused (value : Json Num) : Prop :=
  (∃ members, value = Json.object members) ∧
    (¬ Enabled value ∨ ∃ name, HasName value name ∧ name ≠ ascii "modbus_with_postgres")

/-- The group and its pipe are as specified. -/
structure Fulfils (platform : Platform Num) (spec : HandlerSpec × ℕ) (group : TgGroup) : Prop where
  groupId : group.groupId = UInt64.ofNat spec.2
  modbusMem : group.sharedData.modbusMemSize = spec.1.modbusMem
  modbusScratch : group.sharedData.modbusScratchSize = spec.1.modbusScratch
  pgMem : group.sharedData.pgMemSize = spec.1.pgMem
  pgScratch : group.sharedData.pgScratchSize = spec.1.pgScratch
  sdPipe : ∃ returned, platform.sdpCreate spec.2 spec.1.bufCount spec.1.bufSize = some returned ∧
    returned.pipe = some group.sharedData.sdPipe
  whole : group.Whole

end Meaning

/-! ### Items that hold such a value -/

section Lookups

variable {doubles : Doubles Num} {item : Item Num} {value found : Json Num} {name : String}

theorem getObjectItem_member (hname : ∀ c ∈ ascii name, c ≠ 0) (h : item.Holds doubles value)
    (hmember : memberOf value name = some found) :
    ∃ child, getObjectItem (some item) name = some child ∧ child.Holds doubles found := by
  cases value with
  | object members =>
    obtain ⟨member, hfind, rfl⟩ := Option.map_eq_some_iff.mp hmember
    have hfound := cJSONGetObjectItem_holds doubles h hname
    rw [hfind] at hfound
    generalize hget : cJSONGetObjectItem item (ascii name) = got at hfound
    cases hfound with
    | some hholds => exact ⟨_, hget, hholds⟩
  | _ => cases hmember

theorem getObjectItem_noMember {members : List (List UInt8 × Json Num)}
    (hname : ∀ c ∈ ascii name, c ≠ 0) (h : item.Holds doubles (Json.object members))
    (hmember : memberOf (Json.object members) name = none) :
    getObjectItem (some item) name = none := by
  have hfound := cJSONGetObjectItem_holds doubles h hname
  rw [Option.map_eq_none_iff.mp hmember] at hfound
  generalize hget : cJSONGetObjectItem item (ascii name) = got at hfound
  cases hfound
  exact hget

theorem kind_of_string {bytes : List UInt8} (h : item.Holds doubles (Json.string bytes)) :
    cJSONIsString (some item) = true ∧ getStringValue (some item) = some (upToNul bytes) := by
  cases h with
  | string hkind hs hbytes =>
    constructor
    · simp [cJSONIsString, hkind]
    · simp [getStringValue, cJSONGetStringValue, hkind, hs, hbytes.cString]

theorem kind_of_isTrue (h : item.Holds doubles value) :
    item.kind = Kind.isTrue ↔ value = Json.isTrue := by
  cases h <;> simp_all

theorem getObjectItem_size {size : UInt64} (hname : ∀ c ∈ ascii name, c ≠ 0)
    (h : item.Holds doubles value) (hsize : HasSize value name size) :
    cJSONIsString (getObjectItem (some item) name) = true ∧
      sdbMemSizeFromString ((getStringValue (getObjectItem (some item) name)).map toText) =
        size := by
  obtain ⟨bytes, hmember, rfl⟩ := hsize
  obtain ⟨child, hget, hholds⟩ := getObjectItem_member hname h hmember
  obtain ⟨hkind, hvalue⟩ := kind_of_string hholds
  rw [hget, hvalue]
  exact ⟨hkind, rfl⟩

theorem dhsGetMemAndScratchSize_sizes {mem scratch : UInt64} (hname : ∀ c ∈ ascii name, c ≠ 0)
    (h : item.Holds doubles value) (hsizes : HasSizes value name mem scratch) :
    dhsGetMemAndScratchSize (getObjectItem (some item) name) = some (mem, scratch) := by
  obtain ⟨sizes, hmember, hmem, hscratch⟩ := hsizes
  obtain ⟨child, hget, hholds⟩ := getObjectItem_member hname h hmember
  obtain ⟨hmemString, hmemSize⟩ := getObjectItem_size (by decide +kernel) hholds hmem
  obtain ⟨hscratchString, hscratchSize⟩ := getObjectItem_size (by decide +kernel) hholds hscratch
  rw [hget, dhsGetMemAndScratchSize, if_pos ⟨hmemString, hscratchString⟩, hmemSize, hscratchSize]

theorem getObjectItem_enabled (h : item.Holds doubles value) (henabled : Enabled value) :
    cJSONIsBool (getObjectItem (some item) "enabled") = true ∧
      cJSONIsTrue (getObjectItem (some item) "enabled") = true := by
  obtain ⟨child, hget, hholds⟩ := getObjectItem_member (by decide +kernel) h henabled
  have hkind := (kind_of_isTrue hholds).mpr rfl
  rw [hget]
  simp [cJSONIsBool, cJSONIsTrue, hkind]

theorem getObjectItem_notEnabled {members : List (List UInt8 × Json Num)}
    (h : item.Holds doubles (Json.object members)) (hnot : ¬ Enabled (Json.object members)) :
    cJSONIsTrue (getObjectItem (some item) "enabled") = false := by
  cases hmember : memberOf (Json.object members) "enabled" with
  | none =>
    rw [getObjectItem_noMember (by decide +kernel) h hmember]
    rfl
  | some found =>
    obtain ⟨child, hget, hholds⟩ := getObjectItem_member (by decide +kernel) h hmember
    have hkind : child.kind ≠ Kind.isTrue := by
      intro htrue
      rw [(kind_of_isTrue hholds).mp htrue] at hmember
      exact hnot hmember
    rw [hget]
    simp [cJSONIsTrue, hkind]

theorem getStringValue_name {bytes : List UInt8} (h : item.Holds doubles value)
    (hname : HasName value bytes) :
    getStringValue (getObjectItem (some item) "name") = some bytes := by
  obtain ⟨name, hmember, rfl⟩ := hname
  obtain ⟨child, hget, hholds⟩ := getObjectItem_member (by decide +kernel) h hmember
  rw [hget]
  exact (kind_of_string hholds).2

end Lookups

/-! ### One handler -/

section Handler

variable {doubles : Doubles Num} {platform : Platform Num} {item : Item Num} {value : Json Num}
  {spec : HandlerSpec} {w : World}

/-- The pipe that is specified can be created. -/
def PipeMade (platform : Platform Num) (spec : HandlerSpec × ℕ) : Prop :=
  ∃ returned sdPipe, platform.sdpCreate spec.2 spec.1.bufCount spec.1.bufSize = some returned ∧
    returned.pipe = some sdPipe

theorem mbPgCreateTg_described (h : item.Holds doubles value)
    (hspec : Describes platform.toU64 value spec) (hgranted : w.heap.NeverRefuses)
    (hpipe : PipeMade platform (spec, w.pipes.length)) :
    ∃ group w', mbPgCreateTg platform item (UInt64.ofNat w.pipes.length) w = some (some group, w') ∧
      Fulfils platform (spec, w.pipes.length) group ∧ w'.heap.NeverRefuses ∧
        w'.pipes.length = w.pipes.length + 1 := by
  obtain ⟨returned, sdPipe, hcreate, hreturned⟩ := hpipe
  obtain ⟨ctx, heap, hctx, hheap⟩ := Json.Heap.allocate_granted hgranted sizeofMbpgCtx
  obtain ⟨block, heap', hgroup, hheap'⟩ :=
    Json.Heap.allocate_granted hheap (sizeofTgGroup + 3 * 8 + 3 * 8)
  obtain ⟨pipe, n, hpipeMember, hcount, hn, hbufSize⟩ := hspec.pipe
  obtain ⟨testing, htesting, henabled⟩ := hspec.testing
  obtain ⟨pipeItem, hpipeGet, hpipeHolds⟩ := getObjectItem_member (by decide +kernel) h hpipeMember
  obtain ⟨countItem, hcountGet, hcountHolds⟩ :=
    getObjectItem_member (by decide +kernel) hpipeHolds hcount
  obtain ⟨testItem, htestGet, htestHolds⟩ := getObjectItem_member (by decide +kernel) h htesting
  have hnumber : cJSONGetNumberValue countItem = some n := by
    cases hcountHolds with
    | number hkind _ => simp [cJSONGetNumberValue, hkind]
  have hsize := (getObjectItem_size (by decide +kernel) hpipeHolds hbufSize).2
  have htrue := (getObjectItem_enabled htestHolds henabled).2
  refine ⟨⟨block, UInt64.ofNat w.pipes.length, 3, mbPgTestTasks, ⟨ctx, spec.modbusMem,
    spec.modbusScratch, spec.pgMem, spec.pgScratch, sdPipe, 3⟩⟩, ⟨heap', w.pipes ++ [returned]⟩, ?_,
    ⟨rfl, rfl, rfl, rfl, rfl, ⟨returned, hcreate, hreturned⟩, rfl, rfl, rfl, rfl⟩, hheap', by simp⟩
  have hmodbus := dhsGetMemAndScratchSize_sizes (by decide +kernel) h hspec.modbus
  have hpostgres := dhsGetMemAndScratchSize_sizes (by decide +kernel) h hspec.postgres
  simp only [mbPgCreateTg, hctx, mbPgCreateTgIn, hmodbus, hpostgres, hpipeGet, hcountGet, htestGet,
    hnumber, hn, hsize, htrue, Option.bind_some, hcreate, hreturned, if_true, tgCreateGroup, hgroup]

theorem dhsCreateTg_described (h : item.Holds doubles value)
    (hspec : Describes platform.toU64 value spec) (hgranted : w.heap.NeverRefuses)
    (hpipe : PipeMade platform (spec, w.pipes.length)) :
    ∃ group w', dhsCreateTg platform item (UInt64.ofNat w.pipes.length) w = some (some group, w') ∧
      Fulfils platform (spec, w.pipes.length) group ∧ w'.heap.NeverRefuses ∧
        w'.pipes.length = w.pipes.length + 1 := by
  obtain ⟨group, w', hcreate, hrest⟩ := mbPgCreateTg_described h hspec hgranted hpipe
  have hname := getStringValue_name h hspec.name
  have hknown : availableHandlers.idxOf? (ascii "modbus_with_postgres") = some 0 := by
    decide +kernel
  refine ⟨group, w', ?_, hrest⟩
  rw [dhsCreateTg, if_pos (getObjectItem_enabled h hspec.enabled), hname, Option.bind_some, hknown]
  exact hcreate

theorem dhsCreateTg_refused (h : item.Holds doubles value) (hrefused : Refused value)
    (groupId : UInt64) : dhsCreateTg platform item groupId w = some (none, w) := by
  obtain ⟨⟨members, rfl⟩, hwhy⟩ := hrefused
  by_cases henabled : Enabled (Json.object members)
  · obtain ⟨name, hname, hother⟩ := hwhy.resolve_left (not_not.mpr henabled)
    have hunknown : availableHandlers.idxOf? name = none := by
      rw [List.idxOf?_eq_none_iff, availableHandlers, List.mem_singleton]
      exact hother
    rw [dhsCreateTg, if_pos (getObjectItem_enabled h henabled), getStringValue_name h hname,
      Option.bind_some, hunknown]
  · have hfalse := getObjectItem_notEnabled h henabled
    rw [dhsCreateTg, if_neg (by simp [hfalse])]

end Handler

/-! ### All handlers -/

section Handlers

variable {doubles : Doubles Num} {platform : Platform Num} {w : World}

/-- Nothing comes behind the described handlers, or one that is refused. -/
def StopsAt (others : List (Json Num)) : Prop :=
  ∀ other ∈ others.head?, Refused other

theorem makeGroups_described {entries : ℕ} {values others : List (Json Num)}
    {specs : List HandlerSpec} (hspecs : List.Forall₂ (Describes platform.toU64) values specs)
    (hothers : StopsAt others) {confs : List (Item Num)}
    (hconfs : List.Forall₂ (Item.Holds doubles) confs (values ++ others))
    (hentries : w.pipes.length + confs.length ≤ entries) (hgranted : w.heap.NeverRefuses)
    (hpipes : ∀ spec ∈ specs.zipIdx w.pipes.length, PipeMade platform spec) :
    ∃ groups w', makeGroups platform entries w.pipes.length confs w =
        some ⟨groups, others.isEmpty, w'⟩ ∧
      List.Forall₂ (Fulfils platform) (specs.zipIdx w.pipes.length) groups ∧
      w'.heap.live.val = w.heap.live.val + (groups.map TgGroup.blocks).sum ∧
      w'.heap.NeverRefuses := by
  induction hspecs generalizing confs w with
  | nil =>
    cases others with
    | nil =>
      cases hconfs
      exact ⟨[], w, rfl, .nil, by simp, hgranted⟩
    | cons other others =>
      cases hconfs with
      | @cons conf _ confs _ hholds hrest =>
      have hrefused : dhsCreateTg platform conf (UInt64.ofNat w.pipes.length) w = some (none, w) :=
        dhsCreateTg_refused hholds (hothers other rfl) _
      refine ⟨[], w, ?_, .nil, by simp, hgranted⟩
      rw [List.length_cons] at hentries
      rw [makeGroups, hrefused, Option.bind_some, if_neg (by omega)]
      rfl
  | @cons value spec values specs hspec hspecs ih =>
    cases hconfs with
    | @cons conf _ confs _ hholds hrest =>
    rw [List.zipIdx_cons, List.forall_mem_cons] at hpipes
    obtain ⟨group, w₁, hcreate, hfulfils, hgranted₁, hlength⟩ :=
      dhsCreateTg_described hholds hspec hgranted hpipes.1
    have hmakes : MakesGroup w w₁ _ group := dhsCreateTg_makes hcreate
    rw [List.length_cons] at hentries
    obtain ⟨groups, w', hmake, hall, hlive, hgranted'⟩ :=
      ih hrest (by omega) hgranted₁ (by rw [hlength]; exact hpipes.2)
    rw [hlength] at hmake hall
    refine ⟨group :: groups, w', ?_, ?_, ?_, hgranted'⟩
    · rw [makeGroups, hcreate, Option.bind_some, if_neg (by omega)]
      simp only [hmake, Option.map_some]
    · rw [List.zipIdx_cons]
      exact .cons hfulfils hall
    · rw [hlive, hmakes.live, List.map_cons, List.sum_cons, add_assoc]

/-- What the set-up returns for these handlers, and what stays allocated. -/
structure Configures (platform : Platform Num) (w : World) (specs : List HandlerSpec)
    (complete : Bool) (r : SetUp) (groups : List TgGroup) : Prop where
  fulfils : List.Forall₂ (Fulfils platform) specs.zipIdx groups
  ret : r.ret = if complete then 0 else -1
  manager : r.manager.map TgManager.groups = if complete then some groups else none
  live : r.world.heap.live.val = w.heap.live.val + (groups.map TgGroup.blocks).sum +
    r.manager.elim 0 fun manager => {manager.block}

/-- A block that was live all the while is given back at the end. -/
theorem Configures.release {specs : List HandlerSpec} {complete : Bool} {r : SetUp}
    {groups : List TgGroup} {w₁ : World} {heap : Json.Heap} {blocks : Multiset ℕ}
    (h : Configures platform w₁ specs complete r groups)
    (hlive : w₁.heap.live.val = w.heap.live.val + blocks)
    (hreleased : heap.live.val + blocks = r.world.heap.live.val) :
    Configures platform w specs complete { r with world := { r.world with heap := heap } }
      groups := by
  refine ⟨h.fulfils, h.ret, h.manager, ?_⟩
  have hall := h.live
  rw [hlive, ← hreleased] at hall
  apply add_right_cancel (b := blocks)
  rw [hall]
  simp only [add_assoc, add_comm]

/-- The end of the set-up: a manager for the groups, if no handler was refused. -/
theorem manager_described {specs : List HandlerSpec} {groups : List TgGroup} {w' : World}
    {complete : Bool} {count : UInt64}
    (hfulfils : List.Forall₂ (Fulfils platform) specs.zipIdx groups)
    (hlive : w'.heap.live.val = w.heap.live.val + (groups.map TgGroup.blocks).sum)
    (hcount : complete = true → groups.length = count.toNat) (hgranted : w'.heap.NeverRefuses) :
    ∃ r, (if complete then tgCreateManager groups count w' else some ⟨-1, none, w'⟩) = some r ∧
      Configures platform w specs complete r groups := by
  cases complete with
  | false => exact ⟨_, rfl, hfulfils, rfl, rfl, by simpa using hlive⟩
  | true =>
    obtain ⟨block, heap, hblock, -⟩ :=
      Json.Heap.allocate_granted hgranted (sizeofTgManager + count.toNat * 8)
    have hlen := hcount rfl
    have hall : groups.take count.toNat = groups := by rw [← hlen, List.take_length]
    refine ⟨⟨0, some ⟨block, groups⟩, { w' with heap := heap }⟩, ?_, hfulfils, rfl, rfl, ?_⟩
    · simp only [tgCreateManager, hblock, if_true, if_pos (Nat.le_of_eq hlen.symm), hall]
    · rw [Json.Heap.allocate_some hblock, hlive]
      rfl

theorem setUpHandlers_described {heap : Json.Heap} {values others : List (Json Num)}
    {specs : List HandlerSpec} (hspecs : List.Forall₂ (Describes platform.toU64) values specs)
    (hothers : StopsAt others) {confs : List (Item Num)}
    (hconfs : List.Forall₂ (Item.Holds doubles) confs (values ++ others))
    {count : UInt64} (hcount : count.toNat = confs.length) (hfew : confs.length < 2 ^ 61)
    (hgranted : heap.NeverRefuses) (hpipes : ∀ spec ∈ specs.zipIdx, PipeMade platform spec) :
    ∃ r groups, setUpHandlers platform confs count ⟨heap, []⟩ = some r ∧
      Configures platform ⟨heap, []⟩ specs others.isEmpty r groups := by
  obtain ⟨tgs, heap₁, htgs, hheap⟩ := Json.Heap.allocate_granted hgranted (8 * count).toNat
  have hroom : (8 * count).toNat / 8 = confs.length := by
    have height : (8 : UInt64).toNat = 8 := rfl
    rw [UInt64.toNat_mul, height, hcount]
    omega
  obtain ⟨groups, w', hmake, hfulfils, hlive, hgranted'⟩ :=
    @makeGroups_described Num doubles platform ⟨heap₁, []⟩ ((8 * count).toNat / 8) values others
      specs hspecs hothers confs hconfs (by rw [hroom]; simp) hheap hpipes
  have hgroups : others.isEmpty = true → groups.length = count.toNat := by
    intro hnone
    have hlength := hconfs.length_eq
    rw [List.isEmpty_iff.mp hnone, List.append_nil, hspecs.length_eq] at hlength
    rw [← hfulfils.length_eq, hcount, hlength]
    exact List.length_zipIdx
  obtain ⟨r, hr, hconfigures⟩ := manager_described hfulfils hlive hgroups hgranted'
  have hlive₁ := Json.Heap.allocate_some htgs
  -- the array is still there
  obtain ⟨heap', hfree, hfreed⟩ : ∃ heap', r.world.heap.deallocate tgs = some heap' ∧
      heap'.live.val + {tgs} = r.world.heap.live.val := by
    apply Json.Heap.deallocate_live
    rw [hconfigures.live, hlive₁, add_assoc (heap.live.val), add_assoc, add_left_comm]
    simp
  refine ⟨{ r with world := { r.world with heap := heap' } }, groups, ?_,
    hconfigures.release hlive₁ hfreed⟩
  simp only [setUpHandlers, htgs]
  rw [show makeGroups platform ((8 * count).toNat / 8) 0 confs ⟨heap₁, []⟩ = _ from hmake,
    Option.bind_some]
  simp only [hr, Option.bind_some, hfree, Option.map_some]

end Handlers

/-! ### The whole file -/

theorem toNat_arraySize {array : Item Num} (h : array.child.length < 2 ^ 31) :
    (cJSONGetArraySize array).toInt64.toUInt64.toNat = array.child.length := by
  have hmax : (array.child.length : ℤ) ≤ Int32.maxValue.toInt := by
    change (array.child.length : ℤ) ≤ 2147483647
    omega
  rw [cJSONGetArraySize, Int32.toInt64_ofNat' hmax, Int64.toUInt64_ofNat',
    UInt64.toNat_ofNat_of_lt' (Nat.lt_of_lt_of_le h (by decide))]

section File

variable {doubles : Doubles Num} {platform : Platform Num} {conf : Json Num}
  {values others : List (Json Num)} {specs : List HandlerSpec}

theorem setUpFromItem_described {item : Item Num} (h : item.Holds doubles conf)
    (hhandlers : memberOf conf "data_handlers" = some (Json.array (values ++ others)))
    (hspecs : List.Forall₂ (Describes platform.toU64) values specs) (hothers : StopsAt others)
    (hne : values ++ others ≠ []) (hfew : (values ++ others).length < 2 ^ 31) {heap : Json.Heap}
    (hgranted : heap.NeverRefuses) (hpipes : ∀ spec ∈ specs.zipIdx, PipeMade platform spec) :
    ∃ r groups, setUpFromItem platform (some item) ⟨heap, []⟩ = some r ∧
      Configures platform ⟨heap, []⟩ specs others.isEmpty r groups := by
  obtain ⟨handlers, hget, hholds⟩ := getObjectItem_member (by decide +kernel) h hhandlers
  cases hholds with
  | array hkind hchild =>
  have hlength := hchild.length_eq
  have hcount : (cJSONGetArraySize handlers).toInt64.toUInt64.toNat = handlers.child.length :=
    toNat_arraySize (by rw [hlength]; exact hfew)
  have hnonzero : (cJSONGetArraySize handlers).toInt64.toUInt64 ≠ 0 := by
    intro hzero
    rw [hzero, hlength] at hcount
    exact hne (List.eq_nil_of_length_eq_zero hcount.symm)
  have harray : cJSONIsArray (some handlers) = true := by simp [cJSONIsArray, hkind]
  obtain ⟨r, groups, hr, hconfigures⟩ :=
    setUpHandlers_described hspecs hothers hchild hcount (by omega) hgranted hpipes
  refine ⟨r, groups, ?_, hconfigures⟩
  simp only [setUpFromItem, hget, harray, if_true, if_neg hnonzero, hr]

end File

/-! ### A configuration of two handlers, the second one not enabled -/

section TwoHandlers

variable {n : ℕ}

def stringMember (name bytes : String) (hname : Plain (ascii name)) (hbytes : Plain (ascii bytes)) :
    Written wholeNumbers n where
  name := ascii name
  value := Json.string (ascii bytes)
  text := quote :: ascii bytes ++ [quote]
  plain := hname
  reads := (Scalar.string (chars_plain hbytes)).text wholeNumbers n

def objectMember (name : String) (members : List (Written wholeNumbers n))
    (hname : Plain (ascii name)) (hne : members ≠ []) : Written wholeNumbers (n + 1) where
  name := ascii name
  value := Json.object (members.map Written.member)
  text := 123 :: commaSeparated (members.map Written.memberText) ++ [125]
  plain := hname
  reads := text_object wholeNumbers hne

def enabledMember : Written wholeNumbers n where
  name := ascii "enabled"
  value := Json.isTrue
  text := ascii "true"
  plain := by decide +kernel
  reads := Scalar.isTrue.text wholeNumbers n

def disabledMember : Written wholeNumbers n where
  name := ascii "enabled"
  value := Json.isFalse
  text := ascii "false"
  plain := by decide +kernel
  reads := Scalar.isFalse.text wholeNumbers n

def countMember : Written wholeNumbers n where
  name := ascii "buf_count"
  value := Json.number 2
  text := ascii "2"
  plain := by decide +kernel
  reads := (Scalar.number ⟨⟨50, rfl, by decide⟩, by decide +kernel, by decide,
    by decide +kernel⟩).text wholeNumbers n

def sizeMembers : List (Written wholeNumbers n) :=
  [stringMember "mem" "8mB" (by decide +kernel) (by decide +kernel),
    stringMember "scratch_size" "128kB" (by decide +kernel) (by decide +kernel)]

def enabledHandler : Written wholeNumbers 2 :=
  objectMember ""
    [stringMember "name" "modbus_with_postgres" (by decide +kernel) (by decide +kernel),
      enabledMember,
      objectMember "modbus" sizeMembers (by decide +kernel) (by simp [sizeMembers]),
      objectMember "postgres" sizeMembers (by decide +kernel) (by simp [sizeMembers]),
      objectMember "pipe"
        [countMember, stringMember "buf_size" "16" (by decide +kernel) (by decide +kernel)]
        (by decide +kernel) (by simp),
      objectMember "testing" [enabledMember] (by decide +kernel) (by simp)]
    (by decide +kernel) (by simp)

def disabledHandler : Written wholeNumbers 2 :=
  objectMember "" [disabledMember] (by decide +kernel) (by simp)

def handlersMember : Written wholeNumbers 3 where
  name := ascii "data_handlers"
  value := Json.array [enabledHandler.value, disabledHandler.value]
  text := 91 :: commaSeparated [enabledHandler.text, disabledHandler.text] ++ [93]
  plain := by decide +kernel
  reads := text_array wholeNumbers
    (.cons enabledHandler.reads (.cons disabledHandler.reads .nil)) (by simp)

def twoHandlers : Written wholeNumbers 4 :=
  objectMember "" [handlersMember] (by decide +kernel) (by simp)

def smallSpec : HandlerSpec := ⟨8388608, 131072, 8388608, 131072, 2, 16⟩

theorem describes_enabledHandler :
    Describes smallPlatform.toU64 enabledHandler.value smallSpec := by
  have hsize : sizeOfText (ascii "8mB") = 8388608 ∧ sizeOfText (ascii "128kB") = 131072 ∧
      sizeOfText (ascii "16") = 16 := by decide +kernel
  refine ⟨rfl, ⟨_, rfl, by decide +kernel⟩, ?_, ?_, ?_, _, rfl, rfl⟩
  · exact ⟨_, rfl, ⟨_, rfl, hsize.1⟩, _, rfl, hsize.2.1⟩
  · exact ⟨_, rfl, ⟨_, rfl, hsize.1⟩, _, rfl, hsize.2.1⟩
  · exact ⟨_, 2, rfl, rfl, by decide, _, rfl, hsize.2.2⟩

theorem stopsAt_disabledHandler : StopsAt [disabledHandler.value] := by
  intro other hother
  obtain rfl := Option.mem_some_iff.mp hother
  refine ⟨⟨_, rfl⟩, Or.inl fun henabled => ?_⟩
  have hmember : memberOf disabledHandler.value "enabled" = some Json.isFalse := rfl
  rw [Enabled, hmember] at henabled
  cases henabled

theorem pipeMade_smallSpec : PipeMade smallPlatform (smallSpec, 0) := by
  have hmade : (smallPlatform.sdpCreate 0 2 16).any (·.pipe.isSome) = true := by decide +kernel
  obtain ⟨returned, hcreate, hsome⟩ := (Option.any_eq_true _ _).mp hmade
  obtain ⟨sdPipe, hpipe⟩ := Option.isSome_iff_exists.mp hsome
  exact ⟨returned, sdPipe, hcreate, hpipe⟩

end TwoHandlers

end Lmalloc.Handler
