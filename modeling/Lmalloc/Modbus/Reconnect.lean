/-
  Lmalloc/Modbus/Reconnect.lean
  =============================
  **Reconnecting uses up the arena of `MbRun`.**

  `MbPrepareCtx` pushes a context, an array of one connection, the configuration
  file and the address string onto the arena that it is given.  Nothing takes them
  back, neither where it fails nor before the next call.  The second call of a run
  finds the arena higher than the first, and after enough calls the push of the
  context is refused and its null pointer followed.

  What the calls of the operating system return, and what the text of the file
  parses to, is different for each attempt; an attempt carries it.
-/
import Lmalloc.Library.Run
import Lmalloc.Strings.LmString

namespace Lmalloc.Modbus

open Lmalloc.Library Lmalloc.Arena

/-! ### What an attempt meets -/

/-- A configuration file that `fopen` and `fseek` have accepted: the position that
    `ftell` returns, `none` for -1, and the bytes that `fread` counts. -/
structure ConfFile where
  ftell : Option ℕ
  bytesRead : UInt64
  ftell_lt : ∀ n ∈ ftell, n < 2 ^ 63

/-- `(u64)ftell(File)`. -/
def ConfFile.fileSize (f : ConfFile) : UInt64 :=
  match f.ftell with
  | none => -1
  | some n => UInt64.ofNat n

/-- `sizeof(sdb_file_data) + FileSize + 1`. -/
def ConfFile.fileDataSize (f : ConfFile) : UInt64 := 8 + f.fileSize + 1

/-- The text that the parser has found for `IpAddr`; it ends inside the address space. -/
structure IpText where
  length : ℕ
  length_lt : length < 2 ^ 57

/-- What `Sdb__StringMake__` takes for it: the header, the bytes and the `NUL`. -/
def IpText.stringSize (ip : IpText) : UInt64 :=
  UInt64.ofNat Strings.headerSize + UInt64.ofNat ip.length + 1

structure Attempt where
  scratch : Bool             -- `ScratchGet` finds an arena
  file : Option ConfFile     -- `none` if `fopen` or `fseek` fails
  parsed : Option IpText     -- `none` if the address or the port is missing
  socket : Bool
  connected : Bool

/-! ### The functions -/

/-- `sizeof(modbus_ctx)` -/
def modbusCtxSize : UInt64 := 16

/-- `sizeof(mb_conn)` -/
def mbConnSize : UInt64 := 16

def sdbLoadFileIntoMemory (a : UArena) : Option ConfFile → Option Addr × UArena
  | none => (none, a)
  | some f =>
      match uaAlloc a f.fileDataSize with
      | (none, a) => (none, a)
      | (some fileData, a) =>
          if f.bytesRead ≠ f.fileSize then (none, uaPop a f.fileDataSize) else (some fileData, a)

/-- `inet_pton` follows the pointer to the address. -/
def socketCreate (ip : Option Addr) (t : Attempt) : Option Bool :=
  if t.socket = false then some false else ip.map fun _ => t.connected

/-- The loop over the connections; `ConnCount` is 1. -/
def connectConns (conns : Option Addr) (a : UArena) (ip : IpText) (t : Attempt) :
    Option (Bool × UArena) :=
  conns.bind fun _ =>
    let made := uaAlloc a ip.stringSize
    (socketCreate made.1 t).map fun connected => (connected, made.2)

/-- Whether `MbPrepareCtx` returns a context, and the arena it leaves.  It has no
    result where it follows a null pointer. -/
def mbPrepareCtx (a : UArena) (t : Attempt) : Option (Bool × UArena) :=
  match uaAlloc a modbusCtxSize with
  | (none, _) => none
  | (some _, a) =>
      let conns := uaAlloc a mbConnSize
      if t.scratch = false then some (false, conns.2)
      else
        match sdbLoadFileIntoMemory conns.2 t.file with
        | (none, a) => some (false, a)
        | (some _, a) =>
            match t.parsed with
            | none => some (false, a)
            | some ip => connectConns conns.1 a ip t

/-- An attempt in the loop of `MbRun`, which does nothing else with the arena. -/
def reconnect (a : UArena) (t : Attempt) : Option UArena := (mbPrepareCtx a t).map Prod.snd

/-! ### What an allocation takes -/

/-- A position in its memory, which is part of the address space. -/
structure Mapped (a : UArena) : Prop where
  cur_le : a.cur.toNat ≤ a.cap.toNat
  cap_lt : a.cap.toNat < 2 ^ 57

/-- The bytes behind the position. -/
def room (a : UArena) : ℕ := a.cap.toNat - a.cur.toNat

/-- `n` bytes more are taken. -/
structure Took (a : UArena) (n : ℕ) (a' : UArena) : Prop where
  mapped : Mapped a'
  cur_eq : a'.cur.toNat = a.cur.toNat + n
  cap_eq : a'.cap = a.cap

section Took

variable {a a' a'' : UArena} {n m : ℕ} {size : UInt64}

theorem Took.trans (h : Took a n a') (h' : Took a' m a'') : Took a (n + m) a'' :=
  ⟨h'.mapped, by rw [h'.cur_eq, h.cur_eq, Nat.add_assoc], h'.cap_eq.trans h.cap_eq⟩

theorem Took.refl (h : Mapped a) : Took a 0 a := ⟨h, rfl, rfl⟩

theorem Took.room_eq (h : Took a n a') : room a' = room a - n := by
  rw [room, room, h.cap_eq, h.cur_eq, Nat.sub_sub]

theorem Took.le_room (h : Took a n a') : n ≤ room a := by
  have hle := h.mapped.cur_le
  rw [h.cap_eq, h.cur_eq] at hle
  exact Nat.le_sub_of_add_le' hle

theorem Mapped.fits (h : Mapped a) (hroom : size.toNat ≤ room a) :
    a.cur.toNat + size.toNat ≤ a.cap.toNat := Nat.add_le_of_le_sub' h.cur_le hroom

theorem uaAlloc_of_room (h : Mapped a) (hroom : size.toNat ≤ room a) :
    ∃ p a', uaAlloc a size = (some p, a') ∧ Took a size.toNat a' := by
  have hfit := h.fits hroom
  have hsum := toNat_cur_add hfit
  refine ⟨a.top, { a with cur := a.cur + size }, uaAlloc_of_fits hfit, ⟨?_, h.cap_lt⟩, hsum, rfl⟩
  rw [hsum]
  exact hfit

theorem uaAlloc_of_no_room (h : Mapped a) (hsize : size.toNat < 2 ^ 63 + 2 ^ 62)
    (hroom : room a < size.toNat) : uaAlloc a size = (none, a) := by
  have hcur := h.cur_le
  have hcap := h.cap_lt
  have hlt : a.cur.toNat + size.toNat < 2 ^ 64 := by omega
  have hfull : ¬ a.cur.toNat + size.toNat ≤ a.cap.toNat := by
    rw [room] at hroom
    omega
  rw [uaAlloc_of_lt hlt, if_neg hfull]

/-- What is popped right behind its push has never been there. -/
theorem uaPop_uaAlloc (h : Mapped a) (hroom : size.toNat ≤ room a) :
    uaPop (uaAlloc a size).2 size = a := by
  have hcap := h.cap_lt
  have hfit := h.fits hroom
  have hsum := toNat_cur_add hfit
  have hle : size.toNat ≤ (a.cur + size).toNat := by
    rw [hsum]
    exact Nat.le_add_left _ _
  rw [uaAlloc_of_fits hfit, uaPop_of_lt (by rw [hsum]; omega) (by omega)]
  simp only [hle, if_true, UInt64.add_sub_cancel]

theorem Took.of_uaAlloc (h : Mapped a) (hsize : size.toNat < 2 ^ 63 + 2 ^ 62) :
    ∃ n, Took a n (uaAlloc a size).2 := by
  rcases Nat.lt_or_ge (room a) size.toNat with hfull | hroom
  · rw [uaAlloc_of_no_room h hsize hfull]
    exact ⟨0, Took.refl h⟩
  · obtain ⟨p, a', halloc, htook⟩ := uaAlloc_of_room h hroom
    rw [halloc]
    exact ⟨_, htook⟩

end Took

/-! ### Which null pointers an attempt follows -/

/-- What is left for the file behind the context, and behind the array if that has
    found room. -/
def roomForFile (a : UArena) : ℕ := if 32 ≤ room a then room a - 32 else room a - 16

/-- The attempt gets the whole file. -/
structure Loads (a : UArena) (t : Attempt) (f : ConfFile) : Prop where
  scratch : t.scratch = true
  file : t.file = some f
  complete : f.bytesRead = f.fileSize
  fits : f.fileDataSize.toNat ≤ roomForFile a

/-- There is room for the context, for the array if it is written, and for the address
    if a socket is to be connected to it. -/
def FollowsNoNull (a : UArena) (t : Attempt) : Prop :=
  16 ≤ room a ∧ ∀ f ip, Loads a t f → t.parsed = some ip →
    32 ≤ room a ∧ (t.socket = true → 32 + f.fileDataSize.toNat + (25 + ip.length) ≤ room a)

section Attempts

variable {a : UArena} {t : Attempt} {ip : IpText} {conns : Option Addr}

theorem ConfFile.fileDataSize_lt (f : ConfFile) : f.fileDataSize.toNat < 2 ^ 63 + 2 ^ 62 := by
  have height : (8 : UInt64).toNat = 8 := rfl
  have hone : (1 : UInt64).toNat = 1 := rfl
  rw [fileDataSize, UInt64.toNat_add, UInt64.toNat_add, height, hone, fileSize]
  cases hftell : f.ftell with
  | none => decide
  | some n =>
    have hlt := f.ftell_lt n hftell
    change ((8 + (UInt64.ofNat n).toNat) % 2 ^ 64 + 1) % 2 ^ 64 < _
    rw [Word.toNat_ofNat_of_lt hlt]
    omega

theorem IpText.toNat_stringSize (ip : IpText) : ip.stringSize.toNat = 25 + ip.length := by
  have hlt := ip.length_lt
  have hheader : (UInt64.ofNat Strings.headerSize).toNat = 24 := rfl
  have hone : (1 : UInt64).toNat = 1 := rfl
  rw [stringSize, UInt64.toNat_add, UInt64.toNat_add, hheader, hone,
    Word.toNat_ofNat_of_lt (hlt.trans (by decide))]
  omega

/-- The file is loaded, or the arena is as before. -/
theorem sdbLoadFileIntoMemory_cases (h : Mapped a) (file : Option ConfFile) :
    (∃ f p a', file = some f ∧ f.bytesRead = f.fileSize ∧
        sdbLoadFileIntoMemory a file = (some p, a') ∧ Took a f.fileDataSize.toNat a') ∨
      (sdbLoadFileIntoMemory a file = (none, a) ∧
        ∀ f, file = some f → f.bytesRead = f.fileSize → room a < f.fileDataSize.toNat) := by
  cases file with
  | none =>
    right
    refine ⟨rfl, ?_⟩
    intro f hf
    cases hf
  | some f =>
    rcases Nat.lt_or_ge (room a) f.fileDataSize.toNat with hfull | hroom
    · right
      refine ⟨?_, ?_⟩
      · simp only [sdbLoadFileIntoMemory, uaAlloc_of_no_room h f.fileDataSize_lt hfull]
      · intro g hg _
        cases hg
        exact hfull
    · obtain ⟨p, a', halloc, htook⟩ := uaAlloc_of_room h hroom
      have hpop := uaPop_uaAlloc h hroom
      rw [halloc] at hpop
      by_cases hread : f.bytesRead = f.fileSize
      · left
        refine ⟨f, p, a', rfl, hread, ?_, htook⟩
        simp only [sdbLoadFileIntoMemory, halloc, hread, ne_eq, not_true_eq_false, if_false]
      · right
        refine ⟨?_, ?_⟩
        · simp only [sdbLoadFileIntoMemory, halloc, hread, ne_eq, not_false_eq_true, if_true, hpop]
        · intro g hg hcomplete
          cases hg
          exact absurd hcomplete hread

theorem connectConns_cases (h : Mapped a) :
    (connectConns conns a ip t = none ∧
        (conns = none ∨ t.socket = true ∧ room a < 25 + ip.length)) ∨
      ∃ ok n a', connectConns conns a ip t = some (ok, a') ∧ Took a n a' ∧ conns ≠ none ∧
        (t.socket = true → 25 + ip.length ≤ room a) := by
  have hsize := ip.toNat_stringSize
  have hlt := ip.length_lt
  cases conns with
  | none =>
    left
    exact ⟨rfl, Or.inl rfl⟩
  | some c =>
    have hsmall : ip.stringSize.toNat < 2 ^ 63 + 2 ^ 62 := by
      rw [hsize]
      omega
    obtain ⟨n, htook⟩ := Took.of_uaAlloc h hsmall
    cases hsocket : t.socket with
    | false =>
      right
      refine ⟨false, n, _, ?_, htook, Option.some_ne_none c, ?_⟩
      · simp only [connectConns, socketCreate, hsocket, Option.bind_some, if_true, Option.map_some]
      · intro htrue
        cases htrue
    | true =>
      rcases Nat.lt_or_ge (room a) (25 + ip.length) with hfull | hroom
      · left
        refine ⟨?_, Or.inr ⟨rfl, hfull⟩⟩
        rw [← hsize] at hfull
        have halloc := uaAlloc_of_no_room h hsmall hfull
        simp only [connectConns, socketCreate, halloc, hsocket, Option.bind_some, Option.map_none,
          Bool.true_eq_false, if_false]
      · right
        have hfits : ip.stringSize.toNat ≤ room a := hsize ▸ hroom
        obtain ⟨p, a', halloc, htook'⟩ := uaAlloc_of_room h hfits
        refine ⟨t.connected, _, a', ?_, htook', Option.some_ne_none c, fun _ => hroom⟩
        simp only [connectConns, socketCreate, halloc, hsocket, Option.bind_some, Option.map_some,
          Bool.true_eq_false, if_false]

/-- An attempt that ends before the connections follows none of their pointers. -/
theorem followsNoNull_of_stops (h : 16 ≤ room a) (hstops : ∀ f, Loads a t f → t.parsed = none) :
    FollowsNoNull a t := by
  refine ⟨h, ?_⟩
  intro f ip hloads hparsed
  rw [hstops f hloads] at hparsed
  cases hparsed

theorem Loads.followsNoNull_iff {f : ConfFile} (h : Loads a t f) (hparsed : t.parsed = some ip) :
    FollowsNoNull a t ↔ 32 ≤ room a ∧
      (t.socket = true → 32 + f.fileDataSize.toNat + (25 + ip.length) ≤ room a) := by
  constructor
  · intro hfollows
    exact hfollows.2 f ip h hparsed
  · rintro ⟨hlarge, haddress⟩
    refine ⟨(by decide : 16 ≤ 32).trans hlarge, ?_⟩
    intro g ip' hg hip
    have hfile : g = f := Option.some.inj (hg.file.symm.trans h.file)
    have htext : ip' = ip := Option.some.inj (hip.symm.trans hparsed)
    subst hfile htext
    exact ⟨hlarge, haddress⟩

/-- The array behind the context, and the room the two leave for the file. -/
theorem pushConns_cases {a₁ : UArena} (htook₁ : Took a 16 a₁) :
    ∃ k conns a₂, uaAlloc a₁ mbConnSize = (conns, a₂) ∧ Took a (16 + k) a₂ ∧
      room a₂ = roomForFile a ∧ (conns = none ↔ ¬ 32 ≤ room a) := by
  have hroom₁ := htook₁.room_eq
  have hle := htook₁.le_room
  have hconn : mbConnSize.toNat = 16 := rfl
  rcases Nat.lt_or_ge (room a₁) 16 with hfull₁ | hroom₁'
  · have hsmall : ¬ 32 ≤ room a := by omega
    have halloc := @uaAlloc_of_no_room a₁ mbConnSize htook₁.mapped (by decide) hfull₁
    refine ⟨0, none, a₁, halloc, htook₁, ?_, fun _ => hsmall, fun _ => rfl⟩
    rw [roomForFile, if_neg hsmall, hroom₁]
  · have hlarge : 32 ≤ room a := by omega
    obtain ⟨p, a₂, halloc, htook₂⟩ := @uaAlloc_of_room a₁ mbConnSize htook₁.mapped hroom₁'
    rw [hconn] at htook₂
    have htook := htook₁.trans htook₂
    refine ⟨16, some p, a₂, halloc, htook, ?_, ?_, fun hsmall => absurd hlarge hsmall⟩
    · rw [roomForFile, if_pos hlarge, htook.room_eq]
    · intro hnone
      cases hnone

/-- **Every attempt keeps at least its context, or it follows a null pointer.** -/
theorem mbPrepareCtx_cases (h : Mapped a) (t : Attempt) :
    (mbPrepareCtx a t = none ∧ ¬ FollowsNoNull a t) ∨
      ∃ ok n a', mbPrepareCtx a t = some (ok, a') ∧ 16 ≤ n ∧ Took a n a' ∧
        FollowsNoNull a t := by
  rcases Nat.lt_or_ge (room a) 16 with hfull | hroom
  · left
    refine ⟨?_, fun hfollows => Nat.not_le_of_lt hfull hfollows.1⟩
    have halloc := @uaAlloc_of_no_room a modbusCtxSize h (by decide) hfull
    simp only [mbPrepareCtx, halloc]
  obtain ⟨p, a₁, halloc, htook₁⟩ := @uaAlloc_of_room a modbusCtxSize h hroom
  obtain ⟨k, conns, a₂, hconns, htook₂, hleft, hnull⟩ := pushConns_cases htook₁
  by_cases hscratch : t.scratch = false
  · right
    refine ⟨false, 16 + k, a₂, ?_, Nat.le_add_right _ _, htook₂, followsNoNull_of_stops hroom ?_⟩
    · simp only [mbPrepareCtx, halloc, hconns, hscratch, if_true]
    · intro f hloads
      rw [hloads.scratch] at hscratch
      cases hscratch
  rw [Bool.not_eq_false] at hscratch
  rcases sdbLoadFileIntoMemory_cases htook₂.mapped t.file with
    ⟨f, p', a₃, hfile, hcomplete, hload, htook₃⟩ | ⟨hload, hrefused⟩
  · have hloads : Loads a t f := ⟨hscratch, hfile, hcomplete, hleft ▸ htook₃.le_room⟩
    have htook := htook₂.trans htook₃
    cases hparsed : t.parsed with
    | none =>
      right
      refine ⟨false, _, a₃, ?_, Nat.le_add_right_of_le (Nat.le_add_right _ _), htook,
        followsNoNull_of_stops hroom fun _ _ => hparsed⟩
      simp only [mbPrepareCtx, halloc, hconns, hscratch, hload, hparsed, Bool.true_eq_false,
        if_false]
    | some ip =>
      have hcall : mbPrepareCtx a t = connectConns conns a₃ ip t := by
        simp only [mbPrepareCtx, halloc, hconns, hscratch, hload, hparsed, Bool.true_eq_false,
          if_false]
      have hroom₃ : room a₃ = roomForFile a - f.fileDataSize.toNat := by
        rw [htook₃.room_eq, hleft]
      have hfits := hloads.fits
      rw [hcall, hloads.followsNoNull_iff hparsed]
      -- with the array in place the room behind the file decides
      rcases @connectConns_cases a₃ t ip conns htook₃.mapped with
        ⟨hnone, hwhy⟩ | ⟨ok, n, a', hsome, htook', hconns', hsocket⟩
      · left
        refine ⟨hnone, ?_⟩
        rintro ⟨hlarge, haddress⟩
        rw [roomForFile, if_pos hlarge] at hroom₃ hfits
        rcases hwhy with hconns' | ⟨hsocket, hfull⟩
        · exact hnull.mp hconns' hlarge
        · have hneeded := haddress hsocket
          omega
      · right
        have hlarge : 32 ≤ room a := by
          by_contra hsmall
          exact hconns' (hnull.mpr hsmall)
        rw [roomForFile, if_pos hlarge] at hroom₃ hfits
        refine ⟨ok, _, a', hsome, ?_, htook.trans htook', hlarge, ?_⟩
        · rw [Nat.add_assoc, Nat.add_assoc]
          exact Nat.le_add_right _ _
        · intro htrue
          have hneeded := hsocket htrue
          omega
  · right
    refine ⟨false, 16 + k, a₂, ?_, Nat.le_add_right _ _, htook₂, followsNoNull_of_stops hroom ?_⟩
    · simp only [mbPrepareCtx, halloc, hconns, hscratch, hload, Bool.true_eq_false, if_false]
    · intro f hloads
      have hfull := hrefused f hloads.file hloads.complete
      rw [hleft] at hfull
      exact absurd hloads.fits (Nat.not_le_of_lt hfull)

end Attempts

/-! ### Runs -/

/-- An attempt finds the arena where the first one has found it, ends as it would have
    ended then, and follows no null pointer. -/
structure Unaffected (a b : UArena) (t : Attempt) : Prop where
  position : uaPos b = uaPos a
  asFirst : mbPrepareCtx b t = mbPrepareCtx a t
  noNull : mbPrepareCtx b t ≠ none

section Runs

variable {a a' : UArena} {t : Attempt}

/-- What a run gets from each of its attempts. -/
theorem reconnect_cases (h : Mapped a) (t : Attempt) :
    (reconnect a t = none ∧ ¬ FollowsNoNull a t) ∨
      ∃ n a', reconnect a t = some a' ∧ 16 ≤ n ∧ Took a n a' ∧ FollowsNoNull a t := by
  rcases mbPrepareCtx_cases h t with ⟨hnone, hnot⟩ | ⟨ok, n, a', hsome, hn, htook, hfollows⟩
  · left
    refine ⟨?_, hnot⟩
    rw [reconnect, hnone, Option.map_none]
  · right
    refine ⟨n, a', ?_, hn, htook, hfollows⟩
    rw [reconnect, hsome, Option.map_some]

/-- **Enough attempts exhaust every arena**: one of them follows a null pointer. -/
theorem run_reconnect_exhausts (h : Mapped a) (ts : List Attempt)
    (hmany : room a < 16 * ts.length) : run reconnect a ts = none := by
  induction ts generalizing a with
  | nil => exact absurd hmany (Nat.not_lt_zero _)
  | cons t ts ih =>
    rcases reconnect_cases h t with ⟨hnone, _⟩ | ⟨n, a', hsome, hn, htook, _⟩
    · simp only [run, hnone]
    · rw [run_cons_of_step hsome]
      have hle := htook.le_room
      rw [List.length_cons] at hmany
      apply ih htook.mapped
      rw [htook.room_eq]
      omega

/-- **Only a run of one attempt finds the arena where the first one did**; and that
    attempt must find room for what it follows. -/
theorem reconnects_unaffected_iff (h : Mapped a) (ts : List Attempt) :
    Along reconnect (Unaffected a) a ts ↔ ts.length ≤ 1 ∧ ∀ t ∈ ts, FollowsNoNull a t := by
  cases ts with
  | nil => exact ⟨fun _ => ⟨Nat.zero_le 1, fun t ht => absurd ht List.not_mem_nil⟩, fun _ => trivial⟩
  | cons t ts =>
    constructor
    · rintro ⟨hfirst, hrest⟩
      rcases mbPrepareCtx_cases h t with ⟨hnone, _⟩ | ⟨ok, n, a', hsome, hn, htook, hfollows⟩
      · exact absurd hnone hfirst.noNull
      · cases ts with
        | nil =>
          refine ⟨Nat.le_refl 1, ?_⟩
          intro u hu
          rw [List.mem_singleton.mp hu]
          exact hfollows
        | cons u us =>
          -- the second attempt finds the arena higher
          have hstep : reconnect a t = some a' := by
            rw [reconnect, hsome, Option.map_some]
          have hposition := congrArg UInt64.toNat (hrest a' hstep).1.position
          change a'.cur.toNat = a.cur.toNat at hposition
          rw [htook.cur_eq] at hposition
          omega
    · rintro ⟨hone, hfollows⟩
      have hnil : ts = [] := List.eq_nil_of_length_eq_zero (Nat.le_zero.mp (Nat.le_of_succ_le_succ hone))
      subst hnil
      have hfirst := hfollows t (List.mem_singleton_self t)
      refine ⟨⟨rfl, rfl, ?_⟩, fun _ _ => trivial⟩
      intro hnone
      rcases mbPrepareCtx_cases h t with ⟨_, hnot⟩ | ⟨ok, n, a', hsome, _⟩
      · exact hnot hfirst
      · rw [hsome] at hnone
        cases hnone

/-- The configuration file cannot be opened. -/
def noFile : Attempt := ⟨true, none, none, true, true⟩

/-- One such attempt on an arena of 4096 bytes. -/
theorem reconnects_unaffected_iff_one :
    Along reconnect (Unaffected ⟨0, 4096, 0, 0⟩) ⟨0, 4096, 0, 0⟩ [noFile] := by
  apply (reconnects_unaffected_iff ⟨by decide, by decide⟩ [noFile]).mpr
  refine ⟨Nat.le_refl 1, ?_⟩
  intro t ht
  rw [List.mem_singleton.mp ht]
  refine ⟨by decide, ?_⟩
  intro f ip hloads
  cases hloads.file

/-- **A missing configuration file.**  The second attempt finds the arena 32 bytes
    higher; of 257 attempts one follows a null pointer. -/
theorem missing_file_exhausts :
    ¬ Along reconnect (Unaffected ⟨0, 4096, 0, 0⟩) ⟨0, 4096, 0, 0⟩ [noFile, noFile] ∧
      reconnect ⟨0, 4096, 0, 0⟩ noFile = some ⟨0, 4096, 32, 0⟩ ∧
      run reconnect ⟨0, 4096, 0, 0⟩ (List.replicate 257 noFile) = none := by
  have hstep : reconnect ⟨0, 4096, 0, 0⟩ noFile = some ⟨0, 4096, 32, 0⟩ := rfl
  refine ⟨?_, hstep, ?_⟩
  · intro h
    have hposition := (h.2 _ hstep).1.position
    change (32 : UInt64) = 0 at hposition
    exact absurd hposition (by decide)
  · apply run_reconnect_exhausts ⟨by decide, by decide⟩
    rw [List.length_replicate]
    decide

end Runs

end Lmalloc.Modbus
