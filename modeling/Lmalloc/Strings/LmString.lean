/-
  Lmalloc/Strings/LmString.lean
  =============================
  **The strings of `lm.h`.**

  An `LmString` points behind a header of three words (the arena, the length, the
  capacity) to its bytes, which a `NUL` follows.  Header and bytes are ordinary
  memory of the arena.  A string that needs room reserves bytes from the end of
  its arena and counts them into its capacity; it never moves.

  The functions that copy have no result when `memcpy` or `strlen` has none;
  inside a result, `none` is the null pointer.
-/
import Lmalloc.Arena.UArena
import Lmalloc.Library.CMemory

namespace Lmalloc.Strings

open Lmalloc.Library Lmalloc.Arena

/-- The arenas, by the address of their `UArena`, and all other memory. -/
structure Store where
  arenas : Addr → UArena
  memory : Memory

def Store.setArena (st : Store) (p : Addr) (ua : UArena) : Store :=
  { st with arenas := Function.update st.arenas p ua }

/-! ### The header -/

/-- `sizeof(LmStringHeader)`: the fields `ua`, `len` and `cap`. -/
def headerSize : ℕ := 24

def lmStringUa (m : Memory) (string : Addr) : Addr := (m.loadWord (string - headerSize)).toNat

def lmStringLen (m : Memory) (string : Addr) : UInt64 := m.loadWord (string - headerSize + 8)

def lmStringCap (m : Memory) (string : Addr) : UInt64 := m.loadWord (string - headerSize + 16)

def lmStringSpaceAvail (m : Memory) (string : Addr) : UInt64 :=
  lmStringCap m string - lmStringLen m string

def lmStringSetLen (m : Memory) (string : Addr) (len : UInt64) : Memory :=
  m.storeWord (string - headerSize + 8) len

def lmStringSetCap (m : Memory) (string : Addr) (cap : UInt64) : Memory :=
  m.storeWord (string - headerSize + 16) cap

/-! ### Making a string -/

/-- `lm__string_make__`; `ua_zalloc` gets the header, the bytes and the `NUL`. -/
def lmStringMakeOf (st : Store) (initString : Option Addr) (len : UInt64) (ua : Addr) :
    Option (Option Addr × Store) :=
  match uaZalloc (st.arenas ua) (UInt64.ofNat headerSize + len + 1) st.memory with
  | (none, _, _) => some (none, st)
  | (some mem, arena, m) =>
      let string := mem + headerSize
      let m := m.storeWord mem (UInt64.ofNat ua)
      let m := lmStringSetLen m string len
      let m := lmStringSetCap m string len
      let copied : Option Memory :=
        match initString with
        | some init => if 0 < len then m.copy? string init len.toNat else some m
        | none => some m
      copied.map fun m =>
        (some string,
          { arenas := Function.update st.arenas ua arena
            memory := m.write (string + len.toNat) [0] })

/-- `lm_string_make`; a null pointer makes an empty string. -/
def lmStringMake (st : Store) (string : Option Addr) (ua : Addr) :
    Option (Option Addr × Store) :=
  match string with
  | none => lmStringMakeOf st none 0 ua
  | some p => (st.memory.strlen p).bind fun n =>
      lmStringMakeOf st (some p) (UInt64.ofNat n) ua

def lmStringDup (st : Store) (string ua : Addr) : Option (Option Addr × Store) :=
  lmStringMakeOf st (some string) (lmStringLen st.memory string) ua

/-! ### Changing a string -/

def lmStringClear (st : Store) (string : Addr) : Store :=
  { st with memory := (lmStringSetLen st.memory string 0).write string [0] }

/-- If the new length wraps, so does the address of the byte at its index. -/
def lmStringBackspace (st : Store) (string : Addr) (n : UInt64) : Store :=
  let len := lmStringLen st.memory string
  let newLen := len - n
  let nul := if n ≤ len then string + newLen.toNat else (string + newLen.toNat) % 2 ^ 64
  { st with memory := (lmStringSetLen st.memory string newLen).write nul [0] }

def lmStringMakeSpace (st : Store) (string : Addr) (addLen : UInt64) : Option Addr × Store :=
  let available := lmStringSpaceAvail st.memory string
  if available < addLen then
    let ua := lmStringUa st.memory string
    let reserved := uaReserve (st.arenas ua) addLen
    let st := st.setArena ua reserved.2
    if reserved.1 < addLen then (none, st)
    else
      let newCap := lmStringCap st.memory string + addLen
      (some string, { st with memory := lmStringSetCap st.memory string newCap })
  else (some string, st)

/-- `lm__string_append__`. -/
def lmStringAppendOf (st : Store) (string other : Addr) (otherLen : UInt64) :
    Option (Option Addr × Store) :=
  match lmStringMakeSpace st string otherLen with
  | (none, st) => some (none, st)
  | (some string, st) =>
      let curLen := lmStringLen st.memory string
      (st.memory.copy? (string + curLen.toNat) other otherLen.toNat).map fun m =>
        let m := lmStringSetLen m string (curLen + otherLen)
        (some string, { st with memory := m.write (string + (curLen + otherLen).toNat) [0] })

def lmStringAppend (st : Store) (string other : Addr) : Option (Option Addr × Store) :=
  lmStringAppendOf st string other (lmStringLen st.memory other)

def lmStringAppendC (st : Store) (string other : Addr) : Option (Option Addr × Store) :=
  (st.memory.strlen other).bind fun n => lmStringAppendOf st string other (UInt64.ofNat n)

/-- `lm_string_append_fmt` with its buffer of 1024 bytes at `buf`.  `vsnprintf`
    stores at most 1022 bytes of the expansion and returns its whole length. -/
def lmStringAppendFmt (st : Store) (string buf : Addr) (expansion : List UInt8) :
    Option (Option Addr × Store) :=
  let m := (st.memory.fill ⟨buf, 1024⟩ 0).write buf (expansion.take 1022)
  lmStringAppendOf { st with memory := m } string buf (UInt64.ofNat expansion.length)

def lmStringSet (st : Store) (string cString : Addr) : Option (Option Addr × Store) :=
  (st.memory.strlen cString).bind fun n =>
    let len := UInt64.ofNat n
    match lmStringMakeSpace st string len with
    | (none, st) => some (none, st)
    | (some string, st) =>
        (st.memory.copy? string cString len.toNat).map fun m =>
          let m := m.write (string + len.toNat) [0]
          (some string, { st with memory := lmStringSetLen m string len })

end Lmalloc.Strings
