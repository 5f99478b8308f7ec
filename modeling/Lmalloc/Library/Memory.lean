/-
  Lmalloc/Library/Memory.lean
  ===========================
  **Byte-addressed memory.**

  Memory is a total function from addresses to bytes; a pointer is an address and
  never wraps.  `fill` overwrites a span with one byte, as `memset` and
  `explicit_bzero` do, and changes nothing outside the span.
-/
import Lmalloc.Library.Span

namespace Lmalloc.Library

abbrev Addr := ℕ

abbrev Memory := Addr → UInt8

namespace Memory

def fill (m : Memory) (s : Span) (v : UInt8) : Memory := fun a =>
  if s.start ≤ a ∧ a < s.stop then v else m a

theorem fill_of_mem {m : Memory} {s : Span} {v : UInt8} {a : Addr} (h : a ∈ s.cells) :
    m.fill s v a = v := if_pos h

/-- Frame rule: a fill changes no byte outside its span. -/
theorem fill_of_notMem {m : Memory} {s : Span} {v : UInt8} {a : Addr} (h : a ∉ s.cells) :
    m.fill s v a = m a := if_neg h

end Memory

end Lmalloc.Library
