import ChipEight.Fault
import ChipEight.Memory

/-!
# Checked memory access

A span is a range of addresses that an instruction asks for at once.  It may be
read if it ends inside memory, and written if it also keeps clear of the font.
A refusal names the first address that is at fault.
-/

namespace ChipEight

structure Span where
  start : Word
  length : Nat
  deriving DecidableEq

namespace Span

/-- One past the last address. -/
def stop (span : Span) : Nat :=
  span.start.toNat + span.length

/-- Why a span cannot be read. -/
def readFault? (span : Span) : Option Fault :=
  if memorySize < span.stop then
    some (.outOfRange (max span.start 0x1000))
  else
    none

/-- Why a span cannot be written.  An empty span strictly inside the font is
refused too. -/
def writeFault? (span : Span) : Option Fault :=
  match span.readFault? with
  | some fault => some fault
  | none =>
    if span.start.toNat < fontEnd.toNat ∧ fontStart.toNat < span.stop then
      some (.protectedWrite (max span.start fontStart))
    else
      none

end Span

namespace Memory

/-- The bytes of a span, if it lies inside memory. -/
def read (memory : Memory) (span : Span) : Except Fault (List UInt8) :=
  match span.readFault? with
  | some fault => .error fault
  | none => .ok (memory.slice span.start.toNat span.length)

/-- Whether programs may write a span. -/
def checkWritable (span : Span) : Except Fault Unit :=
  match span.writeFault? with
  | some fault => .error fault
  | none => .ok ()

end Memory

end ChipEight
