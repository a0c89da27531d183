import MoveDesk.Text.Utf8

/-!
# Slices of a text's bytes

A place in a text is an offset into its bytes, and a part of it a span of offsets. A span can be cut
out only where it lies within the bytes and does not cut a character in two. `Slicing` is a
computation that cuts out slices: it fails at the first span that does not fit.

`offset?` searches bytes, and `runSize` reads characters off the front of bytes.
-/

namespace MoveDesk.Text

/-- The offset stands before a character or at the end of the bytes. -/
def isBoundary (bytes : Bytes) (offset : Nat) : Bool :=
  match bytes[offset]? with
  | some byte => decide byte.IsUTF8FirstByte
  | none => offset == bytes.length

/-- The offsets from `start` up to `stop`. -/
structure Span where
  /-- The offset of the first byte. -/
  start : Nat
  /-- The offset behind the last byte. -/
  stop : Nat
deriving DecidableEq, Repr

namespace Span

/-- The span lies within the bytes, and both its ends lie between characters. -/
def Fits (span : Span) (bytes : Bytes) : Prop :=
  span.start ≤ span.stop ∧ span.stop ≤ bytes.length ∧
    isBoundary bytes span.start = true ∧ isBoundary bytes span.stop = true

instance (span : Span) (bytes : Bytes) : Decidable (span.Fits bytes) :=
  inferInstanceAs (Decidable (_ ∧ _ ∧ _ ∧ _))

/-- The bytes in the span. -/
def part (span : Span) (bytes : Bytes) : Bytes := (bytes.take span.stop).drop span.start

end Span

/-- A computation that cuts out slices. It keeps account of their spans, and fails with the first
span that does not fit. -/
abbrev Slicing := StateT (List Span) (Except Span)

/-- The bytes in the span, which has to fit. -/
def slice (bytes : Bytes) (span : Span) : Slicing Bytes := do
  if span.Fits bytes then
    modify (· ++ [span])
    return span.part bytes
  else throw span

/-- The offset of the first place of the needle. -/
def offset? (needle : Bytes) : Bytes → Option Nat
  | [] => if needle.isEmpty then some 0 else none
  | byte :: rest =>
    if needle.isPrefixOf (byte :: rest) then some 0 else (offset? needle rest).map (· + 1)

/-- The character at the front of the bytes. -/
def front? (bytes : Bytes) : Option Char := bytes.toByteArray.utf8DecodeChar? 0

theorem length_pos_of_front? {bytes : Bytes} {c : Char} (h : front? bytes = some c) :
    0 < bytes.length := by
  have hsize := ByteArray.le_size_of_utf8DecodeChar?_eq_some h
  have hpos := c.utf8Size_pos
  rw [List.size_toByteArray] at hsize
  omega

/-- The number of bytes in the longest run of characters of the class at the front of the bytes. -/
def runSize (p : Char → Bool) (bytes : Bytes) : Nat :=
  match _hfront : front? bytes with
  | some c => if p c then c.utf8Size + runSize p (bytes.drop c.utf8Size) else 0
  | none => 0
termination_by bytes.length
decreasing_by
  have := length_pos_of_front? _hfront
  have := c.utf8Size_pos
  rw [List.length_drop]
  omega

end MoveDesk.Text
