/-
# DependencyAudit.Archive.Bits -- octets as a stream of bits

Compressed data is read bit by bit, the lowest bit of each octet first.  Each
bit read leaves one less (`remaining_of_bit`).
-/

namespace DependencyAudit.Archive

set_option autoImplicit false

/-- What is left to read: the bits left of an octet that has begun, and the
octets after it. -/
structure Bits where
  pending : List Bool
  octets : List UInt8
deriving Repr, DecidableEq

/-- Reads from a stream of bits. -/
abbrev BitReader := StateT Bits Option

namespace Bits

/-- The bits of an octet, lowest first. -/
def ofOctet (octet : UInt8) : List Bool :=
  (List.range 8).map fun place => octet.toNat.testBit place

/-- The number of bits left. -/
def remaining (bits : Bits) : Nat :=
  bits.pending.length + 8 * bits.octets.length

/-- The next bit. -/
def bit : BitReader Bool
  | ⟨first :: pending, octets⟩ => some (first, ⟨pending, octets⟩)
  | ⟨[], octet :: octets⟩ =>
      some (octet.toNat.testBit 0, ⟨(ofOctet octet).drop 1, octets⟩)
  | ⟨[], []⟩ => none

/-- A number of some bits, lowest first. -/
def number : Nat → BitReader Nat
  | 0 => return 0
  | count + 1 => do
      let low ← bit
      let high ← number count
      return 2 * high + low.toNat

/-- Some whole octets, after what is left of an octet that has begun. -/
def alignedOctets (count : Nat) : BitReader (List UInt8) := fun bits =>
  let taken := bits.octets.take count
  if taken.length = count then some (taken, ⟨[], bits.octets.drop count⟩) else none

theorem remaining_of_bit {bits rest : Bits} {value : Bool}
    (read : bit bits = some (value, rest)) : rest.remaining + 1 = bits.remaining := by
  match bits, read with
  | ⟨first :: pending, octets⟩, read =>
      simp only [bit, Option.some.injEq, Prod.mk.injEq] at read
      rw [← read.2]
      simp only [remaining, List.length_cons]
      omega
  | ⟨[], octet :: octets⟩, read =>
      simp only [bit, Option.some.injEq, Prod.mk.injEq] at read
      rw [← read.2]
      simp only [remaining, ofOctet, List.length_drop, List.length_map, List.length_range,
        List.length_cons, List.length_nil]
      omega

end Bits

end DependencyAudit.Archive
