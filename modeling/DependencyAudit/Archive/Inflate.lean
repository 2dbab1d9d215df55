/-
# DependencyAudit.Archive.Inflate -- reading compressed data

Compressed data is a sequence of blocks.  A block is stored as it is, or it is
a sequence of symbols under two canonical codes, fixed ones or ones that the
block describes itself.  A symbol is an octet, the end of the block, or a
length, which a distance follows: so many octets are repeated from so far back.

`inflate?` gives the octets of the blocks up to the one marked as last; data that ends
earlier and a code that does not fit its space are refused.  What follows the last
block does not matter.  Zeros stand before the first octet, and distances may reach
back to them (`octetBack_of_lt`).
-/
import DependencyAudit.Archive.CanonicalCode
import DependencyAudit.Octets

namespace DependencyAudit.Archive.Inflate

open DependencyAudit.Octets

set_option autoImplicit false

def refuse {α : Type} : BitReader α := fun _ => none

/-- The value of a look-up, or refusal. -/
def require {α : Type} : Option α → BitReader α
  | some value => return value
  | none => refuse

/-! ## Tables -/

/-- The shortest length of each length symbol from 257 on, with the number of
bits that add to it. -/
def lengthBases : Array (Nat × Nat) := #[
  (3, 0), (4, 0), (5, 0), (6, 0), (7, 0), (8, 0), (9, 0), (10, 0), (11, 1), (13, 1), (15, 1),
  (17, 1), (19, 2), (23, 2), (27, 2), (31, 2), (35, 3), (43, 3), (51, 3), (59, 3), (67, 4),
  (83, 4), (99, 4), (115, 4), (131, 5), (163, 5), (195, 5), (227, 5), (258, 0)]

/-- The shortest distance of each distance symbol, with the number of bits that
add to it. -/
def distanceBases : Array (Nat × Nat) := #[
  (1, 0), (2, 0), (3, 0), (4, 0), (5, 1), (7, 1), (9, 2), (13, 2), (17, 3), (25, 3), (33, 4),
  (49, 4), (65, 5), (97, 5), (129, 6), (193, 6), (257, 7), (385, 7), (513, 8), (769, 8),
  (1025, 9), (1537, 9), (2049, 10), (3073, 10), (4097, 11), (6145, 11), (8193, 12), (12289, 12),
  (16385, 13), (24577, 13)]

/-- The order in which the lengths of the code for lengths are given. -/
def codeLengthOrder : List Nat :=
  [16, 17, 18, 0, 8, 7, 9, 6, 10, 5, 11, 4, 12, 3, 13, 2, 14, 1, 15]

def fixedLiteralLengths : List Nat :=
  List.replicate 144 8 ++ List.replicate 112 9 ++ List.replicate 24 7 ++ List.replicate 8 8

def fixedDistanceLengths : List Nat :=
  List.replicate 32 5

/-! ## Symbols -/

/-- A base with the bits that add to it. -/
def extended (bases : Array (Nat × Nat)) (index : Nat) : BitReader Nat := do
  let (base, extra) ← require bases[index]?
  let more ← Bits.number extra
  return base + more

/-- The octet at some distance back. -/
def octetBack (distance : Nat) (output : Array UInt8) : UInt8 :=
  if distance ≤ output.size then output.getD (output.size - distance) 0 else 0

/-- Repeats octets from some distance back, one by one. -/
def repeatBack (distance : Nat) : Nat → Array UInt8 → Array UInt8
  | 0, output => output
  | count + 1, output => repeatBack distance count (output.push (octetBack distance output))

/-- Reads the symbols of a block, at most `budget` of them. -/
def symbols (literals distances : CanonicalCode) : Nat → Array UInt8 → BitReader (Array UInt8)
  | 0, _ => refuse
  | budget + 1, output => do
      let symbol ← literals.decode
      if symbol < 256 then symbols literals distances budget (output.push (UInt8.ofNat symbol))
      else if symbol = 256 then return output
      else
        let length ← extended lengthBases (symbol - 257)
        let distance ← extended distanceBases (← distances.decode)
        symbols literals distances budget (repeatBack distance length output)

/-! ## Blocks -/

/-- A block that is stored as it is: its length, the length's complement, its
octets. -/
def stored (output : Array UInt8) : BitReader (Array UInt8) := do
  let length := ofLittle (← Bits.alignedOctets 2)
  let complement := ofLittle (← Bits.alignedOctets 2)
  if length + complement = 0xFFFF then
    return output ++ (← Bits.alignedOctets length).toArray
  else refuse

/-- Reads word lengths until there are `total` of them, latest first; a symbol
above 15 repeats the one before or a zero. -/
def wordLengths (code : CanonicalCode) (total : Nat) : Nat → List Nat → BitReader (List Nat)
  | 0, _ => refuse
  | budget + 1, reversed =>
      if reversed.length = total then return reversed.reverse
      else if total < reversed.length then refuse
      else do
        let symbol ← code.decode
        if symbol < 16 then wordLengths code total budget (symbol :: reversed)
        else if symbol = 16 then
          let last ← require reversed.head?
          let more ← Bits.number 2
          wordLengths code total budget (List.replicate (3 + more) last ++ reversed)
        else if symbol = 17 then
          let more ← Bits.number 3
          wordLengths code total budget (List.replicate (3 + more) 0 ++ reversed)
        else
          let more ← Bits.number 7
          wordLengths code total budget (List.replicate (11 + more) 0 ++ reversed)

/-- The code of some word lengths, if it is good enough. -/
def codeOf (suits : CanonicalCode → Bool) (lengths : List Nat) : BitReader CanonicalCode :=
  let code := CanonicalCode.ofLengths lengths
  if suits code then return code else refuse

/-- The lengths of the code for lengths, in the order of its symbols. -/
def orderedLengths (given : List Nat) : List Nat :=
  (List.range 19).map fun symbol => ((codeLengthOrder.zip given).lookup symbol).getD 0

/-- Reads the codes that a block describes itself.  There are 286 literals at most and
30 distances. -/
def describedCodes : BitReader (CanonicalCode × CanonicalCode) := do
  let literalCount := (← Bits.number 5) + 257
  let distanceCount := (← Bits.number 5) + 1
  let lengthCount := (← Bits.number 4) + 4
  if 286 < literalCount ∨ 30 < distanceCount then refuse
  else
    let given ← (List.replicate lengthCount ()).mapM fun _ => Bits.number 3
    let code ← codeOf CanonicalCode.isComplete (orderedLengths given)
    let total := literalCount + distanceCount
    let lengths ← wordLengths code total (total + 1) []
    let literals ← codeOf CanonicalCode.isUsable (lengths.take literalCount)
    let distances ← codeOf CanonicalCode.isUsable (lengths.drop literalCount)
    return (literals, distances)

/-- Reads the body of a block of some kind. -/
def body (kind : Nat) (output : Array UInt8) : BitReader (Array UInt8) := do
  let budget := (← get).remaining + 1
  match kind with
  | 0 => stored output
  | 1 =>
      symbols (.ofLengths fixedLiteralLengths) (.ofLengths fixedDistanceLengths) budget output
  | 2 =>
      let (literals, distances) ← describedCodes
      symbols literals distances budget output
  | _ => refuse

/-- Reads blocks up to the last one, at most `budget` of them. -/
def blocks : Nat → Array UInt8 → BitReader (Array UInt8)
  | 0, _ => refuse
  | budget + 1, output => do
      let last ← Bits.bit
      let kind ← Bits.number 2
      let output ← body kind output
      if last then return output else blocks budget output

/-- The octets that compressed data stands for. -/
def inflate? (octets : List UInt8) : Option (List UInt8) :=
  ((blocks (8 * octets.length + 1) #[]).run ⟨[], octets⟩).map fun answer => answer.1.toList

/-! ## Facts -/

/-- Beyond the first octet there are zeros. -/
theorem octetBack_of_lt {distance : Nat} {output : Array UInt8} (beyond : output.size < distance) :
    octetBack distance output = 0 := by
  simp [octetBack, Nat.not_le_of_lt beyond]

end DependencyAudit.Archive.Inflate
