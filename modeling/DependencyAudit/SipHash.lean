/-
# DependencyAudit.SipHash -- a hash of octets

SipHash mixes a text, eight octets at a time, into a state of four words.  This is
the variant with one round for each block and three at the end, under a key of all
zeros.  The last block holds the remaining octets and, on top, the length of the
text modulo 256.

`lengthFirst` hashes octets preceded by their number, so that it can tell a list from
its parts; `hex` writes a hash in sixteen digits (`length_hex`).
-/
import DependencyAudit.Json.Printer

namespace DependencyAudit.SipHash

set_option autoImplicit false

/-- The four words of the state. -/
structure State where
  first : UInt64
  second : UInt64
  third : UInt64
  fourth : UInt64
deriving Repr, DecidableEq

/-- A word with its bits moved round to the left. -/
def rotate (word : UInt64) (count : UInt64) : UInt64 :=
  (word <<< count) ||| (word >>> (64 - count))

/-- The state before any block, under the key of zeros. -/
def State.initial : State :=
  ⟨0x736f6d6570736575, 0x646f72616e646f6d, 0x6c7967656e657261, 0x7465646279746573⟩

/-- One round of mixing. -/
def State.round (state : State) : State :=
  let a := state.first + state.second
  let b := rotate state.second 13 ^^^ a
  let a := rotate a 32
  let c := state.third + state.fourth
  let d := rotate state.fourth 16 ^^^ c
  let a := a + d
  let d := rotate d 21 ^^^ a
  let c := c + b
  let b := rotate b 17 ^^^ c
  let c := rotate c 32
  ⟨a, b, c, d⟩

/-- Mixes in one block. -/
def State.absorb (state : State) (block : UInt64) : State :=
  let mixed := State.round { state with fourth := state.fourth ^^^ block }
  { mixed with first := mixed.first ^^^ block }

/-- The hash of all that was mixed in. -/
def State.finish (state : State) : UInt64 :=
  let mixed := (State.round { state with third := state.third ^^^ 0xff }).round.round
  mixed.first ^^^ mixed.second ^^^ mixed.third ^^^ mixed.fourth

/-- The word of at most eight octets, the least significant first. -/
def wordOf : List UInt8 → UInt64
  | [] => 0
  | octet :: rest => octet.toUInt64 ||| (wordOf rest <<< 8)

/-- Mixes in octets, then the last block with the given octet on top. -/
def absorbAll (top : UInt8) : State → List UInt8 → State
  | state, a :: b :: c :: d :: e :: f :: g :: h :: rest =>
      absorbAll top (state.absorb (wordOf [a, b, c, d, e, f, g, h])) rest
  | state, rest => state.absorb (wordOf rest ||| (top.toUInt64 <<< 56))

def hash (octets : List UInt8) : UInt64 :=
  (absorbAll (UInt8.ofNat octets.length) .initial octets).finish

/-- The eight octets of a word, the least significant first. -/
def octetsOf (word : UInt64) : List UInt8 :=
  (List.range 8).map fun place => (word >>> UInt64.ofNat (8 * place)).toUInt8

/-- The hash of octets preceded by their number. -/
def lengthFirst (octets : List UInt8) : UInt64 :=
  hash (octetsOf (UInt64.ofNat octets.length) ++ octets)

/-- The digits of a hash, the most significant first. -/
def hex (word : UInt64) : String :=
  String.ofList ((List.range 16).map fun place =>
    Json.hexDigit (word.toNat >>> (4 * (15 - place)) % 16))

/-- A hash always has sixteen digits. -/
theorem length_hex (word : UInt64) : (hex word).length = 16 := by
  simp [hex]

end DependencyAudit.SipHash
