/-
# DependencyAudit.Archive.CanonicalCode -- codes given by the lengths of their words

A canonical code assigns words to symbols by their lengths alone: shorter words
come first, and words of one length follow the order of their symbols.  The words
should use up all that there is room for (`isComplete`); a code may also have no word
at all, or a single one of one bit (`isUsable`).

Reading a word compares it, at each length, with the first word of that length:
`decodeFrom` needs no table of words.
-/
import DependencyAudit.Archive.Bits

namespace DependencyAudit.Archive

set_option autoImplicit false

/-- A canonical code: how many words there are of each length from 1 to 15, and
the symbols in the order of their words. -/
structure CanonicalCode where
  counts : List Nat
  symbols : Array Nat
deriving Repr, DecidableEq

namespace CanonicalCode

/-- The symbols whose word has a given length, in order. -/
def symbolsOfLength (lengths : List Nat) (length : Nat) : List Nat :=
  (lengths.zipIdx.filter fun (own, _) => own = length).map Prod.snd

/-- The lengths a word can have. -/
def wordLengths : List Nat := (List.range 15).map (· + 1)

/-- The code in which each symbol has a word of the given length; 0 for none. -/
def ofLengths (lengths : List Nat) : CanonicalCode where
  counts := wordLengths.map fun length => (symbolsOfLength lengths length).length
  symbols := (wordLengths.flatMap (symbolsOfLength lengths)).toArray

/-- How much of the space of all words of 15 bits is taken. -/
def taken (counts : List Nat) : Nat :=
  counts.zipIdx.foldl (fun total (count, index) => total + count <<< (14 - index)) 0

/-- Whether the words use up the space exactly. -/
def isComplete (code : CanonicalCode) : Bool :=
  taken code.counts = 1 <<< 15

/-- Whether the words use up the space, or there is none or only one of one bit. -/
def isUsable (code : CanonicalCode) : Bool :=
  code.isComplete || code.symbols.isEmpty || (code.symbols.size = 1 && code.counts.head? = some 1)

/-- Reads a word, knowing its first bits as a number, the first word of their
length, and the number of symbols with shorter words. -/
def decodeFrom (symbols : Array Nat) : List Nat → Nat → Nat → Nat → BitReader Nat
  | [], _, _, _ => fun _ => none
  | count :: longer, word, first, index => do
      let bit ← Bits.bit
      let word := 2 * word + bit.toNat
      if word < first + count then
        match symbols[index + (word - first)]? with
        | some symbol => return symbol
        | none => fun _ => none
      else decodeFrom symbols longer word (2 * (first + count)) (index + count)

/-- Reads a word and gives its symbol. -/
def decode (code : CanonicalCode) : BitReader Nat :=
  decodeFrom code.symbols code.counts 0 0 0

end CanonicalCode

end DependencyAudit.Archive
