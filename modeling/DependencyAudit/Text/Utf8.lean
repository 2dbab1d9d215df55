/-
# DependencyAudit.Text.Utf8 -- octets to characters and back

Decoding reads one octet at a time.  A lead octet opens a sequence and fixes
the range its next octet must lie in; an octet outside that range closes the
sequence as malformed and is then read afresh.  So each malformed stretch that
could still have begun a character counts once, and `decodeLossy` puts one
U+FFFD there.  `decode?` accepts well-formed text only: it succeeds exactly
when no unit is malformed (`decode?_eq_some_iff`).  Between sequences an octet
of ASCII is its own character (`decodeUnits_ascii`).
-/

namespace DependencyAudit.Text.Utf8

set_option autoImplicit false

/-- A sequence that has begun: the bits so far, how many octets are still due,
and the range the next one must lie in. -/
structure Pending where
  value : Nat
  due : Nat
  low : UInt8
  high : UInt8
deriving Repr, DecidableEq

/-- What an octet does between two characters. -/
inductive Lead where
  | ascii (c : Char)
  | opens (pending : Pending)
  | malformed
deriving Repr, DecidableEq

/-- The role of an octet between two characters. -/
def lead (octet : UInt8) : Lead :=
  let n := octet.toNat
  if n < 0x80 then .ascii (Char.ofNat n)
  else if n < 0xC2 then .malformed
  else if n < 0xE0 then .opens ⟨n - 0xC0, 1, 0x80, 0xBF⟩
  else if n = 0xE0 then .opens ⟨0, 2, 0xA0, 0xBF⟩
  else if n = 0xED then .opens ⟨0xD, 2, 0x80, 0x9F⟩
  else if n < 0xF0 then .opens ⟨n - 0xE0, 2, 0x80, 0xBF⟩
  else if n = 0xF0 then .opens ⟨0, 3, 0x90, 0xBF⟩
  else if n < 0xF4 then .opens ⟨n - 0xF0, 3, 0x80, 0xBF⟩
  else if n = 0xF4 then .opens ⟨4, 3, 0x80, 0x8F⟩
  else .malformed

/-- Reads an octet that starts afresh; the octets after it are read by `resume`. -/
def begin (resume : Option Pending → List (Option Char)) (octet : UInt8) : List (Option Char) :=
  match lead octet with
  | .ascii c => some c :: resume none
  | .opens pending => resume (some pending)
  | .malformed => none :: resume none

/-- The characters of a list of octets, `none` standing for each malformed
stretch. -/
def decodeUnits : Option Pending → List UInt8 → List (Option Char)
  | none, [] => []
  | some _, [] => [none]
  | none, octet :: rest => begin (fun pending => decodeUnits pending rest) octet
  | some pending, octet :: rest =>
      if pending.low ≤ octet ∧ octet ≤ pending.high then
        let value := pending.value * 64 + (octet.toNat - 0x80)
        if pending.due ≤ 1 then some (Char.ofNat value) :: decodeUnits none rest
        else decodeUnits (some ⟨value, pending.due - 1, 0x80, 0xBF⟩) rest
      else none :: begin (fun pending => decodeUnits pending rest) octet

/-- The text of any octets, with one U+FFFD for each malformed stretch. -/
def decodeLossy (octets : List UInt8) : List Char :=
  (decodeUnits none octets).map fun unit => unit.getD (Char.ofNat 0xFFFD)

/-- The characters of a list of units none of which is malformed. -/
def allChars? : List (Option Char) → Option (List Char)
  | [] => some []
  | none :: _ => none
  | some c :: rest => (allChars? rest).map (c :: ·)

/-- The text of well-formed octets. -/
def decode? (octets : List UInt8) : Option (List Char) :=
  allChars? (decodeUnits none octets)

/-- The octets of a text. -/
def encode (cs : List Char) : List UInt8 :=
  cs.flatMap String.utf8EncodeChar

/-- The octets of a string. -/
def encodeString (s : String) : List UInt8 :=
  encode s.toList

/-! ## Facts -/

theorem allChars?_eq_some_iff :
    ∀ {units : List (Option Char)} {cs : List Char}, allChars? units = some cs ↔ units = cs.map some
  | [], cs => by cases cs <;> simp [allChars?]
  | none :: rest, cs => by cases cs <;> simp [allChars?]
  | some c :: rest, cs => by
      cases cs with
      | nil => simp [allChars?]
      | cons d more =>
          simp only [allChars?, Option.map_eq_some_iff, List.cons.injEq, List.map_cons,
            Option.some.injEq]
          constructor
          · rintro ⟨tail, found, same, rfl⟩
            exact ⟨same, allChars?_eq_some_iff.mp found⟩
          · rintro ⟨same, rest⟩
            exact ⟨more, allChars?_eq_some_iff.mpr rest, same, rfl⟩

theorem decode?_eq_some_iff {octets : List UInt8} {cs : List Char} :
    decode? octets = some cs ↔ decodeUnits none octets = cs.map some :=
  allChars?_eq_some_iff

/-- Well-formed text has one reading. -/
theorem decodeLossy_eq_of_decode? {octets : List UInt8} {cs : List Char}
    (wellFormed : decode? octets = some cs) : decodeLossy octets = cs := by
  rw [decodeLossy, decode?_eq_some_iff.mp wellFormed, List.map_map]
  exact List.map_id cs

theorem encode_append (cs ds : List Char) : encode (cs ++ ds) = encode cs ++ encode ds := by
  simp [encode]

theorem decodeUnits_ascii {octet : UInt8} (small : octet.toNat < 0x80) (rest : List UInt8) :
    decodeUnits none (octet :: rest) =
      some (Char.ofNat octet.toNat) :: decodeUnits none rest := by
  simp [decodeUnits, begin, lead, small]

end DependencyAudit.Text.Utf8
