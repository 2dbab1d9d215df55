/-
# DependencyAudit.Proofs.TextOctets -- texts written as octets read back

A text is written as one to four octets for each character, and whatever follows them, the
octets of a text read back as its characters (`decodeUnits_encode`).  So the lossy reading of
a written text loses nothing (`decodeLossy_encodeString`).

The lead octet of a longer sequence narrows the range of the octet after it, so that no
character has a second spelling and no surrogate has one at all.  The octet that is written
there always lies in that range: a character of three octets lies above those of two, and it
is no surrogate.

Texts are in the same order by their characters and by their octets (`before_encodeString`), which
is the order in which a system gives the names of files.
-/
import DependencyAudit.Text.Utf8
import Mathlib.Data.List.Lex

namespace DependencyAudit.Text.Utf8

set_option autoImplicit false

/-! ## One octet of a sequence -/

theorem toNat_octet {n : Nat} (small : n < 256) : (UInt8.ofNat n).toNat = n :=
  UInt8.toNat_ofNat_of_lt' small

/-- A range given by numbers holds an octet given by a number. -/
theorem octet_mem_range (low high : Nat) {n : Nat} (below : low ≤ n) (above : n ≤ high)
    (small : high < 256) : UInt8.ofNat low ≤ UInt8.ofNat n ∧ UInt8.ofNat n ≤ UInt8.ofNat high := by
  rw [UInt8.le_iff_toNat_le, UInt8.le_iff_toNat_le, toNat_octet small, toNat_octet (by omega),
    toNat_octet (by omega)]
  exact ⟨below, above⟩

/-- The low six bits of a number, as an octet inside of a sequence. -/
def tailOf (n : Nat) : UInt8 :=
  UInt8.ofNat (n % 64 + 128)

theorem toNat_tailOf (n : Nat) : (tailOf n).toNat - 0x80 = n % 64 := by
  rw [tailOf, toNat_octet (by omega)]
  omega

theorem tailOf_mem_range (n : Nat) : (0x80 : UInt8) ≤ tailOf n ∧ tailOf n ≤ 0xBF :=
  octet_mem_range 0x80 0xBF (by omega) (by omega) (by omega)

/-- An octet that opens a sequence. -/
theorem decodeUnits_opens {octet : UInt8} {pending : Pending}
    (opens : lead octet = .opens pending) (rest : List UInt8) :
    decodeUnits none (octet :: rest) = decodeUnits (some pending) rest := by
  rw [decodeUnits, begin, opens]

section Tail

variable {low high : UInt8} {n : Nat}

/-- An octet inside of a sequence, in the range that is set for it. -/
theorem decodeUnits_inside (inside : low ≤ tailOf n ∧ tailOf n ≤ high) {due : Nat}
    (more : 1 < due) (value : Nat) (rest : List UInt8) :
    decodeUnits (some ⟨value, due, low, high⟩) (tailOf n :: rest) =
      decodeUnits (some ⟨value * 64 + n % 64, due - 1, 0x80, 0xBF⟩) rest := by
  rw [decodeUnits, if_pos inside, if_neg (Nat.not_le.mpr more), toNat_tailOf]

/-- The octet that ends a sequence. -/
theorem decodeUnits_ends (inside : low ≤ tailOf n ∧ tailOf n ≤ high) (value : Nat)
    (rest : List UInt8) :
    decodeUnits (some ⟨value, 1, low, high⟩) (tailOf n :: rest) =
      some (Char.ofNat (value * 64 + n % 64)) :: decodeUnits none rest := by
  rw [decodeUnits, if_pos inside, if_pos (Nat.le_refl 1), toNat_tailOf]

end Tail

/-! ## The lead octet and its range -/

/-- The lead octet of a sequence of two. -/
theorem lead_two {n : Nat} (above : 0x7F < n) (below : n ≤ 0x7FF) :
    lead (UInt8.ofNat (n / 64 % 32 + 192)) = .opens ⟨n / 64, 1, 0x80, 0xBF⟩ := by
  have value : n / 64 % 32 + 192 - 0xC0 = n / 64 := by omega
  simp only [lead, toNat_octet (show n / 64 % 32 + 192 < 256 by omega), value]
  rw [if_neg (by omega), if_neg (by omega), if_pos (by omega)]

/-- The lead octet of a sequence of three, and the range of the octet after it. -/
theorem lead_three {n : Nat} (above : 0x7FF < n) (below : n ≤ 0xFFFF)
    (valid : n < 0xD800 ∨ 0xDFFF < n) :
    ∃ low high, lead (UInt8.ofNat (n / 4096 % 16 + 224)) = .opens ⟨n / 4096, 2, low, high⟩ ∧
      low ≤ tailOf (n / 64) ∧ tailOf (n / 64) ≤ high := by
  have value : n / 4096 % 16 + 224 - 0xE0 = n / 4096 := by omega
  simp only [lead, toNat_octet (show n / 4096 % 16 + 224 < 256 by omega), value]
  rw [if_neg (by omega), if_neg (by omega), if_neg (by omega)]
  by_cases least : n / 4096 % 16 + 224 = 0xE0
  · refine ⟨0xA0, 0xBF, ?_, octet_mem_range 0xA0 0xBF ?_ ?_ ?_⟩
    · rw [if_pos least, show n / 4096 = 0 by omega]
    all_goals omega
  · rw [if_neg least]
    by_cases surrogates : n / 4096 % 16 + 224 = 0xED
    · refine ⟨0x80, 0x9F, ?_, octet_mem_range 0x80 0x9F ?_ ?_ ?_⟩
      · rw [if_pos surrogates, show n / 4096 = 0xD by omega]
      all_goals omega
    · refine ⟨0x80, 0xBF, ?_, tailOf_mem_range (n / 64)⟩
      rw [if_neg surrogates, if_pos (by omega)]

/-- The lead octet of a sequence of four, and the range of the octet after it. -/
theorem lead_four {n : Nat} (above : 0xFFFF < n) (below : n < 0x110000) :
    ∃ low high, lead (UInt8.ofNat (n / 262144 % 8 + 240)) = .opens ⟨n / 262144, 3, low, high⟩ ∧
      low ≤ tailOf (n / 4096) ∧ tailOf (n / 4096) ≤ high := by
  have value : n / 262144 % 8 + 240 - 0xF0 = n / 262144 := by omega
  simp only [lead, toNat_octet (show n / 262144 % 8 + 240 < 256 by omega), value]
  rw [if_neg (by omega), if_neg (by omega), if_neg (by omega), if_neg (by omega),
    if_neg (by omega), if_neg (by omega)]
  by_cases least : n / 262144 % 8 + 240 = 0xF0
  · refine ⟨0x90, 0xBF, ?_, octet_mem_range 0x90 0xBF ?_ ?_ ?_⟩
    · rw [if_pos least, show n / 262144 = 0 by omega]
    all_goals omega
  · rw [if_neg least]
    by_cases most : n / 262144 % 8 + 240 = 0xF4
    · refine ⟨0x80, 0x8F, ?_, octet_mem_range 0x80 0x8F ?_ ?_ ?_⟩
      · rw [if_neg (by omega), if_pos most, show n / 262144 = 4 by omega]
      all_goals omega
    · refine ⟨0x80, 0xBF, ?_, tailOf_mem_range (n / 4096)⟩
      rw [if_pos (by omega)]

/-! ## Characters and texts -/

/-- The octets of a character read back as the character. -/
theorem decodeUnits_char (c : Char) (rest : List UInt8) :
    decodeUnits none (String.utf8EncodeChar c ++ rest) = some c :: decodeUnits none rest := by
  have valid : c.toNat < 0xD800 ∨ 0xDFFF < c.toNat ∧ c.toNat < 0x110000 := c.valid
  have same : Char.ofNat c.toNat = c := Char.ofNat_toNat c
  generalize code : c.toNat = n at valid same
  have shape : String.utf8EncodeChar c =
      if n ≤ 0x7F then [UInt8.ofNat n]
      else if n ≤ 0x7FF then [UInt8.ofNat (n / 64 % 32 + 192), tailOf n]
      else if n ≤ 0xFFFF then [UInt8.ofNat (n / 4096 % 16 + 224), tailOf (n / 64), tailOf n]
      else [UInt8.ofNat (n / 262144 % 8 + 240), tailOf (n / 4096), tailOf (n / 64), tailOf n] := by
    rw [← code]
    rfl
  rw [shape]
  by_cases one : n ≤ 0x7F
  · have octet : (UInt8.ofNat n).toNat = n := toNat_octet (by omega)
    rw [if_pos one, List.singleton_append, decodeUnits_ascii (by omega), octet, same]
  rw [if_neg one]
  by_cases two : n ≤ 0x7FF
  · have value : n / 64 * 64 + n % 64 = n := by omega
    rw [if_pos two]
    simp only [List.cons_append, List.nil_append]
    rw [decodeUnits_opens (lead_two (by omega) two), decodeUnits_ends (tailOf_mem_range n), value,
      same]
  rw [if_neg two]
  by_cases three : n ≤ 0xFFFF
  · obtain ⟨low, high, opens, inside⟩ := lead_three (by omega) three (by omega)
    have value : (n / 4096 * 64 + n / 64 % 64) * 64 + n % 64 = n := by omega
    rw [if_pos three]
    simp only [List.cons_append, List.nil_append]
    rw [decodeUnits_opens opens, decodeUnits_inside inside (by decide),
      decodeUnits_ends (tailOf_mem_range n), value, same]
  · obtain ⟨low, high, opens, inside⟩ := lead_four (n := n) (by omega) (by omega)
    have value : ((n / 262144 * 64 + n / 4096 % 64) * 64 + n / 64 % 64) * 64 + n % 64 = n := by
      omega
    rw [if_neg three]
    simp only [List.cons_append, List.nil_append]
    rw [decodeUnits_opens opens, decodeUnits_inside inside (by decide),
      decodeUnits_inside (tailOf_mem_range (n / 64)) (by decide),
      decodeUnits_ends (tailOf_mem_range n), value, same]

/-- The octets of a text read back as its characters, whatever follows them. -/
theorem decodeUnits_encode (cs : List Char) (rest : List UInt8) :
    decodeUnits none (encode cs ++ rest) = cs.map some ++ decodeUnits none rest := by
  induction cs with
  | nil => rfl
  | cons c cs read =>
      rw [encode] at read
      rw [encode, List.flatMap_cons, List.append_assoc, decodeUnits_char, read, List.map_cons,
        List.cons_append]

theorem decode?_encode (cs : List Char) : decode? (encode cs) = some cs := by
  have read := decodeUnits_encode cs []
  rw [List.append_nil, decodeUnits, List.append_nil] at read
  exact decode?_eq_some_iff.mpr read

theorem decodeUnits_encodeString (text : String) :
    decodeUnits none (encodeString text) = text.toList.map some :=
  decode?_eq_some_iff.mp (decode?_encode text.toList)

/-- The lossy reading of a written text loses nothing. -/
theorem decodeLossy_encodeString (text : String) :
    String.ofList (decodeLossy (encodeString text)) = text := by
  have read : decodeLossy (encodeString text) = text.toList :=
    decodeLossy_eq_of_decode? (decode?_eq_some_iff.mpr (decodeUnits_encodeString text))
  rw [read, String.ofList_toList]

/-! ## Order -/

/-- Octets before others, as the first that differ decide. -/
def Before (octets others : List UInt8) : Prop :=
  List.Lex (· < ·) octets others

/-- A smaller octet decides, and an equal one leaves it to the octets after it. -/
theorem before_cons {n m : Nat} {octets others : List UInt8} (small : m < 256) (most : n ≤ m)
    (later : n = m → Before octets others) :
    Before (UInt8.ofNat n :: octets) (UInt8.ofNat m :: others) := by
  rcases Nat.lt_or_eq_of_le most with less | rfl
  · refine .rel ?_
    rw [UInt8.lt_iff_toNat_lt, toNat_octet small, toNat_octet (by omega)]
    exact less
  · exact .cons (later rfl)

theorem before_cons_of_lt {n m : Nat} (small : m < 256) (less : n < m)
    (octets others : List UInt8) :
    Before (UInt8.ofNat n :: octets) (UInt8.ofNat m :: others) :=
  before_cons small (Nat.le_of_lt less) fun same => absurd same (Nat.ne_of_lt less)

/-- Characters are in the order of their octets, whatever follows them.  The octet that opens a
sequence is above those that open shorter ones, and behind equal ones the next six bits decide. -/
theorem before_of_lt {c d : Char} (less : c < d) (octets others : List UInt8) :
    Before (String.utf8EncodeChar c ++ octets) (String.utf8EncodeChar d ++ others) := by
  have order : c.toNat < d.toNat := less
  have last : d.toNat < 0x110000 := by
    have valid : d.toNat < 0xD800 ∨ 0xDFFF < d.toNat ∧ d.toNat < 0x110000 := d.valid
    omega
  unfold String.utf8EncodeChar
  change c.val.toNat < d.val.toNat at order
  change d.val.toNat < 0x110000 at last
  generalize c.val.toNat = n at order
  generalize d.val.toNat = m at order last
  dsimp only
  by_cases one : m ≤ 0x7F
  · rw [if_pos one, if_pos (by omega)]
    exact before_cons_of_lt (by omega) (by omega) _ _
  rw [if_neg one]
  by_cases two : m ≤ 0x7FF
  · rw [if_pos two]
    split
    · exact before_cons_of_lt (by omega) (by omega) _ _
    · rw [if_pos (by omega)]
      refine before_cons (by omega) (by omega) fun same => ?_
      exact before_cons_of_lt (by omega) (by omega) _ _
  rw [if_neg two]
  by_cases three : m ≤ 0xFFFF
  · rw [if_pos three]
    split
    · exact before_cons_of_lt (by omega) (by omega) _ _
    split
    · exact before_cons_of_lt (by omega) (by omega) _ _
    · rw [if_pos (by omega)]
      refine before_cons (by omega) (by omega) fun same => ?_
      refine before_cons (by omega) (by omega) fun same' => ?_
      exact before_cons_of_lt (by omega) (by omega) _ _
  rw [if_neg three]
  split
  · exact before_cons_of_lt (by omega) (by omega) _ _
  split
  · exact before_cons_of_lt (by omega) (by omega) _ _
  split
  · exact before_cons_of_lt (by omega) (by omega) _ _
  · refine before_cons (by omega) (by omega) fun same => ?_
    refine before_cons (by omega) (by omega) fun same' => ?_
    refine before_cons (by omega) (by omega) fun same'' => ?_
    exact before_cons_of_lt (by omega) (by omega) _ _

/-- Texts are in the order of their octets. -/
theorem before_encode {cs ds : List Char} (less : List.Lex (· < ·) cs ds) :
    Before (encode cs) (encode ds) := by
  induction less with
  | @nil d ds =>
      obtain ⟨octet, more, shape⟩ :=
        List.exists_cons_of_ne_nil (String.utf8EncodeChar_ne_nil (c := d))
      rw [encode, encode, List.flatMap_cons, shape]
      exact .nil
  | @cons c cs ds _ before =>
      rw [encode, encode] at before ⊢
      rw [List.flatMap_cons, List.flatMap_cons]
      exact List.Lex.append_left _ before _
  | @rel c cs d ds first => exact before_of_lt first _ _

theorem before_encodeString {text other : String} (less : text < other) :
    Before (encodeString text) (encodeString other) :=
  before_encode less

end DependencyAudit.Text.Utf8
