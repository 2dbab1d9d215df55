/-
# DependencyAudit.Proofs.Positions -- characters among octets

A scanner of octets looks for characters of one octet each, brackets and letters of ASCII.  None
of their octets occurs inside of another character (`mem_octets_iff`), so looking at the first
octet is looking at the first character (`head?_encode`), and what is passed over octet by octet
up to one of them is passed over character by character (`all_of_reads`, `head?_of_reads`).

A position is on a boundary if it is at the first octet of a character, or at the end
(`Boundary`).  A text can be cut between any two boundaries (`slice?_eq`).
-/
import DependencyAudit.TypeText.Descent
import Mathlib.Logic.Basic
import Mathlib.Tactic.ByContra

namespace DependencyAudit.TypeText.Descent

open DependencyAudit.Text

set_option autoImplicit false

/-! ## Octets of characters -/

/-- The number of octets that characters take. -/
def width (cs : List Char) : Nat :=
  (Utf8.encode cs).length

@[simp] theorem width_append (cs ds : List Char) : width (cs ++ ds) = width cs + width ds := by
  rw [width, Utf8.encode_append, List.length_append, width, width]

theorem encode_cons (c : Char) (cs : List Char) :
    Utf8.encode (c :: cs) = String.utf8EncodeChar c ++ Utf8.encode cs := by
  rw [Utf8.encode, List.flatMap_cons, Utf8.encode]

theorem width_singleton (c : Char) : width [c] = c.utf8Size := by
  rw [width, encode_cons, List.length_append, String.length_utf8EncodeChar]
  rfl

theorem width_pos {cs : List Char} (filled : cs ≠ []) : 0 < width cs := by
  obtain ⟨c, rest, rfl⟩ := List.exists_cons_of_ne_nil filled
  have first := width_append [c] rest
  rw [width_singleton, List.singleton_append] at first
  have size := c.utf8Size_pos
  omega

/-- Whether characters were read can be told from the positions. -/
theorem width_lt_of_used {front used : List Char} (enough : 1 ≤ used.length) :
    width front < width (front ++ used) := by
  have filled : used ≠ [] := List.length_pos_iff.mp enough
  have moved := width_pos filled
  rw [width_append]
  omega

theorem width_lt_of_parted {cs used rest : List Char} (shape : cs = used ++ rest)
    (enough : 1 ≤ used.length) : width rest < width cs := by
  have moved := width_pos (List.length_pos_iff.mp enough)
  rw [shape, width_append]
  omega

/-- A character of ASCII has one octet. -/
theorem octets_of_ascii {c : Char} (ascii : c.toNat < 128) :
    String.utf8EncodeChar c = [octet c] := by
  have small : c.val.toNat ≤ 127 := Nat.le_of_lt_succ ascii
  unfold String.utf8EncodeChar
  exact if_pos small

/-- All octets of another character are above those of ASCII. -/
theorem le_of_mem_octets {c : Char} (wide : ¬ c.toNat < 128) {next : UInt8}
    (member : next ∈ String.utf8EncodeChar c) : 128 ≤ next.toNat := by
  have above : ¬ c.val.toNat ≤ 127 := fun small => wide (Nat.lt_succ_of_le small)
  have high : ∀ n, 128 ≤ n → n < 256 → 128 ≤ (UInt8.ofNat n).toNat := by
    intro n least most
    rwa [UInt8.toNat_ofNat_of_lt' most]
  unfold String.utf8EncodeChar at member
  rw [if_neg above] at member
  split at member
  · simp only [List.mem_cons, List.not_mem_nil, or_false] at member
    rcases member with rfl | rfl <;> exact high _ (by omega) (by omega)
  split at member
  · simp only [List.mem_cons, List.not_mem_nil, or_false] at member
    rcases member with rfl | rfl | rfl <;> exact high _ (by omega) (by omega)
  · simp only [List.mem_cons, List.not_mem_nil, or_false] at member
    rcases member with rfl | rfl | rfl | rfl <;> exact high _ (by omega) (by omega)

theorem toNat_octet {c : Char} (ascii : c.toNat < 128) : (octet c).toNat = c.toNat :=
  UInt8.toNat_ofNat_of_lt' (by change c.toNat < 256; omega)

/-- An octet of ASCII occurs in no character but its own. -/
theorem mem_octets_iff {c d : Char} (ascii : d.toNat < 128) {next : UInt8}
    (member : next ∈ String.utf8EncodeChar c) : next = octet d ↔ c = d := by
  constructor
  · rintro rfl
    by_cases small : c.toNat < 128
    · rw [octets_of_ascii small, List.mem_singleton] at member
      have same := congrArg UInt8.toNat member
      rw [toNat_octet ascii, toNat_octet small] at same
      exact Char.toNat_inj.mp same.symm
    · have high := le_of_mem_octets small member
      rw [toNat_octet ascii] at high
      omega
  · rintro rfl
    rwa [octets_of_ascii ascii, List.mem_singleton] at member

/-- The first octet belongs to the first character. -/
theorem exists_head (c : Char) (cs : List Char) :
    ∃ next ∈ String.utf8EncodeChar c, (Utf8.encode (c :: cs)).head? = some next := by
  obtain ⟨next, more, shape⟩ := List.exists_cons_of_ne_nil (String.utf8EncodeChar_ne_nil (c := c))
  refine ⟨next, ?_, ?_⟩
  · rw [shape]
    exact List.mem_cons_self
  · rw [encode_cons, shape, List.cons_append, List.head?_cons]

theorem head?_encode {cs : List Char} {d : Char} (ascii : d.toNat < 128) :
    (Utf8.encode cs).head? = some (octet d) ↔ cs.head? = some d := by
  cases cs with
  | nil => simp [Utf8.encode]
  | cons c cs =>
      obtain ⟨next, member, first⟩ := exists_head c cs
      rw [first, Option.some.injEq, mem_octets_iff ascii member, List.head?_cons, Option.some.injEq]

/-- A choice that depends on the first octet depends on the first character. -/
theorem if_first {α : Type} {cs : List Char} {d : Char} {yes no : α} (ascii : d.toNat < 128)
    (first : cs.head? = some d) :
    (if (Utf8.encode cs).head? = some (octet d) then yes else no) = yes :=
  if_pos ((head?_encode ascii).mpr first)

theorem if_not_first {α : Type} {cs : List Char} {d : Char} {yes no : α} (ascii : d.toNat < 128)
    (other : cs.head? ≠ some d) :
    (if (Utf8.encode cs).head? = some (octet d) then yes else no) = no :=
  if_neg fun same => other ((head?_encode ascii).mp same)

theorem head?_encode_isNone {cs : List Char} : (Utf8.encode cs).head?.isNone = cs.isEmpty := by
  cases cs with
  | nil => rfl
  | cons c cs =>
      obtain ⟨next, _, first⟩ := exists_head c cs
      rw [first]
      rfl

/-! ## Positions -/

/-- A position is between two characters of a text, or at one of its ends. -/
def Boundary (text : String) (index : Nat) : Prop :=
  ∃ front rest, text.toList = front ++ rest ∧ width front = index

section Positions

variable {text : String} {front cs : List Char}

theorem boundary_width (parted : text.toList = front ++ cs) : Boundary text (width front) :=
  ⟨front, cs, parted, rfl⟩

theorem encodeString_of_parted (parted : text.toList = front ++ cs) :
    Utf8.encodeString text = Utf8.encode front ++ Utf8.encode cs := by
  rw [Utf8.encodeString, parted, Utf8.encode_append]

theorem drop_width (parted : text.toList = front ++ cs) :
    (Utf8.encodeString text).drop (width front) = Utf8.encode cs := by
  rw [encodeString_of_parted parted, width, List.drop_left]

theorem getElem?_width (parted : text.toList = front ++ cs) :
    (Utf8.encodeString text)[width front]? = (Utf8.encode cs).head? := by
  rw [← drop_width parted, List.head?_drop]

theorem width_le (parted : text.toList = front ++ cs) :
    width front ≤ (Utf8.encodeString text).length := by
  rw [encodeString_of_parted parted, List.length_append, width]
  exact Nat.le_add_right _ _

/-- An octet that is left is inside of the text, and the others are behind it. -/
theorem drop_succ {start : Nat} {next : UInt8} {rest : List UInt8}
    (behind : (Utf8.encodeString text).drop start = next :: rest) :
    start < (Utf8.encodeString text).length ∧
      (Utf8.encodeString text).drop (start + 1) = rest := by
  constructor
  · by_contra beyond
    rw [List.drop_eq_nil_of_le (Nat.le_of_not_lt beyond)] at behind
    cases behind
  · rw [← List.drop_drop, behind]
    rfl

end Positions

/-! ## Cuts -/

theorem cut?_append (front rest : List Char) :
    cut? (front ++ rest) (width front) = some (front, rest) := by
  induction front with
  | nil => cases rest <;> rfl
  | cons c front cut =>
      have size := c.utf8Size_pos
      obtain ⟨index, more⟩ : ∃ index, width (c :: front) = index + 1 :=
        Nat.exists_eq_add_one.mpr (width_pos (by simp))
      have whole : width (c :: front) = c.utf8Size + width front := by
        rw [← List.singleton_append, width_append, width_singleton]
      have behind : index + 1 - c.utf8Size = width front := by omega
      rw [more, List.cons_append, cut?, if_pos (by omega), behind, cut]
      rfl

/-- A text can be cut between characters. -/
theorem slice?_eq {text : String} {front inside rest : List Char}
    (parted : text.toList = front ++ (inside ++ rest)) :
    slice? text (width front) (width (front ++ inside)) = some (String.ofList inside) := by
  have length : width (front ++ inside) - width front = width inside := by simp
  rw [slice?, if_neg (by simp), parted, cut?_append, Option.bind_some, length]
  simp only [cut?_append, Option.map_some]

/-! ## Stretches -/

/-- Octets pass if and only if the characters they belong to do. -/
def Reads (passes : UInt8 → Bool) (keeps : Char → Bool) : Prop :=
  ∀ c, ∀ next ∈ String.utf8EncodeChar c, passes next = keeps c

section Stretches

variable {passes : UInt8 → Bool} {keeps : Char → Bool}

theorem all_of_reads (reads : Reads passes keeps) {cs : List Char}
    (kept : ∀ c ∈ cs, keeps c = true) : ∀ next ∈ Utf8.encode cs, passes next = true := by
  intro next member
  obtain ⟨c, listed, inside⟩ := List.mem_flatMap.mp member
  rw [reads c next inside, kept c listed]

theorem head?_of_reads (reads : Reads passes keeps) {cs : List Char} :
    (Utf8.encode cs).head?.any passes = cs.head?.any keeps := by
  cases cs with
  | nil => rfl
  | cons c cs =>
      obtain ⟨next, member, first⟩ := exists_head c cs
      rw [first, List.head?_cons, Option.any_some, Option.any_some, reads c next member]

end Stretches

end DependencyAudit.TypeText.Descent
