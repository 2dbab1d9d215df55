/-
# DependencyAudit.Proofs.ModifiedUtf8 -- the spelling of texts in class files

A class file spells its texts in a UTF-8 of its own.  It writes the code units of a text one by
one, so a supplementary character becomes two surrogates of three octets each, and NUL takes two
octets, for no octet of a text is zero.  Each unit says in its first octet how many it has, and
so no two texts are spelled alike (`encodeString_injective`).

A reader of UTF-8 takes both kinds of characters for malformed.  What it sees instead is a
replacement character for each octet, and all other characters, which are plain, it sees as they
are (`decodeLossy_encode`).  So a plain text is read as it is (`garbled_of_plain`), and a text of
nothing but letters is read only where it was written (`eq_encodeString_iff_of_letters`): the
octets of longer sequences never come to a letter.
-/
import DependencyAudit.Proofs.TextOctets

namespace DependencyAudit.Text.ModifiedUtf8

open Utf8 (decodeUnits decodeLossy tailOf)

set_option autoImplicit false

/-! ## Spelling -/

/-- The octets of a code unit. -/
def encodeUnit (unit : UInt16) : List UInt8 :=
  let n := unit.toNat
  if 0 < n ∧ n < 0x80 then [UInt8.ofNat n]
  else if n < 0x800 then [UInt8.ofNat (n / 64 + 0xC0), tailOf n]
  else [UInt8.ofNat (n / 4096 + 0xE0), tailOf (n / 64), tailOf n]

/-- The code units of a character: two surrogates if it is supplementary. -/
def units (c : Char) : List UInt16 :=
  let n := c.toNat
  if n < 0x10000 then [UInt16.ofNat n]
  else [UInt16.ofNat (0xD800 + (n - 0x10000) / 1024), UInt16.ofNat (0xDC00 + (n - 0x10000) % 1024)]

/-- The octets of a text. -/
def encode (cs : List Char) : List UInt8 :=
  (cs.flatMap units).flatMap encodeUnit

/-- The octets of a string. -/
def encodeString (text : String) : List UInt8 :=
  encode text.toList

/-! ## What a reader of UTF-8 sees -/

/-- Neither NUL nor supplementary: spelled as in UTF-8. -/
def IsPlain (c : Char) : Prop :=
  0 < c.toNat ∧ c.toNat < 0x10000

instance (c : Char) : Decidable (IsPlain c) :=
  inferInstanceAs (Decidable (_ ∧ _))

/-- All characters of a text are plain. -/
def Plain (text : String) : Prop :=
  ∀ c ∈ text.toList, IsPlain c

instance (text : String) : Decidable (Plain text) :=
  List.decidableBAll IsPlain text.toList

/-- What is seen instead of an octet that begins no character. -/
abbrev replacement : Char :=
  Char.ofNat 0xFFFD

/-- What is seen of a character, which is a replacement for each octet unless it is plain. -/
def garble (c : Char) : List Char :=
  if IsPlain c then [c] else List.replicate (if c.toNat = 0 then 2 else 6) replacement

/-- What is seen of a text. -/
def garbled (text : String) : String :=
  String.ofList (text.toList.flatMap garble)

theorem garble_of_plain {c : Char} (plain : IsPlain c) : garble c = [c] :=
  if_pos plain

/-- There is something to be seen of every character. -/
theorem exists_garble_of_not_plain {c : Char} (other : ¬ IsPlain c) :
    ∃ more, garble c = List.replicate (more + 1) replacement := by
  by_cases nul : c.toNat = 0
  · exact ⟨1, by rw [garble, if_neg other, if_pos nul]⟩
  · exact ⟨5, by rw [garble, if_neg other, if_neg nul]⟩

theorem flatMap_garble_of_plain :
    ∀ {cs : List Char}, (∀ c ∈ cs, IsPlain c) → cs.flatMap garble = cs
  | [], _ => rfl
  | c :: rest, plain => by
      rw [List.forall_mem_cons] at plain
      rw [List.flatMap_cons, garble_of_plain plain.1, flatMap_garble_of_plain plain.2]
      rfl

/-- Plain texts are seen as they are. -/
theorem garbled_of_plain {text : String} (plain : Plain text) : garbled text = text := by
  rw [garbled, flatMap_garble_of_plain plain, String.ofList_toList]

/-! ## Reading -/

theorem toNat_unit {n : Nat} (small : n < 0x10000) : (UInt16.ofNat n).toNat = n :=
  UInt16.toNat_ofNat_of_lt' small

/-- An octet that opens nothing and is no character either. -/
theorem decodeUnits_stray {n : Nat} (above : 0x80 ≤ n) (below : n < 0xC2) (rest : List UInt8) :
    decodeUnits none (UInt8.ofNat n :: rest) = none :: decodeUnits none rest := by
  have stray : Utf8.lead (UInt8.ofNat n) = .malformed := by
    simp only [Utf8.lead, Utf8.toNat_octet (show n < 256 by omega)]
    rw [if_neg (by omega), if_pos below]
  rw [decodeUnits, Utf8.begin, stray]

theorem decodeUnits_strayTail (n : Nat) (rest : List UInt8) :
    decodeUnits none (tailOf n :: rest) = none :: decodeUnits none rest :=
  decodeUnits_stray (by omega) (by omega) rest

theorem decodeUnits_nul (rest : List UInt8) :
    decodeUnits none (encodeUnit 0 ++ rest) = none :: none :: decodeUnits none rest := by
  change decodeUnits none (UInt8.ofNat 0xC0 :: tailOf 0 :: rest) = _
  rw [decodeUnits_stray (by omega) (by omega), decodeUnits_strayTail]

/-- A surrogate is refused at its second octet, and then its last two are strays. -/
theorem decodeUnits_surrogate {n : Nat} (above : 0xD800 ≤ n) (below : n ≤ 0xDFFF)
    (rest : List UInt8) :
    decodeUnits none (encodeUnit (UInt16.ofNat n) ++ rest) =
      none :: none :: none :: decodeUnits none rest := by
  have first : UInt8.ofNat (n / 4096 + 0xE0) = 0xED := by rw [show n / 4096 = 0xD by omega]; rfl
  have shape : encodeUnit (UInt16.ofNat n) = [0xED, tailOf (n / 64), tailOf n] := by
    simp only [encodeUnit, toNat_unit (show n < 0x10000 by omega), first]
    rw [if_neg (by omega), if_neg (by omega)]
  have outside : ¬ ((0x80 : UInt8) ≤ tailOf (n / 64) ∧ tailOf (n / 64) ≤ 0x9F) := by
    rintro ⟨_, most⟩
    rw [UInt8.le_iff_toNat_le, tailOf, Utf8.toNat_octet (by omega)] at most
    change n / 64 % 64 + 128 ≤ 0x9F at most
    omega
  have resumed : decodeUnits (some ⟨0xD, 2, 0x80, 0x9F⟩) (tailOf (n / 64) :: tailOf n :: rest) =
      none :: decodeUnits none (tailOf (n / 64) :: tailOf n :: rest) := by
    rw [decodeUnits, decodeUnits, if_neg outside]
  rw [shape]
  change decodeUnits none (0xED :: tailOf (n / 64) :: tailOf n :: rest) = _
  rw [Utf8.decodeUnits_opens rfl, resumed, decodeUnits_strayTail, decodeUnits_strayTail]

/-- A plain character is spelled as in UTF-8. -/
theorem flatMap_units_of_plain {c : Char} (plain : IsPlain c) :
    (units c).flatMap encodeUnit = String.utf8EncodeChar c := by
  obtain ⟨positive, small⟩ := plain
  have same : (UInt16.ofNat c.toNat).toNat = c.toNat := toNat_unit small
  simp only [units, if_pos small, List.flatMap_cons, List.flatMap_nil, List.append_nil, encodeUnit,
    same, String.utf8EncodeChar]
  change _ = if c.toNat ≤ 0x7F then [UInt8.ofNat c.toNat]
    else if c.toNat ≤ 0x7FF then [UInt8.ofNat (c.toNat / 64 % 32 + 192), tailOf c.toNat]
    else if c.toNat ≤ 0xFFFF then
      [UInt8.ofNat (c.toNat / 4096 % 16 + 224), tailOf (c.toNat / 64), tailOf c.toNat]
    else _
  generalize c.toNat = n at positive small
  by_cases one : n ≤ 0x7F
  · rw [if_pos ⟨positive, by omega⟩, if_pos one]
  rw [if_neg (by omega), if_neg one]
  by_cases two : n ≤ 0x7FF
  · rw [if_pos (by omega), if_pos two, show n / 64 % 32 + 192 = n / 64 + 0xC0 by omega]
  · rw [if_neg (by omega), if_neg two, if_pos (by omega),
      show n / 4096 % 16 + 224 = n / 4096 + 0xE0 by omega]

/-- The octets of a character are read as what is seen of it, whatever follows them. -/
theorem decodeUnits_units (c : Char) (rest : List UInt8) :
    (decodeUnits none ((units c).flatMap encodeUnit ++ rest)).map (·.getD replacement) =
      garble c ++ (decodeUnits none rest).map (·.getD replacement) := by
  by_cases plain : IsPlain c
  · rw [flatMap_units_of_plain plain, Utf8.decodeUnits_char, garble_of_plain plain]
    rfl
  by_cases nul : c.toNat = 0
  · have shape : (units c).flatMap encodeUnit = encodeUnit 0 := by
      rw [units, nul]
      rfl
    rw [shape, decodeUnits_nul, garble, if_neg plain, if_pos nul]
    rfl
  · have large : 0x10000 ≤ c.toNat := by
      unfold IsPlain at plain
      omega
    have last : c.toNat < 0x110000 := by
      have valid : c.toNat < 0xD800 ∨ 0xDFFF < c.toNat ∧ c.toNat < 0x110000 := c.valid
      omega
    rw [garble, if_neg plain, if_neg nul, units]
    simp only [if_neg (Nat.not_lt.mpr large), List.flatMap_cons, List.flatMap_nil, List.append_nil,
      List.append_assoc]
    rw [decodeUnits_surrogate (by omega) (by omega), decodeUnits_surrogate (by omega) (by omega)]
    rfl

/-- The spelling of a text is read as what is seen of it. -/
theorem decodeLossy_encode (cs : List Char) : decodeLossy (encode cs) = cs.flatMap garble := by
  unfold encode decodeLossy
  induction cs with
  | nil => rfl
  | cons c rest read =>
      rw [List.flatMap_cons, List.flatMap_append, decodeUnits_units, read, List.flatMap_cons]

theorem decodeLossy_encodeString (text : String) :
    String.ofList (decodeLossy (encodeString text)) = garbled text := by
  rw [encodeString, decodeLossy_encode, garbled]

/-! ## No two texts are spelled alike -/

theorem octet_inj {m n : Nat} (small : m < 256) (small' : n < 256)
    (same : UInt8.ofNat m = UInt8.ofNat n) : m = n := by
  have numbers := congrArg UInt8.toNat same
  rwa [Utf8.toNat_octet small, Utf8.toNat_octet small'] at numbers

theorem octets_ne {m n : Nat} {xs ys : List UInt8} (small : m < 256) (small' : n < 256)
    (other : m ≠ n) : UInt8.ofNat m :: xs ≠ UInt8.ofNat n :: ys := fun same =>
  other (octet_inj small small' (List.cons.inj same).1)

theorem tailOf_inj {m n : Nat} (same : tailOf m = tailOf n) : m % 64 = n % 64 := by
  have numbers := octet_inj (by omega) (by omega) same
  omega

/-- A list of codes, none of which begins another, tells its parts. -/
theorem flatMap_injective {α β : Type} {code : α → List β} (nonempty : ∀ a, code a ≠ [])
    (cancels : ∀ {a b xs ys}, code a ++ xs = code b ++ ys → a = b ∧ xs = ys) :
    ∀ {as bs : List α}, as.flatMap code = bs.flatMap code → as = bs
  | [], [], _ => rfl
  | [], b :: _, same => by
      rw [List.flatMap_nil, List.flatMap_cons, eq_comm, List.append_eq_nil_iff] at same
      exact absurd same.1 (nonempty b)
  | a :: _, [], same => by
      rw [List.flatMap_nil, List.flatMap_cons, List.append_eq_nil_iff] at same
      exact absurd same.1 (nonempty a)
  | a :: as, b :: bs, same => by
      rw [List.flatMap_cons, List.flatMap_cons] at same
      obtain ⟨rfl, later⟩ := cancels same
      rw [flatMap_injective nonempty cancels later]

theorem encodeUnit_ne_nil (unit : UInt16) : encodeUnit unit ≠ [] := by
  simp only [encodeUnit]
  split
  · exact List.cons_ne_nil _ _
  split <;> exact List.cons_ne_nil _ _

theorem encodeUnit_cancel {unit other : UInt16} {xs ys : List UInt8}
    (same : encodeUnit unit ++ xs = encodeUnit other ++ ys) : unit = other ∧ xs = ys := by
  have small := unit.toNat_lt
  have small' := other.toNat_lt
  rw [← UInt16.toNat_inj]
  simp only [encodeUnit] at same
  generalize unit.toNat = m at small same
  generalize other.toNat = n at small' same
  split at same
  · split at same
    · obtain ⟨first, later⟩ := List.cons.inj same
      exact ⟨octet_inj (by omega) (by omega) first, later⟩
    split at same
    all_goals exact absurd same (octets_ne (by omega) (by omega) (by omega))
  split at same
  · split at same
    · exact absurd same (octets_ne (by omega) (by omega) (by omega))
    split at same
    · obtain ⟨first, later⟩ := List.cons.inj same
      obtain ⟨second, later⟩ := List.cons.inj later
      have high := octet_inj (by omega) (by omega) first
      have low := tailOf_inj second
      exact ⟨by omega, later⟩
    · exact absurd same (octets_ne (by omega) (by omega) (by omega))
  split at same
  · exact absurd same (octets_ne (by omega) (by omega) (by omega))
  split at same
  · exact absurd same (octets_ne (by omega) (by omega) (by omega))
  · obtain ⟨first, later⟩ := List.cons.inj same
    obtain ⟨second, later⟩ := List.cons.inj later
    obtain ⟨third, later⟩ := List.cons.inj later
    have high := octet_inj (by omega) (by omega) first
    have middle := tailOf_inj second
    have low := tailOf_inj third
    exact ⟨by omega, later⟩

theorem units_ne_nil (c : Char) : units c ≠ [] := by
  simp only [units]
  split <;> exact List.cons_ne_nil _ _

theorem unit_inj {m n : Nat} (small : m < 0x10000) (small' : n < 0x10000)
    (same : UInt16.ofNat m = UInt16.ofNat n) : m = n := by
  have numbers := congrArg UInt16.toNat same
  rwa [toNat_unit small, toNat_unit small'] at numbers

theorem units_cancel {c d : Char} {xs ys : List UInt16}
    (same : units c ++ xs = units d ++ ys) : c = d ∧ xs = ys := by
  have valid : c.toNat < 0xD800 ∨ 0xDFFF < c.toNat ∧ c.toNat < 0x110000 := c.valid
  have valid' : d.toNat < 0xD800 ∨ 0xDFFF < d.toNat ∧ d.toNat < 0x110000 := d.valid
  rw [← Char.toNat_inj]
  simp only [units] at same
  generalize c.toNat = m at valid same
  generalize d.toNat = n at valid' same
  split at same
  · split at same
    · obtain ⟨first, later⟩ := List.cons.inj same
      exact ⟨unit_inj (by omega) (by omega) first, later⟩
    · -- No character of one unit is a surrogate.
      have first := unit_inj (by omega) (by omega) (List.cons.inj same).1
      omega
  split at same
  · have first := unit_inj (by omega) (by omega) (List.cons.inj same).1
    omega
  · obtain ⟨first, later⟩ := List.cons.inj same
    obtain ⟨second, later⟩ := List.cons.inj later
    have high := unit_inj (by omega) (by omega) first
    have low := unit_inj (by omega) (by omega) second
    exact ⟨by omega, later⟩

/-- No two texts are spelled alike. -/
theorem encodeString_injective {text other : String}
    (same : encodeString text = encodeString other) : text = other :=
  String.toList_inj.mp (flatMap_injective units_ne_nil units_cancel
    (flatMap_injective encodeUnit_ne_nil encodeUnit_cancel same))

/-! ## Letters -/

/-- A character of one octet, and not NUL. -/
def IsLetter (c : Char) : Prop :=
  0 < c.toNat ∧ c.toNat < 0x80

instance (c : Char) : Decidable (IsLetter c) :=
  inferInstanceAs (Decidable (_ ∧ _))

/-- A text of nothing but letters. -/
def Letters (text : String) : Prop :=
  ∀ c ∈ text.toList, IsLetter c

instance (text : String) : Decidable (Letters text) :=
  List.decidableBAll IsLetter text.toList

theorem Letters.plain {text : String} (letters : Letters text) : Plain text := by
  intro c member
  obtain ⟨positive, small⟩ := letters c member
  exact ⟨positive, by omega⟩

/-- A sequence that comes to nothing below the characters of two octets. -/
def Heavy (pending : Utf8.Pending) : Prop :=
  2 ≤ pending.value ∨
    2 ≤ pending.due ∧ 2 ≤ pending.value * 64 + (pending.low.toNat - 0x80)

theorem heavy_of_opens {octet : UInt8} {pending : Utf8.Pending}
    (opens : Utf8.lead octet = .opens pending) : Heavy pending := by
  unfold Heavy
  simp only [Utf8.lead] at opens
  generalize octet.toNat = n at opens
  split at opens
  · cases opens
  split at opens
  · cases opens
  split at opens
  · rw [← Utf8.Lead.opens.inj opens]
    exact .inl (by dsimp only; omega)
  split at opens
  · rw [← Utf8.Lead.opens.inj opens]
    exact .inr (by decide)
  split at opens
  · rw [← Utf8.Lead.opens.inj opens]
    exact .inl (by decide)
  split at opens
  · rw [← Utf8.Lead.opens.inj opens]
    exact .inr (by dsimp only; omega)
  split at opens
  · rw [← Utf8.Lead.opens.inj opens]
    exact .inr (by decide)
  split at opens
  · rw [← Utf8.Lead.opens.inj opens]
    exact .inr (by dsimp only; omega)
  split at opens
  · rw [← Utf8.Lead.opens.inj opens]
    exact .inl (by decide)
  · cases opens

theorem toNat_ofNat_of_isValidChar {n : Nat} (valid : n.isValidChar) :
    (Char.ofNat n).toNat = n := by
  rw [Char.ofNat, dif_pos valid]
  rfl

theorem not_isLetter_ofNat {n : Nat} (large : 0x80 ≤ n) : ¬ IsLetter (Char.ofNat n) := by
  rintro ⟨positive, small⟩
  by_cases valid : n.isValidChar
  · rw [toNat_ofNat_of_isValidChar valid] at small
    omega
  · rw [Char.ofNat, dif_neg valid] at positive
    exact absurd positive (by decide)

/-- A heavy sequence comes to something that is no letter. -/
theorem exists_of_heavy {rest : List UInt8} {pending : Utf8.Pending} (heavy : Heavy pending) :
    ∃ first more, decodeUnits (some pending) rest = first :: more ∧
      ∀ c, first = some c → ¬ IsLetter c := by
  induction rest generalizing pending with
  | nil => exact ⟨none, [], rfl, by simp⟩
  | cons octet rest found =>
      obtain ⟨value, due, low, high⟩ := pending
      rw [decodeUnits]
      by_cases inside : low ≤ octet ∧ octet ≤ high
      · rw [if_pos inside]
        have least : low.toNat ≤ octet.toNat := inside.1
        unfold Heavy at heavy
        dsimp only at heavy ⊢
        by_cases last : due ≤ 1
        · rw [if_pos last]
          refine ⟨_, _, rfl, fun c same => ?_⟩
          rw [← Option.some.inj same]
          exact not_isLetter_ofNat (by omega)
        · rw [if_neg last]
          exact found (.inl (by dsimp only; omega))
      · rw [if_neg inside]
        exact ⟨none, _, rfl, by simp⟩

theorem eq_of_lead_ascii {octet : UInt8} {c : Char} (role : Utf8.lead octet = .ascii c) :
    octet = UInt8.ofNat c.toNat := by
  simp only [Utf8.lead] at role
  by_cases small : octet.toNat < 0x80
  · rw [if_pos small] at role
    have number : (Char.ofNat octet.toNat).toNat = octet.toNat :=
      toNat_ofNat_of_isValidChar (.inl (by omega))
    rw [← Utf8.Lead.ascii.inj role, number, UInt8.ofNat_toNat]
  · rw [if_neg small] at role
    repeat' split at role
    all_goals cases role

/-- Octets that come to letters are those of the letters. -/
theorem eq_map_of_letters : ∀ {octets : List UInt8} {cs : List Char},
    (∀ c ∈ cs, IsLetter c) → decodeUnits none octets = cs.map some →
      octets = cs.map fun c => UInt8.ofNat c.toNat
  | [], cs, _, read => by
      rw [decodeUnits, eq_comm, List.map_eq_nil_iff] at read
      rw [read]
      rfl
  | octet :: rest, cs, letters, read => by
      rw [decodeUnits, Utf8.begin] at read
      cases role : Utf8.lead octet with
      | ascii d =>
          rw [role, eq_comm, List.map_eq_cons_iff] at read
          obtain ⟨c, more, rfl, same, later⟩ := read
          rw [List.forall_mem_cons] at letters
          rw [List.map_cons, Option.some.inj same, ← eq_of_lead_ascii role,
            ← eq_map_of_letters letters.2 later.symm]
      | opens pending =>
          obtain ⟨first, later, units, no_letter⟩ :=
            @exists_of_heavy rest pending (heavy_of_opens role)
          rw [role] at read
          dsimp only at read
          rw [units, eq_comm, List.map_eq_cons_iff] at read
          obtain ⟨c, more, rfl, same, _⟩ := read
          exact absurd (letters c List.mem_cons_self) (no_letter c same.symm)
      | malformed =>
          rw [role, eq_comm, List.map_eq_cons_iff] at read
          obtain ⟨c, more, _, same, _⟩ := read
          cases same

/-- What is replaced is no letter. -/
theorem units_of_letters {read : List (Option Char)} {cs : List Char}
    (letters : ∀ c ∈ cs, IsLetter c) (seen : read.map (·.getD replacement) = cs) :
    read = cs.map some := by
  subst seen
  rw [List.map_map]
  refine (List.map_congr_left fun unit member => ?_).trans (List.map_id read) |>.symm
  cases unit with
  | some c => rfl
  | none => exact absurd (letters _ (List.mem_map_of_mem member)) (by decide)

/-- A text of letters is read in a constant exactly if it was written there. -/
theorem eq_encodeString_iff_of_letters {text : String} (letters : Letters text)
    {octets : List UInt8} :
    octets = encodeString text ↔ text = String.ofList (decodeLossy octets) := by
  have written : decodeLossy (encodeString text) = text.toList := by
    rw [encodeString, decodeLossy_encode, flatMap_garble_of_plain letters.plain]
  constructor
  · rintro rfl
    rw [written, String.ofList_toList]
  · intro read
    have seen : decodeLossy octets = text.toList := by rw [read, String.toList_ofList]
    rw [eq_map_of_letters letters (units_of_letters letters seen),
      ← eq_map_of_letters letters (units_of_letters letters written)]

end DependencyAudit.Text.ModifiedUtf8
