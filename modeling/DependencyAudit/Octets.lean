/-
# DependencyAudit.Octets -- fixed-width words as octets

Words are written with their most significant octet first (`big16`, `big32`,
`big64`) or last (`little16`, `little32`, `little64`), and read back by `ofBig`
and `ofLittle`, which take any number of octets (`ofBig_big16`, `ofBig_big32`).
-/

namespace DependencyAudit.Octets

set_option autoImplicit false

/-- The octet that holds bits `8 * place` to `8 * place + 7` of a number. -/
def octetAt (value place : Nat) : UInt8 :=
  UInt8.ofNat (value >>> (8 * place))

def big16 (word : UInt16) : List UInt8 :=
  [octetAt word.toNat 1, octetAt word.toNat 0]

def big32 (word : UInt32) : List UInt8 :=
  [octetAt word.toNat 3, octetAt word.toNat 2, octetAt word.toNat 1, octetAt word.toNat 0]

def big64 (word : UInt64) : List UInt8 :=
  big32 (UInt32.ofNat (word.toNat >>> 32)) ++ big32 (UInt32.ofNat word.toNat)

def little16 (word : UInt16) : List UInt8 :=
  (big16 word).reverse

def little32 (word : UInt32) : List UInt8 :=
  (big32 word).reverse

def little64 (word : UInt64) : List UInt8 :=
  (big64 word).reverse

/-- The number whose most significant octet comes first. -/
def ofBig (octets : List UInt8) : Nat :=
  octets.foldl (fun value octet => value * 256 + octet.toNat) 0

/-- The number whose least significant octet comes first. -/
def ofLittle (octets : List UInt8) : Nat :=
  ofBig octets.reverse

/-! ## Facts -/

@[simp] theorem length_big16 (word : UInt16) : (big16 word).length = 2 := rfl

@[simp] theorem length_big32 (word : UInt32) : (big32 word).length = 4 := rfl

@[simp] theorem toNat_octetAt (value place : Nat) :
    (octetAt value place).toNat = value >>> (8 * place) % 256 := by
  simp [octetAt]

@[simp] theorem ofBig_big16 (word : UInt16) : ofBig (big16 word) = word.toNat := by
  have bound := word.toNat_lt
  simp only [ofBig, big16, List.foldl_cons, List.foldl_nil, toNat_octetAt,
    Nat.shiftRight_eq_div_pow]
  omega

@[simp] theorem ofBig_big32 (word : UInt32) : ofBig (big32 word) = word.toNat := by
  have bound := word.toNat_lt
  simp only [ofBig, big32, List.foldl_cons, List.foldl_nil, toNat_octetAt,
    Nat.shiftRight_eq_div_pow]
  omega

end DependencyAudit.Octets
