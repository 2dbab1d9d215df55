/-
# DependencyAudit.ClassFile.Reader -- reading octets in order

A reader takes octets from the front of a list and leaves the rest.  `take`
reads a fixed number of them, whatever follows (`take_append`), fails exactly
where they run out (`take_eq_error_iff`), and is the only reader that looks at
the octets; all others are built from it, `fail`, and sequencing.
-/
import DependencyAudit.ClassFile.Error
import DependencyAudit.Octets

namespace DependencyAudit.ClassFile

open DependencyAudit.Octets

set_option autoImplicit false

/-- Reads from the front of a list of octets. -/
abbrev Reader := StateT (List UInt8) (Except ClassFileError)

namespace Reader

variable {α : Type}

def fail (error : ClassFileError) : Reader α :=
  fun _ => .error error

/-- The next `count` octets. -/
def take (count : Nat) : Reader (List UInt8) :=
  fun octets =>
    let taken := octets.take count
    if taken.length = count then .ok (taken, octets.drop count) else .error .unexpectedEnd

/-- Passes over `count` octets. -/
def skip (count : Nat) : Reader Unit := do
  let _ ← take count

def byte : Reader UInt8 := do
  let octets ← take 1
  return UInt8.ofNat (ofBig octets)

def word16 : Reader UInt16 := do
  let octets ← take 2
  return UInt16.ofNat (ofBig octets)

def word32 : Reader UInt32 := do
  let octets ← take 4
  return UInt32.ofNat (ofBig octets)

/-- The same reader, `count` times. -/
def times (reader : Reader α) : Nat → Reader (List α)
  | 0 => return []
  | count + 1 => do
      let first ← reader
      let rest ← times reader count
      return first :: rest

/-- As many values as a leading count says. -/
def counted (reader : Reader α) : Reader (List α) := do
  let count ← word16
  times reader count.toNat

/-- Reads a value from octets of its own. -/
def within (octets : List UInt8) (reader : Reader α) : Reader α :=
  fun rest => (reader.run octets).map fun answer => (answer.1, rest)

/-- The value of a look-up, or the reason why there is none. -/
def ofExcept : Except ClassFileError α → Reader α
  | .ok value => pure value
  | .error error => fail error

/-! ## Facts -/

theorem take_eq_ok_iff {count : Nat} {octets taken rest : List UInt8} :
    take count octets = .ok (taken, rest) ↔ octets = taken ++ rest ∧ taken.length = count := by
  simp only [take]
  split
  · rename_i enough
    simp only [Except.ok.injEq, Prod.mk.injEq]
    constructor
    · rintro ⟨rfl, rfl⟩
      exact ⟨(List.take_append_drop count octets).symm, enough⟩
    · rintro ⟨rfl, rfl⟩
      simp
  · rename_i short
    constructor
    · intro impossible
      cases impossible
    · rintro ⟨rfl, rfl⟩
      simp at short

theorem take_eq_error_iff {count : Nat} {octets : List UInt8} {error : ClassFileError} :
    take count octets = .error error ↔ octets.length < count ∧ error = .unexpectedEnd := by
  simp only [take, List.length_take]
  split
  · rename_i enough
    constructor
    · intro impossible
      cases impossible
    · rintro ⟨short, _⟩
      omega
  · rename_i short
    simp only [Except.error.injEq]
    constructor
    · rintro rfl
      exact ⟨by omega, rfl⟩
    · rintro ⟨_, rfl⟩
      rfl

theorem take_append (taken rest : List UInt8) :
    take taken.length (taken ++ rest) = .ok (taken, rest) :=
  take_eq_ok_iff.mpr ⟨rfl, rfl⟩

end Reader

end DependencyAudit.ClassFile
