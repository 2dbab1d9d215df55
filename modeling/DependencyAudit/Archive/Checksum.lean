/-
# DependencyAudit.Archive.Checksum -- the cyclic redundancy check of archives

Archives guard each entry by the 32-bit remainder of its octets, lowest bit
first, under the polynomial whose reversed bits are `EDB88320`.  Octets can be
added one stretch after the other (`run_append`).
-/

namespace DependencyAudit.Archive.Checksum

set_option autoImplicit false

/-- Divides one more bit. -/
def stepBit (remainder : UInt32) : UInt32 :=
  if remainder &&& 1 = 1 then (remainder >>> 1) ^^^ 0xEDB88320 else remainder >>> 1

/-- Divides one more octet. -/
def stepOctet (remainder : UInt32) (octet : UInt8) : UInt32 :=
  stepBit (stepBit (stepBit (stepBit (stepBit (stepBit (stepBit (stepBit
    (remainder ^^^ octet.toUInt32))))))))

/-- Divides more octets. -/
def run (remainder : UInt32) (octets : List UInt8) : UInt32 :=
  octets.foldl stepOctet remainder

/-- The checksum of some octets. -/
def checksum (octets : List UInt8) : UInt32 :=
  run 0xFFFFFFFF octets ^^^ 0xFFFFFFFF

theorem run_append (remainder : UInt32) (octets more : List UInt8) :
    run remainder (octets ++ more) = run (run remainder octets) more :=
  List.foldl_append

end DependencyAudit.Archive.Checksum
