/-
# DependencyAudit.Archive.Zip -- archives of named entries

A zip archive ends in a trailer that says where its directory is; the directory
has a record for each entry, and the record says where the entry's octets are
and how they are packed.  An entry is a directory by its name, which ends in a
slash of either kind (`Record.isDirectory_iff`).

`directory?` reads the records in order.  The trailer is the last one in the
file; octets put before the archive shift all places by their number.  A large
archive has a second, wider trailer, found through a locator in front of the
first one.

`Record.locate?` finds the packed octets of an entry, refusing what is
encrypted or packed in an unknown way; `Record.unpack?` unpacks them and
compares their checksum.  `write` packs named contents into an archive.
-/
import DependencyAudit.Archive.Checksum
import DependencyAudit.Archive.Inflate
import DependencyAudit.Octets
import DependencyAudit.Text.CodePage437
import DependencyAudit.Text.Utf8

namespace DependencyAudit.Archive.Zip

open DependencyAudit.Octets DependencyAudit.Text

set_option autoImplicit false

/-! ## Reading numbers -/

/-- Reads from the front of a list of octets. -/
abbrev Scanner := StateT (List UInt8) Option

def refuse {α : Type} : Scanner α := fun _ => none

/-- The next `count` octets. -/
def take (count : Nat) : Scanner (List UInt8) := fun octets =>
  let taken := octets.take count
  if taken.length = count then some (taken, octets.drop count) else none

/-- A number of `count` octets. -/
def number (count : Nat) : Scanner Nat := do
  return ofLittle (← take count)

/-- Refuses unless the next four octets are a given mark. -/
def mark (value : Nat) : Scanner Unit := do
  if (← number 4) = value then return () else refuse

/-! ## The trailer -/

def trailerMark : Nat := 0x06054b50
def largeTrailerMark : Nat := 0x06064b50
def locatorMark : Nat := 0x07064b50
def recordMark : Nat := 0x02014b50
def entryMark : Nat := 0x04034b50

/-- What the trailer says. -/
structure Trailer where
  disk : Nat
  directoryDisk : Nat
  entriesHere : Nat
  entries : Nat
  directorySize : Nat
  directoryStart : Nat
  commentLength : Nat
deriving Repr, DecidableEq

namespace Trailer

/-- Whether some number did not fit its field. -/
def overflows (trailer : Trailer) : Bool :=
  trailer.disk = 0xFFFF || trailer.directoryDisk = 0xFFFF || trailer.entriesHere = 0xFFFF ||
    trailer.entries = 0xFFFF || trailer.directorySize = 0xFFFFFFFF ||
    trailer.directoryStart = 0xFFFFFFFF

/-- Reads the trailer after its mark, with its comment. -/
def read : Scanner Trailer := do
  let disk ← number 2
  let directoryDisk ← number 2
  let entriesHere ← number 2
  let entries ← number 2
  let directorySize ← number 4
  let directoryStart ← number 4
  let commentLength ← number 2
  let _ ← take commentLength
  return ⟨disk, directoryDisk, entriesHere, entries, directorySize, directoryStart,
    commentLength⟩

end Trailer

/-- Whether a mark stands at the front. -/
def isMarked (value : Nat) (octets : List UInt8) : Bool :=
  (little32 (UInt32.ofNat value)).isPrefixOf octets

/-- The last place, from `lowest` to `highest`, at which a mark stands: `best` if
there is none in the octets given, which start at `place`. -/
def lastMark? (value lowest highest : Nat) (best : Option Nat) : Nat → List UInt8 → Option Nat
  | _, [] => best
  | place, octet :: rest =>
      let here := lowest ≤ place && place ≤ highest && isMarked value (octet :: rest)
      lastMark? value lowest highest (if here then some place else best) (place + 1) rest

/-- The first place, from `lowest` to `highest`, at which a mark stands in the
octets given, which start at `place`. -/
def firstMark? (value lowest highest : Nat) : Nat → List UInt8 → Option Nat
  | _, [] => none
  | place, octet :: rest =>
      if lowest ≤ place ∧ place ≤ highest ∧ isMarked value (octet :: rest) then some place
      else firstMark? value lowest highest (place + 1) rest

/-- Reads at some place of a file. -/
def readAt {α : Type} (file : List UInt8) (place : Nat) (scanner : Scanner α) : Option α :=
  (scanner.run (file.drop place)).map Prod.fst

/-- The trailer of a file and its place. -/
def trailer? (file : List UInt8) : Option (Nat × Trailer) := do
  if file.length < 22 then none
  else
    let place ← lastMark? trailerMark (file.length - (22 + 0xFFFF)) (file.length - 22) none 0 file
    let trailer ← readAt file (place + 4) Trailer.read
    return (place, trailer)

/-! ## The directory -/

/-- Where the records are, how many there are, and how many octets stand before
the archive. -/
structure Extent where
  shift : Nat
  start : Nat
  count : Nat
deriving Repr, DecidableEq

/-- What the locator of a large archive says after its mark: the disk of the
wide trailer and its place. -/
def readLocator : Scanner (Nat × Nat) := do
  let disk ← number 4
  let place ← number 8
  let _ ← number 4
  return (disk, place)

/-- The extent that the wide trailer describes after its mark. -/
def readLargeTrailer (shift : Nat) : Scanner Extent := do
  let _ ← take 12
  let disk ← number 4
  let directoryDisk ← number 4
  let _ ← number 8
  let count ← number 8
  let _ ← number 8
  let start ← number 8
  if disk = directoryDisk ∧ start + shift < UInt64.size then return ⟨shift, start + shift, count⟩
  else refuse

/-- The extent of a large archive whose first trailer is at some place. -/
def largeExtent? (file : List UInt8) (place : Nat) (trailer : Trailer) : Option Extent := do
  let locatorPlace := file.length - (42 + trailer.commentLength)
  let (disk, nominal) ← readAt file (locatorPlace + 4) readLocator
  if (!trailer.overflows && trailer.disk != disk) || place < 60 then none
  else
    let found ← firstMark? largeTrailerMark nominal (place - 60) 0 file
    readAt file (found + 4) (readLargeTrailer (found - nominal))

/-- The extent of an archive without a wide trailer. -/
def plainExtent? (place : Nat) (trailer : Trailer) : Option Extent :=
  if trailer.directorySize + trailer.directoryStart ≤ place then
    let shift := place - trailer.directorySize - trailer.directoryStart
    some ⟨shift, trailer.directoryStart + shift, trailer.entriesHere⟩
  else none

/-- The extent of the directory of a file. -/
def extent? (file : List UInt8) : Option Extent := do
  let (place, trailer) ← trailer? file
  if !trailer.overflows && trailer.disk != trailer.directoryDisk then none
  else if file.length < 42 + trailer.commentLength then plainExtent? place trailer
  else
    if isMarked locatorMark (file.drop (file.length - (42 + trailer.commentLength))) then
      largeExtent? file place trailer
    else plainExtent? place trailer

/-! ## Records -/

/-- A record of the directory. -/
structure Record where
  name : String
  encrypted : Bool
  method : Nat
  checksum : Nat
  packedSize : Nat
  size : Nat
  start : Nat
deriving Repr, DecidableEq

namespace Record

/-- A name that ends in a slash of either kind is a directory's. -/
def isDirectory (record : Record) : Bool :=
  match record.name.toList.getLast? with
  | some last => last = '/' || last = '\\'
  | none => false

/-- How a record's supplements change it: wide numbers, or another method for
data under a cipher. -/
inductive Supplemented where
  | record (record : Record) (cipher : Bool)
  | refused
deriving Repr, DecidableEq

/-- Replaces a number that did not fit its field by the next wide one. -/
def widen (value : Nat) : Scanner (Nat × Bool) := do
  if value = 0xFFFFFFFF then return (← number 8, true) else return (value, false)

/-- The sizes and the place of a record in their wide form; the number of wide
numbers read. -/
def readWide (record : Record) : Scanner (Record × Nat) := do
  let (size, first) ← widen record.size
  let (packedSize, second) ← widen record.packedSize
  let (start, third) ← widen record.start
  return ({ record with size, packedSize, start }, first.toNat + second.toNat + third.toNat)

/-- The parts of a cipher supplement: version, vendor, strength, method. -/
def readCipher : Scanner (Nat × Nat × Nat × Nat) := do
  return (← number 2, ← number 2, ← number 1, ← number 2)

/-- Reads supplements as long as they are whole. -/
def supplement : Nat → Record → Bool → List UInt8 → Supplemented
  | 0, record, cipher, _ => .record record cipher
  | _ + 1, record, cipher, [] => .record record cipher
  | budget + 1, record, cipher, octets =>
      match (do return (← number 2, ← number 2) : Scanner (Nat × Nat)).run octets with
      | none => .record record cipher
      | some ((kind, length), rest) =>
          if kind = 0x0001 then
            match (readWide record).run rest with
            | none => .record record cipher
            | some ((wide, count), after) =>
                supplement budget wide cipher (after.drop (length - 8 * count))
          else if kind = 0x9901 then
            if length ≠ 7 then .refused
            else match readCipher.run rest with
              | none => .record record cipher
              | some ((version, vendor, strength, method), after) =>
                  if vendor ≠ 0x4541 ∨ (version ≠ 1 ∧ version ≠ 2) ∨ strength < 1 ∨ 3 < strength
                  then .refused
                  else supplement budget { record with method } true (after.drop length)
          else supplement budget record cipher (rest.drop length)

/-- Reads a record of an archive that stands after `shift` octets. -/
def read (shift : Nat) : Scanner Record := do
  mark recordMark
  let _ ← take 4
  let flags ← number 2
  let method ← number 2
  let _ ← take 4
  let checksum ← number 4
  let packedSize ← number 4
  let size ← number 4
  let nameLength ← number 2
  let supplementLength ← number 2
  let commentLength ← number 2
  let _ ← take 8
  let start ← number 4
  let nameOctets ← take nameLength
  let supplements ← take supplementLength
  let _ ← take commentLength
  let name :=
    if flags.testBit 11 then Utf8.decodeLossy nameOctets else decodeCodePage437 nameOctets
  let plain : Record :=
    ⟨String.ofList name, flags.testBit 0, method, checksum, packedSize, size, start⟩
  match supplement (supplements.length + 1) plain false supplements with
  | .refused => refuse
  | .record record cipher =>
      if (record.method = 99 ∧ !cipher) ∨ UInt64.size ≤ record.start + shift then refuse
      else return { record with start := record.start + shift }

/-- Reads `count` records. -/
def readMany (shift : Nat) : Nat → Scanner (List Record)
  | 0 => return []
  | count + 1 => do
      let first ← read shift
      let rest ← readMany shift count
      return first :: rest

end Record

/-- The records of an archive, in order. -/
def directory? (file : List UInt8) : Option (List Record) := do
  let extent ← extent? file
  readAt file extent.start (Record.readMany extent.shift extent.count)

/-! ## Entries -/

namespace Record

/-- The place of the packed octets after an entry's own header. -/
def readHeader (start : Nat) : Scanner Nat := do
  mark entryMark
  let _ ← take 22
  let nameLength ← number 2
  let supplementLength ← number 2
  return start + 30 + nameLength + supplementLength

/-- The packed octets of an entry, as far as the file has them. -/
def locate? (record : Record) (file : List UInt8) : Option (List UInt8) :=
  if record.encrypted then none
  else do
    let place ← readAt file record.start (readHeader record.start)
    if record.method = 0 ∨ record.method = 8 then some ((file.drop place).take record.packedSize)
    else none

/-- The content of packed octets, if it has the checksum of the record. -/
def unpack? (record : Record) (packed : List UInt8) : Option (List UInt8) := do
  let content ← if record.method = 0 then some packed else Inflate.inflate? packed
  if (Checksum.checksum content).toNat = record.checksum then some content else none

end Record

/-! ## Writing -/

/-- A named content to be packed. -/
structure Content where
  name : String
  octets : List UInt8
deriving Repr, DecidableEq

/-- A stretch of at most 65535 octets as a block stored as it is. -/
def storedBlock (last : Bool) (octets : List UInt8) : List UInt8 :=
  let length := UInt16.ofNat octets.length
  (if last then 1 else 0) :: little16 length ++ little16 (0xFFFF - length) ++ octets

/-- Octets as stored blocks, at most `budget` of them. -/
def storedBlocks : Nat → List UInt8 → List UInt8
  | 0, _ => []
  | budget + 1, octets =>
      if octets.length ≤ 0xFFFF then storedBlock true octets
      else storedBlock false (octets.take 0xFFFF) ++ storedBlocks budget (octets.drop 0xFFFF)

/-- Octets as compressed data; nothing at all is an empty block of fixed codes. -/
def pack (octets : List UInt8) : List UInt8 :=
  if octets.isEmpty then [0x03, 0x00] else storedBlocks (octets.length + 1) octets

/-- The flags of an entry, one of which says that its name is not ASCII. -/
def flagsOf (name : String) : UInt16 :=
  if name.toList.all fun c => c.toNat < 0x80 then 0 else 0x0800

/-- The fields that an entry's header and its record share, from the flags to
the length of the supplements. -/
def sharedFields (content : Content) : List UInt8 :=
  little16 (flagsOf content.name) ++ little16 8 ++ [0, 0, 0x21, 0] ++
    little32 (Checksum.checksum content.octets) ++
    little32 (UInt32.ofNat (pack content.octets).length) ++
    little32 (UInt32.ofNat content.octets.length) ++
    little16 (UInt16.ofNat (Utf8.encodeString content.name).length) ++ little16 0

/-- An entry: header, name, packed octets. -/
def writeEntry (content : Content) : List UInt8 :=
  little32 0x04034b50 ++ little16 20 ++ sharedFields content ++
    Utf8.encodeString content.name ++ pack content.octets

/-- The record of an entry that starts at some place. -/
def writeRecord (content : Content) (start : Nat) : List UInt8 :=
  little32 0x02014b50 ++ little16 0x032E ++ little16 20 ++ sharedFields content ++
    little16 0 ++ little16 0 ++ little16 0 ++ little32 0x81A40000 ++
    little32 (UInt32.ofNat start) ++ Utf8.encodeString content.name

/-- Entries and records of some contents, the first entry at some place. -/
def writeParts : Nat → List Content → List UInt8 × List UInt8
  | _, [] => ([], [])
  | start, content :: rest =>
      let entry := writeEntry content
      let (entries, records) := writeParts (start + entry.length) rest
      (entry ++ entries, writeRecord content start ++ records)

/-- The archive of some contents, in order. -/
def write (contents : List Content) : List UInt8 :=
  let (entries, records) := writeParts 0 contents
  entries ++ records ++ little32 0x06054b50 ++ little16 0 ++ little16 0 ++
    little16 (UInt16.ofNat contents.length) ++ little16 (UInt16.ofNat contents.length) ++
    little32 (UInt32.ofNat records.length) ++ little32 (UInt32.ofNat entries.length) ++
    little16 0

/-! ## Facts -/

theorem Record.isDirectory_iff {record : Record} :
    record.isDirectory = true ↔
      record.name.toList.getLast? = some '/' ∨ record.name.toList.getLast? = some '\\' := by
  unfold Record.isDirectory
  split <;> simp_all

end DependencyAudit.Archive.Zip
