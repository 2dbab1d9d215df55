/-
# DependencyAudit.Proofs.SpelledClasses -- class files in the spelling of their format

What a layout says of a class depends on how its constants spell their texts.  In the spelling
of the format a linked layout says one thing only (`Linked.exists_only`).  A reader of
UTF-8 follows the same indices to the same constants, and sees the texts there garbled
(`ClassSaid.read`).

So a class file that is laid out by its format is read as what it says, with garbled texts,
whatever constants and attributes are mixed into it and whatever follows it
(`parse_encode_of_linked`): nothing is passed over by a wrong length, for then an index would
lead astray or the octets run out.  If all of its texts are plain, it is read as what it says.
Others are not, and a class `q.𝒳` comes out with six replacement characters for its name
(`not_forall_parse_eq`).
-/
import DependencyAudit.Proofs.Linked

namespace DependencyAudit

open Text

set_option autoImplicit false

/-! ## Garbled classes -/

namespace Member

/-- The texts of a field or method. -/
def texts (member : Member) : List String :=
  member.name :: member.descriptor :: member.signature.toList ++ member.exceptions

/-- What a reader of UTF-8 sees of a field or method. -/
def garbled (member : Member) : Member where
  access := member.access
  name := ModifiedUtf8.garbled member.name
  descriptor := ModifiedUtf8.garbled member.descriptor
  signature := member.signature.map ModifiedUtf8.garbled
  exceptions := member.exceptions.map ModifiedUtf8.garbled

end Member

namespace ClassFile

/-- The texts of a class. -/
def texts (file : ClassFile) : List String :=
  file.name :: file.superclass.toList ++ file.interfaces ++ file.signature.toList ++
    file.members.flatMap Member.texts ++ file.poolClasses ++ file.poolDescriptors

/-- What a reader of UTF-8 sees of a class. -/
def garbled (file : ClassFile) : ClassFile where
  name := ModifiedUtf8.garbled file.name
  access := file.access
  superclass := file.superclass.map ModifiedUtf8.garbled
  interfaces := file.interfaces.map ModifiedUtf8.garbled
  signature := file.signature.map ModifiedUtf8.garbled
  fields := file.fields.map Member.garbled
  methods := file.methods.map Member.garbled
  poolClasses := file.poolClasses.map ModifiedUtf8.garbled
  poolDescriptors := file.poolDescriptors.map ModifiedUtf8.garbled

end ClassFile

theorem map_eq_self {α : Type} {image : α → α} {values : List α}
    (kept : ∀ value ∈ values, image value = value) : values.map image = values :=
  (List.map_congr_left kept).trans (List.map_id values)

theorem option_map_eq_self {α : Type} {image : α → α} {value : Option α}
    (kept : ∀ inside ∈ value.toList, image inside = inside) : value.map image = value := by
  cases value with
  | none => rfl
  | some inside => exact congrArg some (kept inside List.mem_cons_self)

theorem Member.texts_garbled (member : Member) :
    member.garbled.texts = member.texts.map ModifiedUtf8.garbled := by
  simp [texts, garbled, Option.toList_map]

theorem ClassFile.texts_garbled (file : ClassFile) :
    file.garbled.texts = file.texts.map ModifiedUtf8.garbled := by
  simp [texts, garbled, members, List.map_flatMap, List.flatMap_map, Option.toList_map,
    Member.texts_garbled]

/-- A field or method of plain texts is seen as it is. -/
theorem Member.garbled_of_plain {member : Member}
    (plain : ∀ text ∈ member.texts, ModifiedUtf8.Plain text) : member.garbled = member := by
  have kept := fun text listed => ModifiedUtf8.garbled_of_plain (plain text listed)
  simp only [texts, List.cons_append, List.forall_mem_cons, List.forall_mem_append] at kept
  obtain ⟨name, descriptor, signature, exceptions⟩ := kept
  simp only [garbled, name, descriptor, option_map_eq_self signature, map_eq_self exceptions]

/-- A class of plain texts is seen as it is. -/
theorem ClassFile.garbled_of_plain {file : ClassFile}
    (plain : ∀ text ∈ file.texts, ModifiedUtf8.Plain text) : file.garbled = file := by
  have kept := fun text listed => ModifiedUtf8.garbled_of_plain (plain text listed)
  have members : ∀ member ∈ file.members, member.garbled = member := by
    intro member listed
    refine Member.garbled_of_plain fun text among => plain text ?_
    simp only [texts, List.mem_append, List.mem_flatMap]
    exact .inl (.inl (.inr ⟨member, listed, among⟩))
  simp only [texts, List.cons_append, List.forall_mem_cons, List.forall_mem_append] at kept
  obtain ⟨name, ⟨⟨⟨⟨superclass, interfaces⟩, signature⟩, _⟩, poolClasses⟩, poolDescriptors⟩ := kept
  simp only [ClassFile.members, List.forall_mem_append] at members
  simp only [garbled, name, option_map_eq_self superclass, map_eq_self interfaces,
    option_map_eq_self signature, map_eq_self members.1, map_eq_self members.2,
    map_eq_self poolClasses, map_eq_self poolDescriptors]

/-- What is seen without any replacement is what there is. -/
theorem ClassFile.eq_garbled_of_no_replacement {file : ClassFile}
    (clean : ∀ text ∈ file.garbled.texts, ModifiedUtf8.replacement ∉ text.toList) :
    file.garbled = file := by
  refine garbled_of_plain fun text listed => ModifiedUtf8.plain_of_no_replacement (clean _ ?_)
  rw [texts_garbled]
  exact List.mem_map_of_mem listed

namespace ClassFile.Layout

section Spelled

variable {layout : Layout} {spelling : Spelling}

/-! ## One class for each spelling -/

/-- A text that was spelled in a constant stands there. -/
theorem textAt_of_spelled {index : UInt16} {text : String}
    (found : constantAt? layout.pool index.toNat =
      some (.utf8 (ModifiedUtf8.encodeString text))) :
    layout.TextAt .modified index text :=
  ⟨_, found, rfl⟩

theorem classNamedAt_unique : Relator.RightUnique (layout.ClassNamedAt spelling) := by
  rintro index _ _ ⟨internal, ⟨name, found, here⟩, rfl⟩ ⟨internal', ⟨name', found', here'⟩, rfl⟩
  cases found.symm.trans found'
  rw [textAt_unique here here']

theorem signatureSaid_unique {attributes : List Attribute} {signature other : Option String}
    (said : layout.SignatureSaid spelling attributes signature)
    (said' : layout.SignatureSaid spelling attributes other) : signature = other := by
  cases signature with
  | none =>
      cases other with
      | none => rfl
      | some text =>
          obtain ⟨_, ⟨item, last, _⟩, _⟩ := said'
          exact absurd last.holds (said item last.mem)
  | some text =>
      obtain ⟨index, ⟨item, last, body⟩, here⟩ := said
      cases other with
      | none => exact absurd last.holds (said' item last.mem)
      | some text' =>
          obtain ⟨index', ⟨item', last', body'⟩, here'⟩ := said'
          cases last.unique last'
          cases body.symm.trans body'
          rw [textAt_unique here here']

theorem memberSaid_unique : Relator.RightUnique (layout.MemberSaid spelling) := by
  rintro item ⟨access, name, descriptor, signature, exceptions⟩
    ⟨access', name', descriptor', signature', exceptions'⟩ said said'
  cases said.access.trans said'.access.symm
  cases textAt_unique said.name said'.name
  cases textAt_unique said.descriptor said'.descriptor
  cases signatureSaid_unique said.signature said'.signature
  cases classNamedAt_unique.forall₂ said.exceptions said'.exceptions
  rfl

/-- A layout says one thing of a class. -/
theorem classSaid_unique {file other : ClassFile} (said : layout.ClassSaid spelling file)
    (said' : layout.ClassSaid spelling other) : file = other := by
  have name : file.name = other.name := by
    cases module : layout.access.isModule with
    | true => rw [said.module_name module, said'.module_name module]
    | false => exact classNamedAt_unique (said.name module) (said'.name module)
  have superclass : file.superclass = other.superclass := by
    cases above : file.superclass with
    | none => rw [said'.no_superclass.mpr (said.no_superclass.mp above)]
    | some name =>
        cases above' : other.superclass with
        | none =>
            rw [said.no_superclass.mpr (said'.no_superclass.mp above')] at above
            cases above
        | some name' =>
            exact congrArg some
              (classNamedAt_unique (said.superclass name above) (said'.superclass name' above'))
  have texts : Relator.RightUnique (layout.TextAt spelling) := fun _ _ _ => textAt_unique
  have access := said.access.trans said'.access.symm
  have interfaces := classNamedAt_unique.forall₂ said.interfaces said'.interfaces
  have signature := signatureSaid_unique said.signature said'.signature
  have fields := memberSaid_unique.forall₂ said.fields said'.fields
  have methods := memberSaid_unique.forall₂ said.methods said'.methods
  have poolClasses := texts.forall₂ said.poolClasses said'.poolClasses
  have poolDescriptors := texts.forall₂ said.poolDescriptors said'.poolDescriptors
  cases file
  cases other
  simp only at *
  subst name access superclass interfaces signature fields methods poolClasses poolDescriptors
  rfl

/-! ## What is seen of it -/

theorem ClassAt.read {index : UInt16} {internal : String}
    (here : layout.ClassAt .modified index internal) :
    layout.ClassAt .lossy index (ModifiedUtf8.garbled internal) := by
  obtain ⟨name, found, here⟩ := here
  exact ⟨name, found, here.read⟩

theorem ClassNamedAt.read {index : UInt16} {className : String}
    (named : layout.ClassNamedAt .modified index className) :
    layout.ClassNamedAt .lossy index (ModifiedUtf8.garbled className) := by
  obtain ⟨internal, here, rfl⟩ := named
  exact ⟨_, here.read, (ClassName.ofInternal_garbled internal).symm⟩

theorem ClassNamedAt.read_all {indices : List UInt16} {names : List String}
    (named : List.Forall₂ (layout.ClassNamedAt .modified) indices names) :
    List.Forall₂ (layout.ClassNamedAt .lossy) indices (names.map ModifiedUtf8.garbled) :=
  List.forall₂_map_right_iff.mpr (named.imp fun _ _ => ClassNamedAt.read)

theorem TextAt.read_all {indices : List UInt16} {texts : List String}
    (here : List.Forall₂ (layout.TextAt .modified) indices texts) :
    List.Forall₂ (layout.TextAt .lossy) indices (texts.map ModifiedUtf8.garbled) :=
  List.forall₂_map_right_iff.mpr (here.imp fun _ _ => TextAt.read)

theorem textAt_signature_iff {index : UInt16} :
    layout.TextAt .modified index "Signature" ↔ layout.TextAt .lossy index "Signature" :=
  textAt_iff_of_letters (by decide)

theorem SignatureSaid.read {attributes : List Attribute} {signature : Option String}
    (said : layout.SignatureSaid .modified attributes signature) :
    layout.SignatureSaid .lossy attributes (signature.map ModifiedUtf8.garbled) := by
  cases signature with
  | none => exact fun item listed => mt textAt_signature_iff.mpr (said item listed)
  | some text =>
      obtain ⟨index, last, here⟩ := said
      exact ⟨index, signatureOf_iff.mp last, here.read⟩

theorem MemberSaid.read {item : MemberLayout} {member : Member}
    (said : layout.MemberSaid .modified item member) :
    layout.MemberSaid .lossy item member.garbled where
  access := said.access
  name := said.name.read
  descriptor := said.descriptor.read
  signature := said.signature.read
  exceptions := ClassNamedAt.read_all said.exceptions

/-- A reader of UTF-8 sees what a layout says of a class, with garbled texts. -/
theorem ClassSaid.read {file : ClassFile} (said : layout.ClassSaid .modified file) :
    layout.ClassSaid .lossy file.garbled where
  access := said.access
  name ordinary := (said.name ordinary).read
  module_name module := by
    simp only [garbled, said.module_name module]
    exact ModifiedUtf8.garbled_of_plain (by decide)
  superclass name above := by
    obtain ⟨className, found, rfl⟩ := Option.map_eq_some_iff.mp above
    exact (said.superclass className found).read
  no_superclass := Option.map_eq_none_iff.trans said.no_superclass
  interfaces := ClassNamedAt.read_all said.interfaces
  signature := said.signature.read
  fields := List.forall₂_map_right_iff.mpr (said.fields.imp fun _ _ => MemberSaid.read)
  methods := List.forall₂_map_right_iff.mpr (said.methods.imp fun _ _ => MemberSaid.read)
  poolClasses := TextAt.read_all said.poolClasses
  poolDescriptors := TextAt.read_all said.poolDescriptors

/-! ## Links -/

theorem exists_read {index : UInt16} (here : ∃ text, layout.TextAt .modified index text) :
    ∃ text, layout.TextAt .lossy index text := by
  obtain ⟨text, here⟩ := here
  exact ⟨_, here.read⟩

theorem exists_classRead {index : UInt16}
    (here : ∃ internal, layout.ClassAt .modified index internal) :
    ∃ internal, layout.ClassAt .lossy index internal := by
  obtain ⟨internal, here⟩ := here
  exact ⟨_, here.read⟩

/-- An attribute of another name does not seem to have one of those that are understood. -/
theorem AttributeLinked.read {item : Attribute} (linked : layout.AttributeLinked .modified item) :
    layout.AttributeLinked .lossy item := by
  have exceptions : layout.TextAt .modified item.name "Exceptions" ↔
      layout.TextAt .lossy item.name "Exceptions" := textAt_iff_of_letters (by decide)
  unfold AttributeLinked at linked ⊢
  cases body : item.body with
  | signature index =>
      simp only [body] at linked ⊢
      exact ⟨textAt_signature_iff.mp linked.1, exists_read linked.2⟩
  | exceptions indices =>
      simp only [body] at linked ⊢
      exact ⟨exceptions.mp linked.1, fun index thrown => exists_classRead (linked.2 index thrown)⟩
  | other octets =>
      simp only [body] at linked ⊢
      obtain ⟨name, here, no_signature, no_exceptions⟩ := linked
      refine ⟨_, here.read, fun same => ?_, fun same => ?_⟩
      · exact no_signature (textAt_unique here (textAt_signature_iff.mpr (same ▸ here.read)))
      · exact no_exceptions (textAt_unique here (exceptions.mpr (same ▸ here.read)))

theorem MemberLinked.read {item : MemberLayout} (linked : layout.MemberLinked .modified item) :
    layout.MemberLinked .lossy item where
  name := exists_read linked.name
  descriptor := exists_read linked.descriptor
  attributes held listed := (linked.attributes held listed).read

/-- What is linked in the spelling of the format is linked for a reader of UTF-8. -/
theorem Linked.read (linked : layout.Linked .modified) : layout.Linked .lossy where
  classNames index listed := exists_read (linked.classNames index listed)
  descriptors index listed := exists_read (linked.descriptors index listed)
  thisClass ordinary := exists_classRead (linked.thisClass ordinary)
  superclass present := exists_classRead (linked.superclass present)
  interfaces index listed := exists_classRead (linked.interfaces index listed)
  fields item listed := (linked.fields item listed).read
  methods item listed := (linked.methods item listed).read
  attributes held listed := (linked.attributes held listed).read

/-! ## Reading -/

/-- A linked layout says one thing of a class. -/
theorem Linked.exists_only (linked : layout.Linked spelling) :
    ∃ file, ∀ other, layout.ClassSaid spelling other ↔ other = file := by
  obtain ⟨file, said⟩ := linked.exists_classSaid
  refine ⟨file, fun other => ⟨fun said' => classSaid_unique said' said, ?_⟩⟩
  rintro rfl
  exact said

/-- **A class file is read as what it says.**  Whatever constants and attributes a layout has
besides, and whatever follows its octets, if it is linked in the spelling of the format, they are
read as the one and only class that it speaks of, garbled, and as that class itself if its texts
are plain.  If the octets of its texts are no such spelling, but it is linked as UTF-8, they are
read as the one and only class that it speaks of as UTF-8. -/
theorem parse_encode_of_linked (encodable : layout.Encodable) (rest : List UInt8) :
    (layout.Linked .modified →
      ∃ file, (∀ other, layout.ClassSaid .modified other ↔ other = file) ∧
        parse (layout.encode ++ rest) = .ok file.garbled ∧
        ((∀ text ∈ file.texts, ModifiedUtf8.Plain text) →
          parse (layout.encode ++ rest) = .ok file)) ∧
      (layout.Linked .lossy →
        ∃ seen, (∀ other, layout.ClassSaid .lossy other ↔ other = seen) ∧
          parse (layout.encode ++ rest) = .ok seen) := by
  constructor
  · intro linked
    obtain ⟨file, only⟩ := linked.exists_only
    have seen : layout.ClassSaid .lossy file.garbled := ((only file).mpr rfl).read
    have parsed := parse_encode_of_said seen linked.read encodable rest
    refine ⟨file, only, parsed, fun plain => ?_⟩
    rw [parsed, garbled_of_plain plain]
  · intro linked
    obtain ⟨seen, only⟩ := linked.exists_only
    exact ⟨seen, only, parse_encode_of_said ((only seen).mpr rfl) linked encodable rest⟩

end Spelled

namespace Mixed

/-- A class `p.A` with constants of every kind.  Its method has two signatures and two lists
of exceptions, with an attribute of another name in front of them, and the name of its
name-and-type constant leads nowhere. -/
def layout : Layout where
  minorVersion := 3
  majorVersion := 61
  pool := [
    .long 7, .utf8 (ModifiedUtf8.encodeString "p/A"), .classRef 3, .double 0,
    .utf8 (ModifiedUtf8.encodeString "Signature"), .utf8 (ModifiedUtf8.encodeString "Exceptions"),
    .utf8 (ModifiedUtf8.encodeString "Code"), .utf8 (ModifiedUtf8.encodeString "TT;"),
    .utf8 (ModifiedUtf8.encodeString "Lp/B;"), .utf8 (ModifiedUtf8.encodeString "()V"),
    .utf8 (ModifiedUtf8.encodeString "p/X"), .classRef 13, .integer 5, .float 6, .string 3,
    .fieldRef 4 21, .methodRef 4 21, .interfaceMethodRef 4 21, .nameAndType 99 11,
    .methodHandle 1 17, .methodType 12, .dynamic 0 21, .invokeDynamic 0 21, .module 3, .package 3]
  access := ⟨0x0021⟩
  thisClass := 4
  superclass := 0
  interfaces := [14]
  fields := []
  methods := [⟨⟨0x0001⟩, 9, 12, [
    ⟨9, .other [0xCA, 0xFE]⟩, ⟨8, .exceptions [14, 4]⟩, ⟨7, .signature 10⟩, ⟨8, .exceptions [14]⟩,
    ⟨7, .signature 11⟩]⟩]
  attributes := [⟨9, .other []⟩]

/-- What it says. -/
def file : ClassFile where
  name := "p.A"
  access := ⟨0x0021⟩
  superclass := none
  interfaces := ["p.X"]
  signature := none
  fields := []
  methods := [⟨⟨0x0001⟩, "Code", "()V", some "Lp/B;", ["p.X", "p.A", "p.X"]⟩]
  poolClasses := ["p/A", "p/X"]
  poolDescriptors := ["Lp/B;", "()V"]

theorem encodable : layout.Encodable where
  slots := by decide
  texts := by decide
  interfaces := by decide
  fields := by decide
  methods := by decide
  members := by decide
  attributes := by decide
  thrown := by decide

theorem classAt_own : layout.ClassAt .modified 4 "p/A" :=
  ⟨3, rfl, textAt_of_spelled rfl⟩

theorem classAt_other : layout.ClassAt .modified 14 "p/X" :=
  ⟨13, rfl, textAt_of_spelled rfl⟩

theorem linked : layout.Linked .modified where
  classNames := by
    simp only [layout, List.filterMap, Entry.classIndex?, List.forall_mem_cons]
    exact ⟨⟨_, textAt_of_spelled rfl⟩, ⟨_, textAt_of_spelled rfl⟩, by simp⟩
  descriptors := by
    simp only [layout, List.filterMap, Entry.descriptorIndex?, List.forall_mem_cons]
    exact ⟨⟨_, textAt_of_spelled rfl⟩, ⟨_, textAt_of_spelled rfl⟩, by simp⟩
  thisClass := fun _ => ⟨_, classAt_own⟩
  superclass := fun present => absurd rfl present
  interfaces := by
    simp only [layout, List.forall_mem_cons]
    exact ⟨⟨_, classAt_other⟩, by simp⟩
  fields := by simp [layout]
  methods := by
    simp only [layout, List.forall_mem_cons]
    refine ⟨⟨⟨_, textAt_of_spelled rfl⟩, ⟨_, textAt_of_spelled rfl⟩, ?_⟩, by simp⟩
    simp only [List.forall_mem_cons]
    refine ⟨⟨"Code", textAt_of_spelled rfl, by decide⟩, ⟨textAt_of_spelled rfl, ?_⟩,
      ⟨textAt_of_spelled rfl, _, textAt_of_spelled rfl⟩, ⟨textAt_of_spelled rfl, ?_⟩,
      ⟨textAt_of_spelled rfl, _, textAt_of_spelled rfl⟩, by simp⟩
    · simp only [List.forall_mem_cons]
      exact ⟨⟨_, classAt_other⟩, ⟨_, classAt_own⟩, by simp⟩
    · simp only [List.forall_mem_cons]
      exact ⟨⟨_, classAt_other⟩, by simp⟩
  attributes := by
    simp only [layout, List.forall_mem_cons]
    exact ⟨⟨"Code", textAt_of_spelled rfl, by decide⟩, by simp⟩

theorem parsed : parse (layout.encode ++ [0xCA]) = .ok file :=
  Outcome.toOption_eq_some.mp (by decide)

end Mixed

/-- With an octet behind it, the class file is read as the one class that it speaks of. -/
theorem parse_encode_of_mixed :
    parse (Mixed.layout.encode ++ [0xCA]) = .ok Mixed.file ∧
      ∀ other, Mixed.layout.ClassSaid .modified other ↔ other = Mixed.file := by
  obtain ⟨file, only, parsed, _⟩ :=
    (parse_encode_of_linked Mixed.encodable [0xCA]).1 Mixed.linked
  have seen : file.garbled = Mixed.file := by
    rw [Mixed.parsed] at parsed
    exact (Except.ok.inj parsed).symm
  have clean : file.garbled = file := by
    refine eq_garbled_of_no_replacement ?_
    rw [seen]
    decide
  rw [← clean, seen] at only
  exact ⟨Mixed.parsed, only⟩

namespace Beyond

/-- A class whose name has a character beyond those of one code unit. -/
def layout : Layout where
  minorVersion := 0
  majorVersion := 52
  pool := [.utf8 (ModifiedUtf8.encodeString "q/𝒳"), .classRef 1]
  access := ⟨0x0021⟩
  thisClass := 2
  superclass := 0
  interfaces := []
  fields := []
  methods := []
  attributes := []

/-- What it says. -/
def file : ClassFile where
  name := "q.𝒳"
  access := ⟨0x0021⟩
  superclass := none
  interfaces := []
  signature := none
  fields := []
  methods := []
  poolClasses := ["q/𝒳"]
  poolDescriptors := []

/-- What is seen of it. -/
def seen : ClassFile :=
  { file with name := "q.\uFFFD\uFFFD\uFFFD\uFFFD\uFFFD\uFFFD",
              poolClasses := ["q/\uFFFD\uFFFD\uFFFD\uFFFD\uFFFD\uFFFD"] }

theorem encodable : layout.Encodable where
  slots := by decide
  texts := by decide
  interfaces := by decide
  fields := by decide
  methods := by decide
  members := by decide
  attributes := by decide
  thrown := by decide

theorem classAt_own : layout.ClassAt .modified 2 "q/𝒳" :=
  ⟨1, rfl, textAt_of_spelled rfl⟩

theorem linked : layout.Linked .modified where
  classNames := by
    simp only [layout, List.filterMap, Entry.classIndex?, List.forall_mem_cons]
    exact ⟨⟨_, textAt_of_spelled rfl⟩, by simp⟩
  descriptors := by simp [layout, Entry.descriptorIndex?]
  thisClass := fun _ => ⟨_, classAt_own⟩
  superclass := fun present => absurd rfl present
  interfaces := by simp [layout]
  fields := by simp [layout]
  methods := by simp [layout]
  attributes := by simp [layout]

theorem said : layout.ClassSaid .modified file where
  access := rfl
  name := fun _ => ⟨_, classAt_own, by decide⟩
  module_name := fun module => absurd module (by decide)
  superclass := by simp [file]
  no_superclass := by simp [file, layout]
  interfaces := .nil
  signature := by simp [SignatureSaid, file, layout]
  fields := .nil
  methods := .nil
  poolClasses := .cons (textAt_of_spelled rfl) .nil
  poolDescriptors := .nil

theorem parsed : parse (layout.encode ++ []) = .ok seen :=
  Outcome.toOption_eq_some.mp (by decide)

end Beyond

/-- Not every class file is read as what it says: the name of this class is garbled. -/
theorem not_forall_parse_eq :
    ¬ ∀ (layout : Layout) (file : ClassFile) (rest : List UInt8), layout.Encodable →
      layout.Linked .modified → layout.ClassSaid .modified file →
        parse (layout.encode ++ rest) = .ok file := by
  intro all
  have parsed := all Beyond.layout Beyond.file [] Beyond.encodable Beyond.linked Beyond.said
  rw [Beyond.parsed] at parsed
  exact absurd (Except.ok.inj parsed) (by decide)

end ClassFile.Layout

end DependencyAudit
