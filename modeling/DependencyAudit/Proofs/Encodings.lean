/-
# DependencyAudit.Proofs.Encodings -- class files read back

A reader answers an encoding if it takes exactly the octets of the encoding, whatever
follows them, and comes to the answer (`Answers`); the answer may also be an error, since
an index need not lead to what its place requires.  Readers that are put together answer
encodings that are put together (`Answers.bind`), and so reading what a layout writes comes
to what the layout says by itself (`Layout.resolve`), with no octets in between
(`parse_encode`).  When that is a class, and which one, is said by `resolve_eq_ok_iff`.

Counts and lengths are written into fields of fixed width, and a layout `Fits` if each of
its lists is short enough for its field.
-/
import DependencyAudit.ClassFile.Layout
import DependencyAudit.ClassFile.Parser
import DependencyAudit.Proofs.Outcome
import Mathlib.Algebra.Group.Nat.Defs

namespace DependencyAudit.ClassFile

open DependencyAudit.Octets DependencyAudit.Text

set_option autoImplicit false

/-! ## Readers of encodings -/

namespace Reader

variable {α β : Type}

/-- The reader takes exactly these octets, whatever follows them, and comes to the answer. -/
def Answers (reader : Reader α) (octets : List UInt8) (answer : Except ClassFileError α) : Prop :=
  ∀ rest, reader (octets ++ rest) = answer.map fun value => (value, rest)

theorem Answers.pure (value : α) : Answers (pure value) [] (.ok value) :=
  fun _ => rfl

/-- Readers in sequence take the octets of both, if there is a first answer. -/
theorem Answers.bind {first : Reader α} {next : α → Reader β} {octets more : List UInt8}
    {answer : Except ClassFileError α} {final : α → Except ClassFileError β}
    (answers : Answers first octets answer)
    (continues : ∀ value, answer = .ok value → Answers (next value) more (final value)) :
    Answers (first >>= next) (octets ++ more) (answer >>= final) := by
  intro rest
  have head : first (octets ++ (more ++ rest)) = _ := answers (more ++ rest)
  rw [List.append_assoc]
  cases answer with
  | error error => simp [Bind.bind, StateT.bind, head, Except.map, Except.bind]
  | ok value =>
      have tail : next value (more ++ rest) = _ := continues value rfl rest
      simp [Bind.bind, StateT.bind, head, Except.map, Except.bind, tail]

/-- After a certain answer the next reader goes on. -/
theorem Answers.step {first : Reader α} {next : α → Reader β} {octets more : List UInt8}
    {value : α} {final : Except ClassFileError β} (answers : Answers first octets (.ok value))
    (continues : Answers (next value) more final) :
    Answers (first >>= next) (octets ++ more) final := by
  have whole : Answers (first >>= next) (octets ++ more) (Except.ok value >>= fun _ => final) := by
    refine answers.bind fun other same => ?_
    cases same
    exact continues
  exact whole

theorem answers_ofExcept (outcome : Except ClassFileError α) :
    Answers (ofExcept outcome) [] outcome := by
  cases outcome <;> exact fun _ => rfl

/-- A reader that takes no octets leaves them to the next one. -/
theorem Answers.silent {first : Reader α} {next : α → Reader β} {octets : List UInt8}
    {answer : Except ClassFileError α} {final : α → Except ClassFileError β}
    (answers : Answers first [] answer)
    (continues : ∀ value, answer = .ok value → Answers (next value) octets (final value)) :
    Answers (first >>= next) octets (answer >>= final) :=
  answers.bind continues

theorem Answers.eq_run {reader : Reader α} {answer : Except ClassFileError α}
    (answers : Answers reader [] answer) : (reader.run []).map Prod.fst = answer := by
  have read : reader.run [] = answer.map fun value => (value, []) := answers []
  rw [read]
  cases answer <;> rfl

/-- The value of a reader is changed after reading. -/
theorem Answers.map {first : Reader α} {change : α → β} {octets : List UInt8}
    {answer : Except ClassFileError α} (answers : Answers first octets answer) :
    Answers (first >>= fun value => Pure.pure (change value)) octets
      (answer >>= fun value => Pure.pure (change value)) := by
  have whole := answers.bind fun value _ => Answers.pure (change value)
  rwa [List.append_nil] at whole

theorem Answers.last {first : Reader α} {change : α → β} {octets : List UInt8} {value : α}
    (answers : Answers first octets (.ok value)) :
    Answers (first >>= fun value => Pure.pure (change value)) octets (.ok (change value)) :=
  answers.map

theorem answers_take (octets : List UInt8) : Answers (take octets.length) octets (.ok octets) :=
  fun rest => take_append octets rest

theorem answers_skip (count : Nat) {octets : List UInt8} (length : octets.length = count) :
    Answers (skip count) octets (.ok ()) := by
  subst length
  exact (answers_take octets).last

theorem answers_byte (octet : UInt8) : Answers byte [octet] (.ok octet) := by
  have read : Answers byte [octet] (.ok (UInt8.ofNat (ofBig [octet]))) :=
    (answers_take [octet]).last
  simpa [ofBig] using read

theorem answers_word16 (word : UInt16) : Answers word16 (big16 word) (.ok word) := by
  have read : Answers word16 (big16 word) (.ok (UInt16.ofNat (ofBig (big16 word)))) :=
    (answers_take (big16 word)).last
  rwa [ofBig_big16, UInt16.ofNat_toNat] at read

theorem answers_word32 (word : UInt32) : Answers word32 (big32 word) (.ok word) := by
  have read : Answers word32 (big32 word) (.ok (UInt32.ofNat (ofBig (big32 word)))) :=
    (answers_take (big32 word)).last
  rwa [ofBig_big32, UInt32.ofNat_toNat] at read

/-- What is read from octets of its own takes none of the others. -/
theorem answers_within (octets : List UInt8) (reader : Reader α) :
    Answers (within octets reader) [] ((reader.run octets).map Prod.fst) := by
  intro rest
  simp only [within, List.nil_append]
  cases reader.run octets <;> rfl

theorem answers_times {reader : Reader α} {encode : β → List UInt8}
    {resolve : β → Except ClassFileError α} :
    ∀ {values : List β}, (∀ value ∈ values, Answers reader (encode value) (resolve value)) →
      Answers (times reader values.length) (values.flatMap encode) (values.mapM resolve)
  | [], _ => .pure []
  | first :: rest, each => by
      rw [List.mapM_cons, List.flatMap_cons]
      exact (each first List.mem_cons_self).bind fun _ _ =>
        (answers_times fun value member => each value (List.mem_cons_of_mem first member)).map

/-- A counted list is read value by value, if its count fits. -/
theorem answers_counted {reader : Reader α} {encode : β → List UInt8}
    {resolve : β → Except ClassFileError α} {values : List β} (fits : values.length < 2 ^ 16)
    (each : ∀ value ∈ values, Answers reader (encode value) (resolve value)) :
    Answers (counted reader) (encodeCounted encode values) (values.mapM resolve) := by
  refine (answers_word16 _).step ?_
  rw [UInt16.toNat_ofNat_of_lt' fits]
  exact answers_times each

end Reader

/-! ## The constant pool -/

namespace Entry

/-- What is kept of a constant. -/
def constant : Entry → Constant
  | .utf8 octets => .text (String.ofList (Utf8.decodeLossy octets))
  | .classRef name => .classRef name
  | .nameAndType _ descriptor => .nameAndType descriptor
  | .methodType descriptor => .methodType descriptor
  | _ => .untyped

/-- The constant takes a second index. -/
def isWide : Entry → Bool
  | .long _ | .double _ => true
  | _ => false

/-- What a constant leaves at its indices. -/
def constants (entry : Entry) : List Constant :=
  entry.constant :: if entry.isWide then [.untyped] else []

/-- The length of the text in a constant, if it is one. -/
def textLength : Entry → Nat
  | .utf8 octets => octets.length
  | _ => 0

theorem length_constants (entry : Entry) : entry.constants.length = entry.slots := by
  cases entry <;> rfl

end Entry

namespace ConstantPool

open Reader

/-- A text is read by its length. -/
theorem answers_text {octets : List UInt8} (fits : octets.length < 2 ^ 16) :
    Answers readConstant (Entry.utf8 octets).encode
      (.ok (.text (String.ofList (Utf8.decodeLossy octets)), false)) := by
  refine (answers_byte 1).step ((answers_word16 _).step ?_)
  rw [UInt16.toNat_ofNat_of_lt' fits]
  exact (answers_take octets).last

/-- A constant that leads to no name is passed over. -/
theorem answers_untyped (count : Nat) (wide : Bool) {octets : List UInt8}
    (length : octets.length = count) :
    Answers (skip count >>= fun _ => Pure.pure (Constant.untyped, wide)) octets
      (.ok (.untyped, wide)) :=
  (answers_skip count length).last

theorem answers_readConstant :
    ∀ {entry : Entry}, entry.textLength < 2 ^ 16 →
      Answers readConstant entry.encode (.ok (entry.constant, entry.isWide))
  | .utf8 _, fits => answers_text fits
  | .integer _, _ => (answers_byte 3).step (answers_untyped 4 false rfl)
  | .float _, _ => (answers_byte 4).step (answers_untyped 4 false rfl)
  | .long _, _ => (answers_byte 5).step (answers_untyped 8 true rfl)
  | .double _, _ => (answers_byte 6).step (answers_untyped 8 true rfl)
  | .classRef name, _ => (answers_byte 7).step (answers_word16 name).last
  | .string _, _ => (answers_byte 8).step (answers_untyped 2 false rfl)
  | .fieldRef _ _, _ => (answers_byte 9).step (answers_untyped 4 false rfl)
  | .methodRef _ _, _ => (answers_byte 10).step (answers_untyped 4 false rfl)
  | .interfaceMethodRef _ _, _ => (answers_byte 11).step (answers_untyped 4 false rfl)
  | .nameAndType name descriptor, _ =>
      (answers_byte 12).step
        ((answers_skip 2 (length_big16 name)).step (answers_word16 descriptor).last)
  | .methodHandle _ _, _ => (answers_byte 15).step (answers_untyped 3 false rfl)
  | .methodType descriptor, _ => (answers_byte 16).step (answers_word16 descriptor).last
  | .dynamic _ _, _ => (answers_byte 17).step (answers_untyped 4 false rfl)
  | .invokeDynamic _ _, _ => (answers_byte 18).step (answers_untyped 4 false rfl)
  | .module _, _ => (answers_byte 19).step (answers_untyped 2 false rfl)
  | .package _, _ => (answers_byte 20).step (answers_untyped 2 false rfl)

/-- A constant is read onto those before it, and leaves as many fewer indices as it takes. -/
theorem answers_readFrom_cons {entry : Entry} (fits : entry.textLength < 2 ^ 16) {count : Nat}
    {constants : Array Constant} {octets : List UInt8}
    {final : Except ClassFileError (Array Constant)}
    (continues :
      Answers (readFrom count false (constants ++ entry.constants.toArray)) octets final) :
    Answers (readFrom (entry.slots + count) false constants) (entry.encode ++ octets) final := by
  have head := answers_readConstant fits
  rw [← Entry.length_constants, Entry.constants, Nat.add_comm]
  rw [Entry.constants] at continues
  cases wide : entry.isWide with
  | false =>
      rw [wide] at head continues
      exact head.step (by simpa using continues)
  | true =>
      rw [wide] at head continues
      refine head.step ?_
      -- The second index is passed before the next constant is read.
      show Answers (readFrom count false ((constants.push entry.constant).push .untyped)) _ _
      have same : constants ++ #[entry.constant, .untyped] =
          (constants.push entry.constant).push .untyped := Array.ext' (by simp)
      rw [← same]
      exact continues

theorem answers_readFrom :
    ∀ {entries : List Entry} (constants : Array Constant),
      (∀ entry ∈ entries, entry.textLength < 2 ^ 16) →
      Answers (readFrom (Layout.slots entries) false constants) (entries.flatMap Entry.encode)
        (.ok (constants ++ (entries.flatMap Entry.constants).toArray))
  | [], constants, _ => by
      rw [List.flatMap_nil, List.flatMap_nil, Array.append_empty]
      exact .pure constants
  | first :: rest, constants, fits => by
      have tail := answers_readFrom (constants ++ first.constants.toArray) fun entry member =>
        fits entry (List.mem_cons_of_mem first member)
      have slots : Layout.slots (first :: rest) = first.slots + Layout.slots rest := by
        simp [Layout.slots]
      have whole : first.constants.toArray ++ (rest.flatMap Entry.constants).toArray =
          ((first :: rest).flatMap Entry.constants).toArray := by simp
      rw [Array.append_assoc, whole] at tail
      rw [slots, List.flatMap_cons]
      exact answers_readFrom_cons (fits first List.mem_cons_self) tail

end ConstantPool

/-- The pool that the constants of a layout make. -/
def Layout.constantPool (layout : Layout) : ConstantPool :=
  ⟨(Constant.untyped :: layout.pool.flatMap Entry.constants).toArray⟩

theorem answers_readPool {layout : Layout} (slots : Layout.slots layout.pool + 1 < 2 ^ 16)
    (fits : ∀ entry ∈ layout.pool, entry.textLength < 2 ^ 16) :
    Reader.Answers ConstantPool.readPool
      (big16 (UInt16.ofNat (Layout.slots layout.pool + 1)) ++ layout.pool.flatMap Entry.encode)
      (.ok layout.constantPool) := by
  have pool : layout.constantPool =
      ⟨#[.untyped] ++ (layout.pool.flatMap Entry.constants).toArray⟩ := by
    simp [Layout.constantPool]
  refine (Reader.answers_word16 _).step ?_
  rw [UInt16.toNat_ofNat_of_lt' slots, Nat.add_sub_cancel, pool]
  exact (ConstantPool.answers_readFrom #[.untyped] fits).last

/-! ## Attributes -/

open Reader

namespace Attributes

/-- What is known after an attribute of a certain name. -/
def after (pool : ConstantPool) (sofar : Attributes) (name : String) (body : List UInt8) :
    Except ClassFileError Attributes :=
  ((sofar.add pool name body).run []).map Prod.fst

/-- The body of an attribute is read apart from the octets around it. -/
theorem answers_add (pool : ConstantPool) (sofar : Attributes) (name : String)
    (body : List UInt8) : Answers (sofar.add pool name body) [] (sofar.after pool name body) := by
  obtain ⟨answer, answers⟩ : ∃ answer, Answers (sofar.add pool name body) [] answer := by
    unfold add
    split
    · exact ⟨_, answers_within body _⟩
    · split
      · exact ⟨_, answers_within body _⟩
      · exact ⟨_, .pure sofar⟩
  rwa [after, answers.eq_run]

/-- What is known after an attribute of a layout. -/
def resolveOne (pool : ConstantPool) (sofar : Attributes) (item : Attribute) :
    Except ClassFileError Attributes := do
  let name ← pool.text item.name
  sofar.after pool name item.body.encode

/-- What the attributes of a layout say. -/
def resolve (pool : ConstantPool) (attributes : List Attribute) :
    Except ClassFileError Attributes :=
  attributes.foldlM (resolveOne pool) none

theorem answers_readFrom (pool : ConstantPool) :
    ∀ {attributes : List Attribute} (sofar : Attributes),
      (∀ item ∈ attributes, item.body.encode.length < 2 ^ 32) →
      Answers (readFrom pool attributes.length sofar) (attributes.flatMap Attribute.encode)
        (attributes.foldlM (resolveOne pool) sofar)
  | [], sofar, _ => .pure sofar
  | first :: rest, sofar, fits => by
      have tail := fun sofar => answers_readFrom pool sofar fun item member =>
        fits item (List.mem_cons_of_mem first member)
      rw [List.foldlM_cons, resolveOne, bind_assoc, List.flatMap_cons, Attribute.encode,
        List.append_assoc, List.append_assoc]
      refine (answers_word16 first.name).step ((answers_word32 _).step ?_)
      rw [UInt32.toNat_ofNat_of_lt' (fits first List.mem_cons_self)]
      refine (answers_take first.body.encode).step ((answers_ofExcept _).silent fun name _ => ?_)
      exact (answers_add pool sofar name first.body.encode).silent fun next _ => tail next

/-- A list of attributes is read, if its count and the lengths of its members fit. -/
theorem answers_read (pool : ConstantPool) {attributes : List Attribute}
    (count : attributes.length < 2 ^ 16)
    (fits : ∀ item ∈ attributes, item.body.encode.length < 2 ^ 32) :
    Answers (read pool) (encodeCounted Attribute.encode attributes) (resolve pool attributes) := by
  refine (answers_word16 _).step ?_
  rw [UInt16.toNat_ofNat_of_lt' count]
  exact answers_readFrom pool none fits

end Attributes

/-! ## Members and the whole -/

/-- The count and the lengths of some attributes fit their fields. -/
def AttributesFit (attributes : List Attribute) : Prop :=
  attributes.length < 2 ^ 16 ∧
    ∀ item ∈ attributes, item.body.encode.length < 2 ^ 32

instance (attributes : List Attribute) : Decidable (AttributesFit attributes) :=
  inferInstanceAs (Decidable (_ ∧ _))

/-- What a field or method of a layout says. -/
def MemberLayout.resolve (pool : ConstantPool) (member : MemberLayout) :
    Except ClassFileError Member := do
  let attributes ← Attributes.resolve pool member.attributes
  let name ← pool.text member.name
  let descriptor ← pool.text member.descriptor
  return ⟨member.access, name, descriptor, attributes.signature, attributes.exceptions⟩

theorem answers_readMember {pool : ConstantPool} {member : MemberLayout}
    (fits : AttributesFit member.attributes) :
    Answers (readMember pool) member.encode (member.resolve pool) := by
  rw [MemberLayout.encode, List.append_assoc, List.append_assoc]
  refine (answers_word16 _).step ((answers_word16 _).step ((answers_word16 _).step ?_))
  have attributes := Attributes.answers_read pool fits.1 fits.2
  rw [← List.append_nil (encodeCounted Attribute.encode member.attributes)]
  refine attributes.bind fun attributes _ => ?_
  refine (answers_ofExcept _).silent fun name _ => ?_
  exact (answers_ofExcept _).map

theorem answers_readInterface (pool : ConstantPool) (index : UInt16) :
    Answers (readInterface pool) (big16 index) (pool.className index) := by
  rw [← List.append_nil (big16 index)]
  exact (answers_word16 index).step (answers_ofExcept _)

theorem answers_readMagic : Answers readMagic (big32 0xCAFEBABE) (.ok ()) := by
  rw [← List.append_nil (big32 0xCAFEBABE)]
  exact (answers_word32 _).step (.pure ())

namespace Layout

/-- Every list of a layout is short enough for the field of its count or length. -/
structure Fits (layout : Layout) : Prop where
  slots : slots layout.pool + 1 < 2 ^ 16
  texts : ∀ entry ∈ layout.pool, entry.textLength < 2 ^ 16
  interfaces : layout.interfaces.length < 2 ^ 16
  fields : layout.fields.length < 2 ^ 16
  methods : layout.methods.length < 2 ^ 16
  members : ∀ member ∈ layout.fields ++ layout.methods, AttributesFit member.attributes
  attributes : AttributesFit layout.attributes

/-- What a layout says, each index looked up in its pool. -/
def resolve (layout : Layout) : Except ClassFileError ClassFile := do
  let pool := layout.constantPool
  let interfaces ← layout.interfaces.mapM pool.className
  let fields ← layout.fields.mapM (MemberLayout.resolve pool)
  let methods ← layout.methods.mapM (MemberLayout.resolve pool)
  let attributes ← Attributes.resolve pool layout.attributes
  let name ← ownName pool layout.access layout.thisClass
  let superclass ← superclassName pool layout.superclass
  let poolClasses ← pool.classNames
  let poolDescriptors ← pool.descriptors
  return {
    name, access := layout.access, superclass, interfaces, fields, methods, poolClasses,
    poolDescriptors, signature := attributes.signature }

/-- The parts of a class are what the places of a layout lead to. -/
structure Describes (layout : Layout) (file : ClassFile) : Prop where
  name : ownName layout.constantPool layout.access layout.thisClass = .ok file.name
  access : file.access = layout.access
  superclass : superclassName layout.constantPool layout.superclass = .ok file.superclass
  interfaces : layout.interfaces.mapM layout.constantPool.className = .ok file.interfaces
  signature : ∃ attributes, Attributes.resolve layout.constantPool layout.attributes =
    .ok attributes ∧ file.signature = attributes.signature
  fields : layout.fields.mapM (MemberLayout.resolve layout.constantPool) = .ok file.fields
  methods : layout.methods.mapM (MemberLayout.resolve layout.constantPool) = .ok file.methods
  poolClasses : layout.constantPool.classNames = .ok file.poolClasses
  poolDescriptors : layout.constantPool.descriptors = .ok file.poolDescriptors

theorem resolve_eq_ok_iff {layout : Layout} {file : ClassFile} :
    layout.resolve = .ok file ↔ layout.Describes file := by
  constructor
  · intro resolved
    obtain ⟨interfaces, ofInterfaces, resolved⟩ := Outcome.bind_eq_ok.mp resolved
    obtain ⟨fields, ofFields, resolved⟩ := Outcome.bind_eq_ok.mp resolved
    obtain ⟨methods, ofMethods, resolved⟩ := Outcome.bind_eq_ok.mp resolved
    obtain ⟨attributes, ofAttributes, resolved⟩ := Outcome.bind_eq_ok.mp resolved
    obtain ⟨name, ofName, resolved⟩ := Outcome.bind_eq_ok.mp resolved
    obtain ⟨superclass, ofSuperclass, resolved⟩ := Outcome.bind_eq_ok.mp resolved
    obtain ⟨classes, ofClasses, resolved⟩ := Outcome.bind_eq_ok.mp resolved
    obtain ⟨descriptors, ofDescriptors, resolved⟩ := Outcome.bind_eq_ok.mp resolved
    cases resolved
    exact ⟨ofName, rfl, ofSuperclass, ofInterfaces, ⟨attributes, ofAttributes, rfl⟩, ofFields,
      ofMethods, ofClasses, ofDescriptors⟩
  · cases file
    rintro ⟨ofName, rfl, ofSuperclass, ofInterfaces, ⟨attributes, ofAttributes, rfl⟩, ofFields,
      ofMethods, ofClasses, ofDescriptors⟩
    simp only [resolve, ofName, ofSuperclass, ofInterfaces, ofAttributes, ofFields, ofMethods,
      ofClasses, ofDescriptors]
    rfl

end Layout

/-- Reading what a layout writes comes to what the layout says. -/
theorem answers_read {layout : Layout} (fits : layout.Fits) :
    Answers read layout.encode layout.resolve := by
  simp only [Layout.encode, List.append_assoc]
  refine answers_readMagic.step ((answers_skip 2 rfl).step ((answers_skip 2 rfl).step ?_))
  rw [← List.append_assoc (big16 (UInt16.ofNat _))]
  refine (answers_readPool fits.slots fits.texts).step ?_
  refine (answers_word16 _).step ((answers_word16 _).step ((answers_word16 _).step ?_))
  refine (answers_counted fits.interfaces fun index _ =>
    answers_readInterface _ index).bind fun interfaces _ => ?_
  refine (answers_counted fits.fields fun field member => answers_readMember
    (fits.members field (List.mem_append_left _ member))).bind fun fields _ => ?_
  refine (answers_counted fits.methods fun method member => answers_readMember
    (fits.members method (List.mem_append_right _ member))).bind fun methods _ => ?_
  rw [← List.append_nil (encodeCounted Attribute.encode layout.attributes)]
  refine (Attributes.answers_read _ fits.attributes.1 fits.attributes.2).bind fun attributes _ => ?_
  refine (answers_ofExcept _).silent fun name _ => ?_
  refine (answers_ofExcept _).silent fun superclass _ => ?_
  refine (answers_ofExcept _).silent fun poolClasses _ => ?_
  exact (answers_ofExcept _).map

/-- The class in what a layout writes, whatever follows it, is the one that the layout
describes. -/
theorem parse_encode {layout : Layout} (fits : layout.Fits) (rest : List UInt8) :
    parse (layout.encode ++ rest) = layout.resolve := by
  have answers : read.run (layout.encode ++ rest) = _ := answers_read fits rest
  rw [parse, answers]
  cases layout.resolve <;> rfl

end DependencyAudit.ClassFile
