/-
# DependencyAudit.Proofs.Mentions -- what a class file mentions

A class file mentions a class by its internal name, in one of the places where names of
classes stand: as a class constant, alone or as the element of an array, inside of a
descriptor, or as a class type of a signature.  Superclass, interfaces and declared
exceptions are class constants that have a use.  `Layout.Mentions` says this of the class
file as it is written, by the indices of its constants and the format's own spelling of
texts, and does not speak of how it is read.

It is read as UTF-8, which is another spelling (`Spelling`): the text that a constant has is
seen garbled (`TextAt.read`), though never so that an attribute would seem to be a signature
that is none (`textAt_iff_of_letters`).  A garbled text names garbled classes.  So whatever a
class file mentions is among the classes that the reader finds in it, provided its own name is
plain, for every text around it is scanned to its end (`mem_mentionedTypes`,
`mem_referencedClasses_of_mentions`).
-/
import DependencyAudit.Proofs.Encodings
import DependencyAudit.Proofs.GarbledTypes
import DependencyAudit.Proofs.LastMember
import DependencyAudit.Proofs.Signatures

namespace DependencyAudit.ClassFile

open DependencyAudit.Octets DependencyAudit.Text DependencyAudit.TypeText

set_option autoImplicit false

/-- How the octets of a constant spell a text. -/
inductive Spelling where
  /-- As the format has it. -/
  | modified
  /-- As a reader of UTF-8 takes it, with replacements for what is malformed. -/
  | lossy
deriving Repr, DecidableEq

def Spelling.Spells : Spelling → List UInt8 → String → Prop
  | modified, octets, text => octets = ModifiedUtf8.encodeString text
  | lossy, octets, text => text = String.ofList (Utf8.decodeLossy octets)

instance (spelling : Spelling) (octets : List UInt8) (text : String) :
    Decidable (spelling.Spells octets text) :=
  match spelling with
  | .modified => inferInstanceAs (Decidable (octets = ModifiedUtf8.encodeString text))
  | .lossy => inferInstanceAs (Decidable (text = String.ofList (Utf8.decodeLossy octets)))

/-- Octets spell one text. -/
theorem Spelling.Spells.unique {spelling : Spelling} {octets : List UInt8} {text other : String}
    (spells : spelling.Spells octets text) (spells' : spelling.Spells octets other) :
    text = other := by
  cases spelling with
  | modified => exact ModifiedUtf8.encodeString_injective (spells.symm.trans spells')
  | lossy => exact spells.trans spells'.symm

namespace Layout

/-! ## Constants by index -/

/-- The constant at an index.  There is none at 0, nor at the second index of a wide one. -/
def constantAt? : List Entry → Nat → Option Entry
  | _, 0 => none
  | [], _ + 1 => none
  | first :: _, 1 => some first
  | first :: rest, index + 2 => constantAt? rest (index + 2 - first.slots)

/-- A text stands at an index. -/
def TextAt (layout : Layout) (spelling : Spelling) (index : UInt16) (text : String) : Prop :=
  ∃ octets, constantAt? layout.pool index.toNat = some (.utf8 octets) ∧
    spelling.Spells octets text

/-- A class constant stands at an index. -/
def ClassAt (layout : Layout) (spelling : Spelling) (index : UInt16) (internal : String) : Prop :=
  ∃ name, constantAt? layout.pool index.toNat = some (.classRef name) ∧
    layout.TextAt spelling name internal

/-! ## Mentions -/

/-- The indices where a class file has its descriptors. -/
inductive DescriptorAt (layout : Layout) : UInt16 → Prop where
  | member (item : MemberLayout) (listed : item ∈ layout.fields ++ layout.methods) :
      DescriptorAt layout item.descriptor
  | nameAndType (name descriptor : UInt16) (listed : .nameAndType name descriptor ∈ layout.pool) :
      DescriptorAt layout descriptor
  | methodType (descriptor : UInt16) (listed : .methodType descriptor ∈ layout.pool) :
      DescriptorAt layout descriptor

/-- The index of the signature in some attributes, of which the last counts. -/
def SignatureOf (layout : Layout) (spelling : Spelling) (attributes : List Attribute)
    (index : UInt16) : Prop :=
  ∃ item, LastMember (fun other => layout.TextAt spelling other.name "Signature") attributes item ∧
    item.body = .signature index

/-- The indices where a class file has its signatures. -/
inductive SignatureAt (layout : Layout) : UInt16 → Prop where
  | own (index : UInt16) (found : layout.SignatureOf .modified layout.attributes index) :
      SignatureAt layout index
  | member (item : MemberLayout) (listed : item ∈ layout.fields ++ layout.methods)
      (index : UInt16) (found : layout.SignatureOf .modified item.attributes index) :
      SignatureAt layout index

/-- A class file mentions a class. -/
inductive Mentions (layout : Layout) (internal : String) : Prop where
  | superclass (here : layout.ClassAt .modified layout.superclass internal)
  | interface (index : UInt16) (listed : index ∈ layout.interfaces)
      (here : layout.ClassAt .modified index internal)
  | exception (item : MemberLayout) (listed : item ∈ layout.fields ++ layout.methods)
      (declared : Attribute) (among : declared ∈ item.attributes)
      (named : layout.TextAt .modified declared.name "Exceptions") (indices : List UInt16)
      (body : declared.body = .exceptions indices) (index : UInt16) (thrown : index ∈ indices)
      (here : layout.ClassAt .modified index internal)
  | constant (name : UInt16) (listed : .classRef name ∈ layout.pool)
      (here : layout.TextAt .modified name internal)
  | arrayConstant (name : UInt16) (listed : .classRef name ∈ layout.pool) (element : FieldType)
      (here : layout.TextAt .modified name (String.ofList (FieldType.array element).text))
      (closed : Closed element.internals) (inside : internal ∈ element.internals)
  | descriptor (index : UInt16) (place : layout.DescriptorAt index) (type : ErasedType)
      (here : layout.TextAt .modified index (String.ofList type.text))
      (closed : Closed type.internals) (inside : internal ∈ type.internals)
  | signature (index : UInt16) (place : layout.SignatureAt index) (type : GenericType)
      (here : layout.TextAt .modified index (String.ofList type.text))
      (inside : internal ∈ type.internals)

/-! ## Look-up -/

/-- The constants of a pool that are kept are those of the entries at their indices. -/
theorem getElem?_constants {constant : Constant} (kept : constant ≠ .untyped)
    {entries : List Entry} {index : Nat} :
    (Constant.untyped :: entries.flatMap Entry.constants)[index]? = some constant ↔
      ∃ entry, constantAt? entries index = some entry ∧ entry.constant = constant := by
  fun_induction constantAt? entries index with
  | case1 entries => simp [Ne.symm kept]
  | case2 index => simp
  | case3 first rest => simp [Entry.constants]
  | case4 first rest index same =>
      rw [← same, List.flatMap_cons, Entry.constants, ← Entry.length_constants, Entry.constants]
      cases first.isWide with
      | false => simp
      | true =>
          -- The second index of a wide constant is one of those that nothing is kept at.
          cases index with
          | zero => simp [Ne.symm kept]
          | succ index => simp

theorem text_eq_ok_iff {layout : Layout} {index : UInt16} {text : String} :
    layout.constantPool.text index = .ok text ↔ layout.TextAt .lossy index text := by
  rw [ConstantPool.text_eq_ok_iff, constantPool, List.getElem?_toArray,
    getElem?_constants (by simp)]
  constructor
  · rintro ⟨entry, found, same⟩
    cases entry <;> simp only [Entry.constant, reduceCtorEq, Constant.text.injEq] at same
    exact ⟨_, found, same.symm⟩
  · rintro ⟨octets, found, rfl⟩
    exact ⟨_, found, rfl⟩

/-! ## Spelling -/

/-- A text is read garbled. -/
theorem TextAt.read {layout : Layout} {index : UInt16} {text : String}
    (here : layout.TextAt .modified index text) :
    layout.TextAt .lossy index (ModifiedUtf8.garbled text) := by
  obtain ⟨octets, found, rfl⟩ := here
  exact ⟨_, found, (ModifiedUtf8.decodeLossy_encodeString text).symm⟩

theorem TextAt.read_of_plain {layout : Layout} {index : UInt16} {text : String}
    (here : layout.TextAt .modified index text) (plain : ModifiedUtf8.Plain text) :
    layout.TextAt .lossy index text := by
  have read := here.read
  rwa [ModifiedUtf8.garbled_of_plain plain] at read

/-- A text of letters is seen where it stands and nowhere else. -/
theorem textAt_iff_of_letters {layout : Layout} {index : UInt16} {text : String}
    (letters : ModifiedUtf8.Letters text) :
    layout.TextAt .modified index text ↔ layout.TextAt .lossy index text :=
  exists_congr fun _ => and_congr_right fun _ =>
    ModifiedUtf8.eq_encodeString_iff_of_letters letters

theorem signatureOf_iff {layout : Layout} {attributes : List Attribute} {index : UInt16} :
    layout.SignatureOf .modified attributes index ↔
      layout.SignatureOf .lossy attributes index :=
  exists_congr fun _ => and_congr_left fun _ =>
    LastMember.congr fun _ _ => textAt_iff_of_letters (by decide)

theorem mem_constants {entry : Entry} {layout : Layout} (listed : entry ∈ layout.pool) :
    entry.constant ∈ layout.constantPool.constants.toList := by
  refine List.mem_cons_of_mem _ (List.mem_flatMap.mpr ⟨entry, listed, ?_⟩)
  simp [Entry.constants]

end Layout

/-! ## Signatures of attributes -/

namespace Attributes

theorem after_signature (pool : ConstantPool) (sofar : Attributes) (index : UInt16) :
    sofar.after pool "Signature" (big16 index) =
      (pool.text index).map fun text => { sofar with signature := some text } := by
  have read : Reader.word16.run (big16 index ++ []) = .ok (index, []) :=
    Reader.answers_word16 index []
  rw [List.append_nil] at read
  simp only [StateT.run] at read
  simp only [after, add, if_true, Reader.within, StateT.run, bind, StateT.bind, read, Except.bind]
  cases pool.text index <;> rfl

/-- Attributes of other names leave the signature as it was. -/
theorem signature_after {pool : ConstantPool} {sofar next : Attributes} {name : String}
    {body : List UInt8} (other : name ≠ "Signature")
    (known : sofar.after pool name body = .ok next) : next.signature = sofar.signature := by
  unfold after add at known
  rw [if_neg other] at known
  split at known
  · obtain ⟨_, inner, rfl⟩ := Outcome.map_eq_ok.mp known
    obtain ⟨_, answer, rfl⟩ := Outcome.map_eq_ok.mp inner
    obtain ⟨_, _, same⟩ := Outcome.bind_eq_ok.mp answer
    cases same
    rfl
  · cases known
    rfl

theorem signature_of_unnamed {layout : Layout} :
    ∀ {attributes : List Attribute} {sofar result : Attributes},
      (∀ item ∈ attributes, ¬ layout.TextAt .lossy item.name "Signature") →
      attributes.foldlM (resolveOne layout.constantPool) sofar = .ok result →
      result.signature = sofar.signature
  | [], sofar, result, _, resolved => by
      cases resolved
      rfl
  | first :: rest, sofar, result, unnamed, resolved => by
      obtain ⟨next, one, more⟩ := Outcome.bind_eq_ok.mp resolved
      obtain ⟨name, found, known⟩ := Outcome.bind_eq_ok.mp one
      have other : name ≠ "Signature" := by
        rintro rfl
        exact unnamed first List.mem_cons_self (Layout.text_eq_ok_iff.mp found)
      rw [signature_of_unnamed (fun item member => unnamed item (List.mem_cons_of_mem first member))
        more, signature_after other known]

/-- Of several signatures the last is kept. -/
theorem signature_of_last {layout : Layout} {index : UInt16} {text : String}
    (here : layout.TextAt .lossy index text) :
    ∀ {attributes : List Attribute} {sofar result : Attributes},
      layout.SignatureOf .lossy attributes index →
      attributes.foldlM (resolveOne layout.constantPool) sofar = .ok result →
      result.signature = some text
  | [], _, _, ⟨_, last, _⟩, _ => absurd last not_lastMember_nil
  | first :: rest, sofar, result, ⟨item, last, body⟩, resolved => by
      obtain ⟨next, one, more⟩ := Outcome.bind_eq_ok.mp resolved
      rcases lastMember_cons.mp last with inTail | ⟨rfl, named, unnamed⟩
      · exact signature_of_last here ⟨item, inTail, body⟩ more
      · obtain ⟨name, found, known⟩ := Outcome.bind_eq_ok.mp one
        rw [Layout.text_eq_ok_iff.mpr named] at found
        cases found
        rw [body, AttributeBody.encode, after_signature, Layout.text_eq_ok_iff.mpr here] at known
        cases known
        exact signature_of_unnamed unnamed more

end Attributes

namespace Layout

/-! ## Constants and members that are found -/

theorem Describes.mem_poolClasses {layout : Layout} {file : ClassFile}
    (describes : layout.Describes file) {name : UInt16} {internal : String}
    (listed : .classRef name ∈ layout.pool) (here : layout.TextAt .lossy name internal) :
    internal ∈ file.poolClasses := by
  refine (Outcome.mem_mapM describes.poolClasses).mpr ⟨name, ?_, text_eq_ok_iff.mpr here⟩
  exact List.mem_filterMap.mpr ⟨.classRef name, mem_constants listed, rfl⟩

theorem Describes.mem_poolDescriptors {layout : Layout} {file : ClassFile}
    (describes : layout.Describes file) {entry : Entry} {index : UInt16} {text : String}
    (listed : entry ∈ layout.pool)
    (leads : ConstantPool.descriptorIndex? entry.constant = some index)
    (here : layout.TextAt .lossy index text) : text ∈ file.poolDescriptors := by
  refine (Outcome.mem_mapM describes.poolDescriptors).mpr ⟨index, ?_, text_eq_ok_iff.mpr here⟩
  exact List.mem_filterMap.mpr ⟨entry.constant, mem_constants listed, leads⟩

/-- Each field or method of a layout is one of the class. -/
theorem Describes.exists_member {layout : Layout} {file : ClassFile}
    (describes : layout.Describes file) {item : MemberLayout}
    (listed : item ∈ layout.fields ++ layout.methods) :
    ∃ member ∈ file.members, item.resolve layout.constantPool = .ok member := by
  rcases List.mem_append.mp listed with field | method
  · obtain ⟨member, among, resolved⟩ := Outcome.exists_mem_of_mapM describes.fields field
    exact ⟨member, List.mem_append_left _ among, resolved⟩
  · obtain ⟨member, among, resolved⟩ := Outcome.exists_mem_of_mapM describes.methods method
    exact ⟨member, List.mem_append_right _ among, resolved⟩

theorem mem_pool_of_constantAt? {entries : List Entry} {index : Nat} {entry : Entry}
    (found : constantAt? entries index = some entry) : entry ∈ entries := by
  fun_induction constantAt? entries index with
  | case1 => cases found
  | case2 => cases found
  | case3 first rest =>
      cases found
      exact List.mem_cons_self
  | case4 first rest index same => exact List.mem_cons_of_mem first (same found)

/-! ## What is found of the mentions -/

section Found

variable {layout : Layout} {file : ClassFile} {internal : String}

/-- The name of a plain class is among garbled names if it is among the names. -/
theorem mem_map_garbled (plain : ModifiedUtf8.Plain internal) {internals : List String}
    (inside : internal ∈ internals) :
    ClassName.ofInternal internal ∈
      (internals.map ClassName.ofInternal).map ModifiedUtf8.garbled := by
  have kept : ModifiedUtf8.garbled (ClassName.ofInternal internal) =
      ClassName.ofInternal internal := by
    rw [← ClassName.ofInternal_garbled, ModifiedUtf8.garbled_of_plain plain]
  exact List.mem_map.mpr ⟨_, List.mem_map_of_mem inside, kept⟩

theorem Describes.mem_of_constant (describes : layout.Describes file)
    (plain : ModifiedUtf8.Plain internal) (single : internal.toList.head? ≠ some '[')
    {name : UInt16} (listed : .classRef name ∈ layout.pool)
    (here : layout.TextAt .modified name internal) :
    ClassName.ofInternal internal ∈ file.mentionedTypes := by
  have read := here.read_of_plain plain
  simp only [mentionedTypes, List.mem_append, List.mem_flatMap]
  refine .inl (.inl (.inl ⟨internal, describes.mem_poolClasses listed read, ?_⟩))
  rw [constantTypes_ofInternal single]
  exact List.mem_cons_self

/-- A class that stands at an index is a class constant of the pool. -/
theorem Describes.mem_of_classAt (describes : layout.Describes file)
    (plain : ModifiedUtf8.Plain internal) (single : internal.toList.head? ≠ some '[')
    {index : UInt16} (here : layout.ClassAt .modified index internal) :
    ClassName.ofInternal internal ∈ file.mentionedTypes := by
  obtain ⟨name, found, text⟩ := here
  exact describes.mem_of_constant plain single (mem_pool_of_constantAt? found) text

theorem Describes.mem_of_arrayConstant (describes : layout.Describes file)
    (plain : ModifiedUtf8.Plain internal) {name : UInt16} (listed : .classRef name ∈ layout.pool)
    {element : FieldType}
    (here : layout.TextAt .modified name (String.ofList (FieldType.array element).text))
    (closed : Closed element.internals) (inside : internal ∈ element.internals) :
    ClassName.ofInternal internal ∈ file.mentionedTypes := by
  simp only [mentionedTypes, List.mem_append, List.mem_flatMap]
  refine .inl (.inl (.inl ⟨_, describes.mem_poolClasses listed here.read, ?_⟩))
  rw [constantTypes_garbled, constantTypes_array closed]
  exact mem_map_garbled plain inside

theorem Describes.mem_of_descriptor (describes : layout.Describes file)
    (plain : ModifiedUtf8.Plain internal) {index : UInt16}
    (place : layout.DescriptorAt index) {type : ErasedType}
    (here : layout.TextAt .modified index (String.ofList type.text))
    (closed : Closed type.internals) (inside : internal ∈ type.internals) :
    ClassName.ofInternal internal ∈ file.mentionedTypes := by
  have read := here.read
  have scanned : ClassName.ofInternal internal ∈
      Descriptor.classTypes (ModifiedUtf8.garbled (String.ofList type.text)) := by
    rw [Descriptor.classTypes_garbled, Descriptor.classTypes_text closed]
    exact mem_map_garbled plain inside
  simp only [mentionedTypes, List.mem_append, List.mem_flatMap]
  cases place with
  | member item listed =>
      obtain ⟨member, among, resolved⟩ := describes.exists_member listed
      obtain ⟨_, _, resolved⟩ := Outcome.bind_eq_ok.mp resolved
      obtain ⟨_, _, resolved⟩ := Outcome.bind_eq_ok.mp resolved
      obtain ⟨descriptor, found, resolved⟩ := Outcome.bind_eq_ok.mp resolved
      rw [text_eq_ok_iff.mpr read] at found
      cases found
      cases resolved
      exact .inl (.inr ⟨_, among, List.mem_append_left _ scanned⟩)
  | nameAndType name descriptor listed =>
      exact .inl (.inl (.inr ⟨_, describes.mem_poolDescriptors listed rfl read, scanned⟩))
  | methodType descriptor listed =>
      exact .inl (.inl (.inr ⟨_, describes.mem_poolDescriptors listed rfl read, scanned⟩))

theorem Describes.mem_of_signature (describes : layout.Describes file)
    (plain : ModifiedUtf8.Plain internal) {index : UInt16}
    (place : layout.SignatureAt index) {type : GenericType}
    (here : layout.TextAt .modified index (String.ofList type.text))
    (inside : internal ∈ type.internals) :
    ClassName.ofInternal internal ∈ file.mentionedTypes := by
  have read := here.read
  have scanned : ClassName.ofInternal internal ∈
      signatureTypes (some (ModifiedUtf8.garbled (String.ofList type.text))) := by
    rw [signatureTypes, Option.elim_some, Signature.classTypes_garbled, Signature.classTypes_text]
    exact mem_map_garbled plain inside
  simp only [mentionedTypes, List.mem_append, List.mem_flatMap]
  cases place with
  | own index found =>
      obtain ⟨attributes, resolved, same⟩ := describes.signature
      rw [same, Attributes.signature_of_last read (signatureOf_iff.mp found) resolved]
      exact .inr scanned
  | member item listed index found =>
      obtain ⟨member, among, resolved⟩ := describes.exists_member listed
      obtain ⟨attributes, ofAttributes, resolved⟩ := Outcome.bind_eq_ok.mp resolved
      obtain ⟨_, _, resolved⟩ := Outcome.bind_eq_ok.mp resolved
      obtain ⟨_, _, resolved⟩ := Outcome.bind_eq_ok.mp resolved
      cases resolved
      refine .inl (.inr ⟨_, among, List.mem_append_right _ ?_⟩)
      rwa [Attributes.signature_of_last read (signatureOf_iff.mp found) ofAttributes]

end Found

/-- Whatever class of a plain name a class file mentions is found in it. -/
theorem Describes.mem_mentionedTypes {layout : Layout} {file : ClassFile}
    (describes : layout.Describes file) {internal : String} (plain : ModifiedUtf8.Plain internal)
    (single : internal.toList.head? ≠ some '[') (mentions : layout.Mentions internal) :
    ClassName.ofInternal internal ∈ file.mentionedTypes := by
  cases mentions with
  | superclass here => exact describes.mem_of_classAt plain single here
  | interface index listed here => exact describes.mem_of_classAt plain single here
  | exception item listed declared among named indices body index thrown here =>
      exact describes.mem_of_classAt plain single here
  | constant name listed here => exact describes.mem_of_constant plain single listed here
  | arrayConstant name listed element here closed inside =>
      exact describes.mem_of_arrayConstant plain listed here closed inside
  | descriptor index place type here closed inside =>
      exact describes.mem_of_descriptor plain place here closed inside
  | signature index place type here inside =>
      exact describes.mem_of_signature plain place here inside

end Layout

/-- What the class file of an ordinary class mentions is among the classes that it refers to,
unless it is the class itself or its name is not plain. -/
theorem mem_referencedClasses_of_mentions {layout : Layout} (fits : layout.Fits)
    {rest : List UInt8} {file : ClassFile} (parsed : parse (layout.encode ++ rest) = .ok file)
    (ordinary : layout.access.isModule = false) {internal : String}
    (plain : ModifiedUtf8.Plain internal) (single : internal.toList.head? ≠ some '[')
    (mentions : layout.Mentions internal) (other : file.name ≠ ClassName.ofInternal internal) :
    ClassName.ofInternal internal ∈ file.referencedClasses := by
  rw [parse_encode fits] at parsed
  have describes := Layout.resolve_eq_ok_iff.mp parsed
  have ordinary : file.isModule = false := by rw [isModule, describes.access, ordinary]
  simp only [referencedClasses, ordinary, Bool.false_eq_true, if_false, NameSet.mem_erase,
    NameSet.mem_ofList]
  exact ⟨describes.mem_mentionedTypes plain single mentions, Ne.symm other⟩

end DependencyAudit.ClassFile
