/-
# DependencyAudit.Proofs.Builders -- classes to order are read as ordered

A builder lists what a class should say, and its class file says that and nothing else.  Every
index that it hands out leads to what was asked for (`Draft.Sound`), so its layout is linked
(`LaidOver.linked`) and says each part of the order in its place (`LaidOver.classSaid`); and
no constant is in the pool that was not asked for, so the classes that the class refers to are
those of the order (`Builder.mentions`), apart from the class itself (`parse_build`).

All this goes as far as the widths of a class file go: texts of at most 65535 octets, at most
that many interfaces, members and exceptions, and indices for all constants.
-/
import DependencyAudit.Proofs.Drafts

namespace DependencyAudit.ClassFile

open DependencyAudit.Text DependencyAudit.TypeText

set_option autoImplicit false

/-! ## Orders -/

namespace MemberOrder

/-- The field or method that is ordered. -/
def member (order : MemberOrder) : Member where
  access := order.access
  name := order.name
  descriptor := order.descriptor
  signature := order.signature
  exceptions := order.exceptions.map ClassName.ofInternal

def texts (order : MemberOrder) : List String :=
  order.name :: order.descriptor :: (order.signature.toList ++ order.exceptions)

end MemberOrder

namespace Builder

/-- All fields, then all methods. -/
def members (builder : Builder) : List MemberOrder :=
  builder.fields ++ builder.methods

/-- The internal names of all classes that are ordered. -/
def internals (builder : Builder) : List String :=
  builder.name :: (builder.superclass.toList ++ builder.interfaces ++ builder.classRefs ++
    builder.members.flatMap MemberOrder.exceptions)

def descriptors (builder : Builder) : List String :=
  builder.members.map MemberOrder.descriptor ++ builder.nameAndTypes.map Prod.snd

def signatures (builder : Builder) : List String :=
  builder.signature.toList ++ builder.members.flatMap fun order => order.signature.toList

/-- All texts of an order. -/
def texts (builder : Builder) : List String :=
  builder.internals ++ builder.signature.toList ++ builder.nameAndTypes.map Prod.fst ++
    builder.nameAndTypes.map Prod.snd ++ builder.members.flatMap MemberOrder.texts

/-- Every class that is mentioned in an order. -/
def mentions (builder : Builder) : List String :=
  builder.internals.flatMap constantTypes ++ builder.descriptors.flatMap Descriptor.classTypes ++
    builder.signatures.flatMap Signature.classTypes

/-- An order that a class file has room for. -/
structure Fits (builder : Builder) : Prop where
  texts : ∀ text ∈ builder.texts, (Utf8.encodeString text).length ≤ 65535
  interfaces : builder.interfaces.length ≤ 65535
  fields : builder.fields.length ≤ 65535
  methods : builder.methods.length ≤ 65535
  exceptions : ∀ order ∈ builder.members, order.exceptions.length ≤ 65535
  slots : Layout.slots builder.layout.pool ≤ 65534

/-- A class that says what was ordered. -/
structure ReadAs (builder : Builder) (file : ClassFile) : Prop where
  access : file.access = builder.access
  name : file.name =
    if builder.access.isModule then "module-info" else ClassName.ofInternal builder.name
  superclass : file.superclass = builder.superclass.map ClassName.ofInternal
  interfaces : file.interfaces = builder.interfaces.map ClassName.ofInternal
  signature : file.signature = builder.signature
  fields : file.fields = builder.fields.map MemberOrder.member
  methods : file.methods = builder.methods.map MemberOrder.member
  references : file.isModule = false →
    file.referencedClasses =
      (NameSet.ofList builder.mentions).erase (ClassName.ofInternal builder.name)

end Builder

/-! ## Attributes -/

section Attributes

variable {layout : Layout}

theorem SignedAs.linked {value : String} {item : Attribute} (signed : SignedAs layout value item) :
    layout.AttributeLinked .lossy item := by
  obtain ⟨index, body, named, here⟩ := signed
  simp only [Layout.AttributeLinked, body]
  exact ⟨named, value, here⟩

theorem DeclaredAs.linked {internals : List String} {item : Attribute}
    (declared : DeclaredAs layout internals item) : layout.AttributeLinked .lossy item := by
  obtain ⟨indices, body, named, leads⟩ := declared
  simp only [Layout.AttributeLinked, body]
  refine ⟨named, fun index listed => ?_⟩
  obtain ⟨internal, _, here⟩ := Outcome.exists_left_of_forall₂ leads index listed
  exact ⟨internal, here⟩

/-- Attributes that give a signature, if any, and declare some exceptions, if any. -/
structure AttributesLaid (layout : Layout) (signature : Option String) (internals : List String)
    (attributes : List Attribute) : Prop where
  linked : ∀ item ∈ attributes, layout.AttributeLinked .lossy item
  signature : layout.SignatureSaid .lossy attributes signature
  exceptions : layout.ExceptionsSaid .lossy attributes (internals.map ClassName.ofInternal)
  classes : ∀ internal ∈ internals, ∃ index, layout.ClassAt .lossy index internal
  count : attributes.length ≤ 2
  thrown : ∀ item ∈ attributes, item.thrown.length ≤ internals.length
  lengths : ∀ item ∈ attributes, item.body.encode.length ≤ 2 * internals.length + 2

theorem classNamed_of_classAt {internals : List String} {indices : List UInt16}
    (leads : List.Forall₂ (fun internal index => layout.ClassAt .lossy index internal) internals
      indices) :
    List.Forall₂ (layout.ClassNamedAt .lossy) indices (internals.map ClassName.ofInternal) := by
  rw [List.forall₂_map_right_iff]
  refine List.Forall₂.flip (leads.imp fun internal index here => ?_)
  exact ⟨internal, here, rfl⟩

theorem attributesLaid_nil : AttributesLaid layout none [] [] where
  linked := by simp
  signature := by simp [Layout.SignatureSaid]
  exceptions := .nil
  classes := by simp
  count := by simp
  thrown := by simp
  lengths := by simp

/-- Exceptions that are declared are all that an attribute says. -/
theorem attributesLaid_of_declared {internals : List String} {item : Attribute}
    (declared : DeclaredAs layout internals item) :
    AttributesLaid layout none internals [item] := by
  have linked := declared.linked
  obtain ⟨indices, body, named, leads⟩ := declared
  have thrown : item.thrown = indices := by simp [Attribute.thrown, body]
  have count := leads.length_eq
  have length : item.body.encode.length = 2 + 2 * indices.length := by
    rw [body]
    simp [AttributeBody.encode, encodeCounted, Octets.big16, List.length_flatMap]
    omega
  have unsigned : ¬ layout.TextAt .lossy item.name "Signature" := fun same =>
    absurd (Layout.textAt_unique named same) (by decide)
  constructor
  · simpa using linked
  · simpa [Layout.SignatureSaid] using unsigned
  · simpa [Layout.ExceptionsSaid, thrown] using classNamed_of_classAt leads
  · intro internal listed
    obtain ⟨index, _, here⟩ := Outcome.exists_right_of_forall₂ leads internal listed
    exact ⟨index, here⟩
  · simp
  · simp [thrown, count]
  · simp only [List.mem_singleton, forall_eq]
    omega

/-- A signature in front of attributes that give none. -/
theorem AttributesLaid.cons_signed {value : String} {internals : List String} {item : Attribute}
    {rest : List Attribute} (signed : SignedAs layout value item) (short : rest.length ≤ 1)
    (laid : AttributesLaid layout none internals rest) :
    AttributesLaid layout (some value) internals (item :: rest) := by
  have linked := signed.linked
  obtain ⟨index, body, named, here⟩ := signed
  have thrown : item.thrown = [] := by simp [Attribute.thrown, body]
  have length : item.body.encode.length = 2 := by
    rw [body]
    rfl
  constructor
  · exact List.forall_mem_cons.mpr ⟨linked, laid.linked⟩
  · exact ⟨index, ⟨item, ⟨[], rest, rfl, named, laid.signature⟩, body⟩, here⟩
  · simpa [Layout.ExceptionsSaid, thrown] using laid.exceptions
  · exact laid.classes
  · simpa using short
  · refine List.forall_mem_cons.mpr ⟨?_, laid.thrown⟩
    simp [thrown]
  · refine List.forall_mem_cons.mpr ⟨?_, laid.lengths⟩
    omega

/-- A signature, if there is one, in front of attributes that give none. -/
theorem AttributesLaid.append_signed {signature : Option String} {internals : List String}
    {signatures rest : List Attribute}
    (signed : List.Forall₂ (SignedAs layout) signature.toList signatures) (short : rest.length ≤ 1)
    (laid : AttributesLaid layout none internals rest) :
    AttributesLaid layout signature internals (signatures ++ rest) := by
  cases signature with
  | none =>
      cases signed
      exact laid
  | some value =>
      obtain ⟨item, _, head, tail, rfl⟩ := List.forall₂_cons_left_iff.mp signed
      cases tail
      exact laid.cons_signed head short

theorem AttributesLaid.fit {signature : Option String} {internals : List String}
    {attributes : List Attribute} (laid : AttributesLaid layout signature internals attributes)
    (few : internals.length ≤ 65535) : AttributesFit attributes := by
  refine ⟨by have count := laid.count; omega, fun item member => ?_⟩
  have length := laid.lengths item member
  omega

end Attributes

/-! ## Members -/

/-- A field or method is laid out as ordered. -/
structure MemberLaid (layout : Layout) (order : MemberOrder) (item : MemberLayout) : Prop where
  access : item.access = order.access
  name : layout.TextAt .lossy item.name order.name
  descriptor : layout.TextAt .lossy item.descriptor order.descriptor
  attributes : AttributesLaid layout order.signature order.exceptions item.attributes

namespace MemberLaid

variable {layout : Layout} {order : MemberOrder} {item : MemberLayout}

theorem said (laid : MemberLaid layout order item) :
    layout.MemberSaid .lossy item order.member where
  access := laid.access.symm
  name := laid.name
  descriptor := laid.descriptor
  signature := laid.attributes.signature
  exceptions := laid.attributes.exceptions

theorem linked (laid : MemberLaid layout order item) : layout.MemberLinked .lossy item where
  name := ⟨order.name, laid.name⟩
  descriptor := ⟨order.descriptor, laid.descriptor⟩
  attributes := laid.attributes.linked

end MemberLaid

section Steps

variable {layout : Layout} {names descriptors : List String}

/-- The attributes of a member, as steps for its signature and for its exceptions. -/
theorem lays_attributes (fits : Layout.slots layout.pool + 1 < 2 ^ 16) {order : MemberOrder}
    (short : ∀ text ∈ order.texts, Short text)
    (listed : ∀ internal ∈ order.exceptions, internal ∈ names) :
    Lays layout names descriptors (Draft.attributes order)
      (AttributesLaid layout order.signature order.exceptions) := by
  have signature_short : ∀ value ∈ order.signature.toList, Short value := fun value member =>
    short value (by simp [MemberOrder.texts, member])
  have exceptions_short : ∀ internal ∈ order.exceptions, Short internal := fun internal member =>
    short internal (by simp [MemberOrder.texts, member])
  have signatures : Lays layout names descriptors (order.signature.toList.mapM Draft.signature) _ :=
    Lays.mapM order.signature.toList fun value member =>
      lays_signature fits (signature_short value member)
  have declared : Lays layout names descriptors _ _ :=
    lays_exceptions fits exceptions_short listed
  unfold Draft.attributes
  by_cases none_thrown : order.exceptions = []
  · simp only [none_thrown, List.isEmpty_nil, if_true]
    refine (signatures.bind fun signatures => Lays.pure signatures).imp ?_
    rintro attributes ⟨_, signed, rfl⟩
    have laid := attributesLaid_nil.append_signed signed (by simp)
    rwa [List.append_nil] at laid
  · have some_thrown : order.exceptions.isEmpty = false := by simpa using none_thrown
    simp only [some_thrown, Bool.false_eq_true, if_false]
    refine (signatures.bind fun signatures =>
      declared.bind fun item => Lays.pure (signatures ++ [item])).imp ?_
    rintro attributes ⟨signatures, signed, item, declares, rfl⟩
    exact (attributesLaid_of_declared declares).append_signed signed (by simp)

theorem lays_member (fits : Layout.slots layout.pool + 1 < 2 ^ 16) {order : MemberOrder}
    (short : ∀ text ∈ order.texts, Short text)
    (listed : ∀ internal ∈ order.exceptions, internal ∈ names) :
    Lays layout names descriptors (Draft.member order) (MemberLaid layout order) := by
  have name_short : Short order.name := short order.name (by simp [MemberOrder.texts])
  have descriptor_short : Short order.descriptor :=
    short order.descriptor (by simp [MemberOrder.texts])
  refine ((lays_text fits order.name name_short).bind fun name =>
    (lays_text fits order.descriptor descriptor_short).bind fun descriptor =>
      (lays_attributes fits short listed).bind fun attributes =>
        Lays.pure (⟨order.access, name, descriptor, attributes⟩ : MemberLayout)).imp ?_
  rintro item ⟨name, named, descriptor, described, attributes, laid, rfl⟩
  exact ⟨rfl, named, described, laid⟩

theorem Lays.get : Lays layout names descriptors get fun _ => True where
  grows _ := List.prefix_rfl
  keeps _ sound _ := ⟨sound, trivial⟩

end Steps

/-! ## The whole -/

/-- A layout whose indices lead, in the pool of another one, to what was ordered. -/
structure LaidOver (builder : Builder) (layout result : Layout) : Prop where
  access : result.access = builder.access
  thisClass : layout.ClassAt .lossy result.thisClass builder.name
  superclass : ∀ internal, builder.superclass = some internal →
    layout.ClassAt .lossy result.superclass internal
  no_superclass : builder.superclass = none → result.superclass = 0
  interfaces : List.Forall₂ (fun internal index => layout.ClassAt .lossy index internal)
    builder.interfaces result.interfaces
  classRefs : ∀ internal ∈ builder.classRefs, ∃ index, layout.ClassAt .lossy index internal
  nameAndTypes : ∀ pair ∈ builder.nameAndTypes, ∃ index, PairedAs layout pair.2 index
  fields : List.Forall₂ (MemberLaid layout) builder.fields result.fields
  methods : List.Forall₂ (MemberLaid layout) builder.methods result.methods
  attributes : AttributesLaid layout builder.signature [] result.attributes

section Whole

variable {builder : Builder} {layout : Layout} {names descriptors : List String}

theorem lays_orderedClass (fits : Layout.slots layout.pool + 1 < 2 ^ 16)
    (short : ∀ text ∈ builder.texts, Short text) (named : builder.internals ⊆ names)
    {internal : String} (listed : internal ∈ builder.internals) :
    Lays layout names descriptors (Draft.classRef internal) fun index =>
      layout.ClassAt .lossy index internal :=
  lays_classRef fits (short internal (by simp [Builder.texts, listed])) (named listed)

theorem lays_orderedPair (fits : Layout.slots layout.pool + 1 < 2 ^ 16)
    (short : ∀ text ∈ builder.texts, Short text)
    (described : ∀ pair ∈ builder.nameAndTypes, pair.2 ∈ descriptors) {pair : String × String}
    (listed : pair ∈ builder.nameAndTypes) :
    Lays layout names descriptors (Draft.nameAndType pair) (PairedAs layout pair.2) := by
  have first : Short pair.1 := by
    refine short pair.1 (List.mem_append_left _ (List.mem_append_left _ ?_))
    exact List.mem_append_right _ (List.mem_map_of_mem listed)
  have second : Short pair.2 := by
    refine short pair.2 (List.mem_append_left _ ?_)
    exact List.mem_append_right _ (List.mem_map_of_mem listed)
  exact lays_nameAndType fits first second (described pair listed)

theorem lays_orderedMember (fits : Layout.slots layout.pool + 1 < 2 ^ 16)
    (short : ∀ text ∈ builder.texts, Short text) (named : builder.internals ⊆ names)
    {order : MemberOrder} (listed : order ∈ builder.members) :
    Lays layout names descriptors (Draft.member order) (MemberLaid layout order) := by
  have texts : ∀ text ∈ order.texts, Short text := by
    intro text among
    refine short text (List.mem_append_right _ ?_)
    exact List.mem_flatMap.mpr ⟨order, listed, among⟩
  have thrown : ∀ internal ∈ order.exceptions, internal ∈ names := by
    intro internal among
    refine named (List.mem_cons_of_mem _ (List.mem_append_right _ ?_))
    exact List.mem_flatMap.mpr ⟨order, listed, among⟩
  exact lays_member fits texts thrown

/-- The parts of an order are laid out one after the other. -/
theorem lays_layout (fits : Layout.slots layout.pool + 1 < 2 ^ 16)
    (short : ∀ text ∈ builder.texts, Short text) (named : builder.internals ⊆ names)
    (described : ∀ pair ∈ builder.nameAndTypes, pair.2 ∈ descriptors) :
    Lays layout names descriptors builder.lay (LaidOver builder layout) := by
  have class_lays : ∀ internal ∈ builder.internals,
      Lays layout names descriptors (Draft.classRef internal) fun index =>
        layout.ClassAt .lossy index internal :=
    fun _ listed => lays_orderedClass fits short named listed
  have member_lays : ∀ order ∈ builder.members,
      Lays layout names descriptors (Draft.member order) (MemberLaid layout order) :=
    fun _ listed => lays_orderedMember fits short named listed
  have signature_lays : ∀ value ∈ builder.signature.toList,
      Lays layout names descriptors (Draft.signature value) (SignedAs layout value) :=
    fun value listed => lays_signature fits (short value (by simp [Builder.texts, listed]))
  have own := class_lays builder.name (by simp [Builder.internals])
  have superclasses := Lays.mapM builder.superclass.toList fun internal member =>
    class_lays internal (by simp [Builder.internals, member])
  have interfaces := Lays.mapM builder.interfaces fun internal member =>
    class_lays internal (by simp [Builder.internals, member])
  have longs : Lays layout names descriptors (builder.longs.mapM Draft.long) _ :=
    Lays.mapM builder.longs fun value _ => lays_long fits value
  have classRefs := Lays.mapM builder.classRefs fun internal member =>
    class_lays internal (by simp [Builder.internals, member])
  have nameAndTypes : Lays layout names descriptors
      (builder.nameAndTypes.mapM Draft.nameAndType) _ :=
    Lays.mapM builder.nameAndTypes fun pair listed => lays_orderedPair fits short described listed
  have fields := Lays.mapM builder.fields fun order member =>
    member_lays order (List.mem_append_left _ member)
  have methods := Lays.mapM builder.methods fun order member =>
    member_lays order (List.mem_append_right _ member)
  have signatures := Lays.mapM builder.signature.toList signature_lays
  refine (own.bind fun thisClass => superclasses.bind fun superclasses =>
    interfaces.bind fun interfaces => longs.bind fun _ => classRefs.bind fun _ =>
    nameAndTypes.bind fun _ => fields.bind fun fields => methods.bind fun methods =>
    signatures.bind fun attributes => Lays.get.bind fun draft => Lays.pure (⟨0, 52, draft.entries,
      builder.access, thisClass, superclasses.headD 0, interfaces, fields, methods,
      attributes⟩ : Layout)).imp ?_
  rintro result ⟨thisClass, own, superclasses, above, interfaces, implemented, _, _, references,
    referred, pairs, paired, fields, fielded, methods, methoded, attributes, signed, draft, _, rfl⟩
  refine ⟨rfl, own, ?_, ?_, implemented, ?_, ?_, fielded, methoded, ?_⟩
  · intro internal given
    rw [given] at above
    obtain ⟨index, _, head, _, rfl⟩ := List.forall₂_cons_left_iff.mp above
    exact head
  · intro absent
    rw [absent] at above
    cases above
    rfl
  · intro internal listed
    obtain ⟨index, _, here⟩ := Outcome.exists_right_of_forall₂ referred internal listed
    exact ⟨index, here⟩
  · intro pair listed
    obtain ⟨index, _, here⟩ := Outcome.exists_right_of_forall₂ paired pair listed
    exact ⟨index, here⟩
  · have laid := attributesLaid_nil.append_signed signed (by simp)
    rwa [List.append_nil] at laid

/-- The layout of an order says what was ordered, and its pool holds nothing else. -/
theorem laid_of_fits (fits : builder.Fits) :
    LaidOver builder builder.layout builder.layout ∧
      ∀ entry ∈ builder.layout.pool,
        Stock builder.layout builder.internals (builder.nameAndTypes.map Prod.snd) entry := by
  have slots : Layout.slots builder.layout.pool + 1 < 2 ^ 16 := by
    have bound := fits.slots
    omega
  have short : ∀ text ∈ builder.texts, Short text := fun text member =>
    Nat.lt_succ_of_le (fits.texts text member)
  have lays := lays_layout slots short (List.Subset.refl _) fun pair member =>
    List.mem_map_of_mem (f := Prod.snd) member
  obtain ⟨sound, laid⟩ := lays.keeps .empty (Draft.sound_empty _ _ _) List.prefix_rfl
  exact ⟨laid, sound.stock⟩

/-! ## The class that is read -/

theorem ne_zero_of_classAt {index : UInt16} {internal : String}
    (here : layout.ClassAt .lossy index internal) : index ≠ 0 := by
  rintro rfl
  obtain ⟨name, found, _⟩ := here
  rw [UInt16.toNat_zero, Layout.constantAt?] at found
  cases found

/-- The class that is ordered, with what its constant pool names. -/
def Builder.file (builder : Builder) (classes descriptors : List String) : ClassFile where
  name := if builder.access.isModule then "module-info" else ClassName.ofInternal builder.name
  access := builder.access
  superclass := builder.superclass.map ClassName.ofInternal
  interfaces := builder.interfaces.map ClassName.ofInternal
  signature := builder.signature
  fields := builder.fields.map MemberOrder.member
  methods := builder.methods.map MemberOrder.member
  poolClasses := classes
  poolDescriptors := descriptors

/-- If every constant of a kind is there for a text that was asked for, and the other way round,
then these constants lead to the texts that were asked for. -/
theorem mem_texts_iff {choose : Entry → Option UInt16} {texts ordered : List String}
    (here : List.Forall₂ (layout.TextAt .lossy) (layout.pool.filterMap choose) texts)
    (reasons : ∀ entry ∈ layout.pool, ∀ index, choose entry = some index →
      ∃ text ∈ ordered, layout.TextAt .lossy index text)
    (places : ∀ text ∈ ordered, ∃ entry ∈ layout.pool, ∃ index, choose entry = some index ∧
      layout.TextAt .lossy index text) (text : String) : text ∈ texts ↔ text ∈ ordered := by
  constructor
  · intro member
    obtain ⟨index, leads, found⟩ := Outcome.exists_left_of_forall₂ here text member
    obtain ⟨entry, listed, held⟩ := List.mem_filterMap.mp leads
    obtain ⟨other, asked, there⟩ := reasons entry listed index held
    rwa [Layout.textAt_unique found there]
  · intro asked
    obtain ⟨entry, listed, index, held, found⟩ := places text asked
    have leads : index ∈ layout.pool.filterMap choose :=
      List.mem_filterMap.mpr ⟨entry, listed, held⟩
    obtain ⟨other, member, there⟩ := Outcome.exists_right_of_forall₂ here index leads
    rwa [Layout.textAt_unique found there]

namespace LaidOver

/-- Each class that is ordered is a constant. -/
theorem exists_classAt (laid : LaidOver builder layout layout) :
    ∀ internal ∈ builder.internals, ∃ index, layout.ClassAt .lossy index internal := by
  intro internal listed
  simp only [Builder.internals, List.mem_cons, List.mem_append, List.mem_flatMap] at listed
  rcases listed with rfl | ((above | interface) | referred) | ⟨order, ordered, thrown⟩
  · exact ⟨_, laid.thisClass⟩
  · exact ⟨_, laid.superclass internal (Option.mem_toList.mp above)⟩
  · obtain ⟨index, _, here⟩ := Outcome.exists_right_of_forall₂ laid.interfaces internal interface
    exact ⟨index, here⟩
  · exact laid.classRefs internal referred
  · obtain ⟨item, _, member⟩ : ∃ item ∈ layout.fields ++ layout.methods,
        MemberLaid layout order item :=
      Outcome.exists_right_of_forall₂ (List.rel_append laid.fields laid.methods) order ordered
    exact member.attributes.classes internal thrown

theorem memberLaid (laid : LaidOver builder layout layout) :
    ∀ item ∈ layout.fields ++ layout.methods,
      ∃ order ∈ builder.members, MemberLaid layout order item :=
  Outcome.exists_left_of_forall₂ (List.rel_append laid.fields laid.methods)

theorem linked (laid : LaidOver builder layout layout)
    (stock : ∀ entry ∈ layout.pool, Stock layout names descriptors entry) :
    layout.Linked .lossy where
  classNames := by
    intro index leads
    obtain ⟨entry, listed, held⟩ := List.mem_filterMap.mp leads
    obtain ⟨internal, _, here⟩ := (stock entry listed).exists_name held
    exact ⟨internal, here⟩
  descriptors := by
    intro index leads
    obtain ⟨entry, listed, held⟩ := List.mem_filterMap.mp leads
    obtain ⟨text, _, here⟩ := (stock entry listed).exists_descriptor held
    exact ⟨text, here⟩
  thisClass _ := ⟨builder.name, laid.thisClass⟩
  superclass := by
    intro present
    cases given : builder.superclass with
    | none => exact absurd (laid.no_superclass given) present
    | some internal => exact ⟨internal, laid.superclass internal given⟩
  interfaces := by
    intro index listed
    obtain ⟨internal, _, here⟩ := Outcome.exists_left_of_forall₂ laid.interfaces index listed
    exact ⟨internal, here⟩
  fields := by
    intro item listed
    obtain ⟨order, _, member⟩ := laid.memberLaid item (List.mem_append_left _ listed)
    exact member.linked
  methods := by
    intro item listed
    obtain ⟨order, _, member⟩ := laid.memberLaid item (List.mem_append_right _ listed)
    exact member.linked
  attributes := laid.attributes.linked

theorem encodable (laid : LaidOver builder layout layout)
    (stock : ∀ entry ∈ layout.pool, Stock layout names descriptors entry)
    (slots : Layout.slots layout.pool ≤ 65534) (fits : builder.Fits) : layout.Encodable where
  slots := by omega
  texts := by
    intro entry listed
    exact (stock entry listed).textLength_lt
  interfaces := by
    have count := laid.interfaces.length_eq
    have bound := fits.interfaces
    omega
  fields := by
    have count := laid.fields.length_eq
    have bound := fits.fields
    omega
  methods := by
    have count := laid.methods.length_eq
    have bound := fits.methods
    omega
  members := by
    intro item listed
    obtain ⟨order, ordered, member⟩ := laid.memberLaid item listed
    exact member.attributes.fit (fits.exceptions order ordered)
  attributes := laid.attributes.fit (by simp)
  thrown := by
    intro held listed
    rcases List.mem_append.mp listed with own | inside
    · have none_thrown := laid.attributes.thrown held own
      simp only [List.length_nil] at none_thrown
      omega
    · obtain ⟨item, among, inItem⟩ := List.mem_flatMap.mp inside
      obtain ⟨order, ordered, member⟩ := laid.memberLaid item among
      have few := member.attributes.thrown held inItem
      have bound := fits.exceptions order ordered
      omega

/-- The layout says what was ordered. -/
theorem classSaid (laid : LaidOver builder layout layout) {classes texts : List String}
    (classed : List.Forall₂ (layout.TextAt .lossy) (layout.pool.filterMap Entry.classIndex?)
      classes)
    (described : List.Forall₂ (layout.TextAt .lossy)
      (layout.pool.filterMap Entry.descriptorIndex?) texts) :
    layout.ClassSaid .lossy (builder.file classes texts) where
  access := laid.access.symm
  name := by
    intro plain
    rw [laid.access] at plain
    refine ⟨builder.name, laid.thisClass, ?_⟩
    simp [Builder.file, plain]
  module_name := by
    intro module
    rw [laid.access] at module
    simp [Builder.file, module]
  superclass := by
    intro name named
    obtain ⟨internal, given, rfl⟩ := Option.map_eq_some_iff.mp named
    exact ⟨internal, laid.superclass internal given, rfl⟩
  no_superclass := by
    cases given : builder.superclass with
    | none => simp [Builder.file, given, laid.no_superclass given]
    | some internal =>
        have present := ne_zero_of_classAt (laid.superclass internal given)
        simp [Builder.file, given, present]
  interfaces := classNamed_of_classAt laid.interfaces
  signature := laid.attributes.signature
  fields := by
    refine List.forall₂_map_right_iff.mpr (List.Forall₂.flip ?_)
    exact laid.fields.imp fun _ _ member => member.said
  methods := by
    refine List.forall₂_map_right_iff.mpr (List.Forall₂.flip ?_)
    exact laid.methods.imp fun _ _ member => member.said
  poolClasses := classed
  poolDescriptors := described

/-- The class constants are the classes that are ordered. -/
theorem mem_classes (laid : LaidOver builder layout layout)
    (stock : ∀ entry ∈ layout.pool, Stock layout builder.internals descriptors entry)
    {classes : List String}
    (classed : List.Forall₂ (layout.TextAt .lossy) (layout.pool.filterMap Entry.classIndex?)
      classes)
    (internal : String) : internal ∈ classes ↔ internal ∈ builder.internals := by
  refine mem_texts_iff classed (fun entry listed _ held => (stock entry listed).exists_name held)
    (fun internal ordered => ?_) internal
  obtain ⟨index, name, found, here⟩ := laid.exists_classAt internal ordered
  exact ⟨_, Layout.mem_pool_of_constantAt? found, name, rfl, here⟩

/-- The descriptors of the pool are those of the pairs that are ordered. -/
theorem mem_descriptors (laid : LaidOver builder layout layout)
    (stock : ∀ entry ∈ layout.pool,
      Stock layout names (builder.nameAndTypes.map Prod.snd) entry)
    {texts : List String}
    (described : List.Forall₂ (layout.TextAt .lossy)
      (layout.pool.filterMap Entry.descriptorIndex?) texts)
    (text : String) : text ∈ texts ↔ text ∈ builder.nameAndTypes.map Prod.snd := by
  refine mem_texts_iff described
    (fun entry listed _ held => (stock entry listed).exists_descriptor held)
    (fun text ordered => ?_) text
  obtain ⟨pair, paired, rfl⟩ := List.mem_map.mp ordered
  obtain ⟨index, name, descriptor, here, found⟩ := laid.nameAndTypes pair paired
  exact ⟨_, Layout.mem_pool_of_constantAt? found, descriptor, rfl, here⟩

end LaidOver

/-! ## References -/

/-- The classes in the descriptors and signatures of some members. -/
theorem mem_memberTypes (orders : List MemberOrder) (name : String) :
    name ∈ (orders.map MemberOrder.member).flatMap memberTypes ↔
      name ∈ (orders.map MemberOrder.descriptor).flatMap Descriptor.classTypes ∨
        name ∈ (orders.flatMap fun order => order.signature.toList).flatMap
          Signature.classTypes := by
  induction orders with
  | nil => simp
  | cons order rest same =>
      have signed : signatureTypes order.member.signature =
          order.signature.toList.flatMap Signature.classTypes := by
        cases given : order.signature <;> simp [signatureTypes, MemberOrder.member, given]
      simp only [List.map_cons, List.flatMap_cons, List.flatMap_append, List.mem_append, same,
        memberTypes, signed]
      rw [or_or_or_comm]
      rfl

/-- A class that has the constants of an order mentions what the order mentions. -/
theorem mem_mentionedTypes_file {classes texts : List String}
    (classed : ∀ internal, internal ∈ classes ↔ internal ∈ builder.internals)
    (described : ∀ text, text ∈ texts ↔ text ∈ builder.nameAndTypes.map Prod.snd) (name : String) :
    name ∈ (builder.file classes texts).mentionedTypes ↔ name ∈ builder.mentions := by
  have members : (builder.file classes texts).members = builder.members.map MemberOrder.member := by
    simp [members, Builder.members, Builder.file]
  have constants : name ∈ classes.flatMap constantTypes ↔
      name ∈ builder.internals.flatMap constantTypes := by
    simp only [List.mem_flatMap, classed]
  have pairs : name ∈ texts.flatMap Descriptor.classTypes ↔
      name ∈ (builder.nameAndTypes.map Prod.snd).flatMap Descriptor.classTypes := by
    simp only [List.mem_flatMap, described]
  have signed : signatureTypes builder.signature =
      builder.signature.toList.flatMap Signature.classTypes := by
    cases given : builder.signature <;> simp [signatureTypes]
  rw [mentionedTypes, members]
  simp only [Builder.file, Builder.mentions, Builder.descriptors, Builder.signatures,
    List.flatMap_append, List.mem_append, mem_memberTypes, constants, pairs, signed]
  tauto

/-- **A class to order is read as ordered.**  As long as the order fits the widths of a class
file, its octets are read as a class, which says each part of the order in its place and
refers to the classes that the order mentions, and to no others. -/
theorem parse_build (builder : Builder) (fits : builder.Fits) :
    ∃ file, parse builder.build = .ok file ∧ builder.ReadAs file := by
  obtain ⟨laid, stock⟩ := laid_of_fits fits
  have linked := laid.linked stock
  obtain ⟨classes, classed⟩ := Outcome.exists_forall₂ linked.classNames
  obtain ⟨texts, described⟩ := Outcome.exists_forall₂ linked.descriptors
  have parsed := Layout.parse_encode_of_said (laid.classSaid classed described) linked
    (laid.encodable stock fits.slots fits) []
  rw [List.append_nil] at parsed
  refine ⟨_, parsed, rfl, rfl, rfl, rfl, rfl, rfl, rfl, fun plain => ?_⟩
  have named : (builder.file classes texts).name = ClassName.ofInternal builder.name := by
    have own : builder.access.isModule = false := plain
    simp [Builder.file, own]
  have same := mem_mentionedTypes_file (laid.mem_classes stock classed)
    (laid.mem_descriptors stock described)
  rw [referencedClasses, plain, if_neg Bool.false_ne_true, named]
  ext name
  simp only [NameSet.mem_erase, NameSet.mem_ofList, same]

end Whole

namespace Full

/-- A class `p.A` with something of everything. -/
def order : Builder :=
  Builder.ofName "p/A"
    |>.addInterface "p/I"
    |>.addLong 7
    |>.addClassRef "[Lp/B;"
    |>.addNameAndType "m" "(Lp/C;)V"
    |>.addField ⟨0x0002⟩ "f" "Lp/D;"
    |>.addMethod ⟨⟨0x0001⟩, "g", "()V", some "()Lp/E;", ["p/X", "p/A"]⟩
    |>.setSignature "Lp/S<TT;>;"

theorem fits : order.Fits where
  texts := by decide +kernel
  interfaces := by decide
  fields := by decide
  methods := by decide
  exceptions := by decide
  slots := by decide +kernel

end Full

/-- Such a class is read as ordered, and it does not refer to itself. -/
theorem parse_build_of_full :
    ∃ file, parse Full.order.build = .ok file ∧ Full.order.ReadAs file ∧
      file.referencedClasses.toList =
        ["java.lang.Object", "p.B", "p.C", "p.D", "p.E", "p.I", "p.S", "p.X"] := by
  obtain ⟨file, parsed, read⟩ := parse_build Full.order Full.fits
  refine ⟨file, parsed, read, ?_⟩
  have plain : file.isModule = false := by
    rw [ClassFile.isModule, read.access]
    decide
  rw [read.references plain]
  decide +kernel

end DependencyAudit.ClassFile
