/-
# DependencyAudit.Proofs.Linked -- class files whose indices lead where they should

Every name in a class file is an index, and nothing in its octets says that an index leads to
a constant of the kind that its place requires.  A layout is `Linked` if all of them do that
anybody follows: those of class constants and descriptors, of the class and its superclass,
of interfaces, members, signatures and declared exceptions.  All other constants and all other
attributes may hold whatever they like.  As UTF-8 with replacements all octets spell a text, so
there a constant has to be a text and no more.

What a linked layout says is said place by place (`ClassSaid`): each index stands for the text or
the class that it leads to, of several signatures the last counts, and exceptions add up in
the order in which they are written.  It says something in every spelling in which it is linked
(`Linked.exists_classSaid`).

What it says as UTF-8 with replacements is read, whatever follows it (`parse_encode_of_said`),
for it is what the indices come to (`ClassSaid.describes`), attribute by attribute
(`resolve_attributes`).
-/
import DependencyAudit.Proofs.Mentions
import DependencyAudit.Proofs.TextOctets

namespace DependencyAudit.ClassFile

open DependencyAudit.Octets DependencyAudit.Text

set_option autoImplicit false

/-! ## Indices of constants and attributes -/

namespace Entry

/-- The index of the name of a class constant. -/
def classIndex? : Entry → Option UInt16
  | .classRef name => some name
  | _ => none

/-- The index of the descriptor of a constant that has one. -/
def descriptorIndex? : Entry → Option UInt16
  | .nameAndType _ descriptor => some descriptor
  | .methodType descriptor => some descriptor
  | _ => none

theorem classNameIndex?_constant (entry : Entry) :
    ConstantPool.classNameIndex? entry.constant = entry.classIndex? := by
  cases entry <;> rfl

theorem descriptorIndex?_constant (entry : Entry) :
    ConstantPool.descriptorIndex? entry.constant = entry.descriptorIndex? := by
  cases entry <;> rfl

end Entry

/-- The indices of the exceptions that an attribute declares. -/
def Attribute.thrown (item : Attribute) : List UInt16 :=
  match item.body with
  | .exceptions indices => indices
  | _ => []

namespace Layout

/-! ## Linked layouts -/

/-- The name of an attribute is the one for what it holds, and its indices lead there.  What
has another name may hold anything. -/
def AttributeLinked (layout : Layout) (spelling : Spelling) (item : Attribute) : Prop :=
  match item.body with
  | .signature index =>
      layout.TextAt spelling item.name "Signature" ∧ ∃ text, layout.TextAt spelling index text
  | .exceptions indices =>
      layout.TextAt spelling item.name "Exceptions" ∧
        ∀ index ∈ indices, ∃ internal, layout.ClassAt spelling index internal
  | .other _ =>
      ∃ name, layout.TextAt spelling item.name name ∧ name ≠ "Signature" ∧ name ≠ "Exceptions"

/-- The indices of a field or method lead where they should. -/
structure MemberLinked (layout : Layout) (spelling : Spelling) (item : MemberLayout) : Prop where
  name : ∃ text, layout.TextAt spelling item.name text
  descriptor : ∃ text, layout.TextAt spelling item.descriptor text
  attributes : ∀ held ∈ item.attributes, layout.AttributeLinked spelling held

/-- The indices of a class file lead where they should, as far as anybody follows them. -/
structure Linked (layout : Layout) (spelling : Spelling) : Prop where
  classNames : ∀ index ∈ layout.pool.filterMap Entry.classIndex?,
    ∃ text, layout.TextAt spelling index text
  descriptors : ∀ index ∈ layout.pool.filterMap Entry.descriptorIndex?,
    ∃ text, layout.TextAt spelling index text
  /-- A module descriptor has no use for its own class constant. -/
  thisClass : layout.access.isModule = false →
    ∃ internal, layout.ClassAt spelling layout.thisClass internal
  superclass : layout.superclass ≠ 0 →
    ∃ internal, layout.ClassAt spelling layout.superclass internal
  interfaces : ∀ index ∈ layout.interfaces, ∃ internal, layout.ClassAt spelling index internal
  fields : ∀ item ∈ layout.fields, layout.MemberLinked spelling item
  methods : ∀ item ∈ layout.methods, layout.MemberLinked spelling item
  attributes : ∀ held ∈ layout.attributes, layout.AttributeLinked spelling held

/-! ## What a layout says -/

/-- The class constant at an index stands for a class name. -/
def ClassNamedAt (layout : Layout) (spelling : Spelling) (index : UInt16) (className : String) :
    Prop :=
  ∃ internal, layout.ClassAt spelling index internal ∧ className = ClassName.ofInternal internal

/-- The signature that some attributes give, which is that of the last one named so. -/
def SignatureSaid (layout : Layout) (spelling : Spelling) (attributes : List Attribute) :
    Option String → Prop
  | some text =>
      ∃ index, layout.SignatureOf spelling attributes index ∧ layout.TextAt spelling index text
  | none => ∀ item ∈ attributes, ¬ layout.TextAt spelling item.name "Signature"

/-- The exceptions that some attributes declare, in the order in which they are written. -/
def ExceptionsSaid (layout : Layout) (spelling : Spelling) (attributes : List Attribute)
    (names : List String) : Prop :=
  List.Forall₂ (layout.ClassNamedAt spelling) (attributes.flatMap Attribute.thrown) names

/-- What a field or method of a layout said. -/
structure MemberSaid (layout : Layout) (spelling : Spelling) (item : MemberLayout)
    (member : Member) : Prop where
  access : member.access = item.access
  name : layout.TextAt spelling item.name member.name
  descriptor : layout.TextAt spelling item.descriptor member.descriptor
  signature : layout.SignatureSaid spelling item.attributes member.signature
  exceptions : layout.ExceptionsSaid spelling item.attributes member.exceptions

/-- What a layout says of a class. -/
structure ClassSaid (layout : Layout) (spelling : Spelling) (file : ClassFile) : Prop where
  access : file.access = layout.access
  name : layout.access.isModule = false → layout.ClassNamedAt spelling layout.thisClass file.name
  module_name : layout.access.isModule = true → file.name = "module-info"
  superclass : ∀ name, file.superclass = some name →
    layout.ClassNamedAt spelling layout.superclass name
  no_superclass : file.superclass = none ↔ layout.superclass = 0
  interfaces : List.Forall₂ (layout.ClassNamedAt spelling) layout.interfaces file.interfaces
  signature : layout.SignatureSaid spelling layout.attributes file.signature
  fields : List.Forall₂ (layout.MemberSaid spelling) layout.fields file.fields
  methods : List.Forall₂ (layout.MemberSaid spelling) layout.methods file.methods
  poolClasses : List.Forall₂ (layout.TextAt spelling) (layout.pool.filterMap Entry.classIndex?)
    file.poolClasses
  poolDescriptors : List.Forall₂ (layout.TextAt spelling)
    (layout.pool.filterMap Entry.descriptorIndex?) file.poolDescriptors

/-! ## Look-up -/

section LookUp

variable {layout : Layout}

theorem textAt_unique {spelling : Spelling} {index : UInt16} {first second : String}
    (here : layout.TextAt spelling index first) (there : layout.TextAt spelling index second) :
    first = second := by
  obtain ⟨octets, found, spelled⟩ := here
  obtain ⟨_, same, spelled'⟩ := there
  cases found.symm.trans same
  exact spelled.unique spelled'

/-- A text that was written into a constant stands there. -/
theorem textAt_of_written {index : UInt16} {text : String}
    (found : constantAt? layout.pool index.toNat = some (.utf8 (Utf8.encodeString text))) :
    layout.TextAt .lossy index text :=
  ⟨Utf8.encodeString text, found, (Utf8.decodeLossy_encodeString text).symm⟩

theorem className_eq_ok {index : UInt16} {className : String}
    (named : layout.ClassNamedAt .lossy index className) :
    layout.constantPool.className index = .ok className := by
  obtain ⟨internal, ⟨name, found, here⟩, rfl⟩ := named
  have constant : layout.constantPool.constants[index.toNat]? = some (.classRef name) := by
    rw [constantPool, List.getElem?_toArray]
    exact (getElem?_constants (by simp)).mpr ⟨.classRef name, found, rfl⟩
  have known : layout.constantPool.internalName index = .ok internal :=
    ConstantPool.internalName_eq_ok_iff.mpr ⟨name, constant, text_eq_ok_iff.mpr here⟩
  rw [ConstantPool.className, known]
  rfl

theorem classNames_eq_ok {indices : List UInt16} {names : List String}
    (named : List.Forall₂ (layout.ClassNamedAt .lossy) indices names) :
    indices.mapM layout.constantPool.className = .ok names :=
  Outcome.mapM_eq_ok_iff_forall₂.mpr (named.imp fun _ _ => className_eq_ok)

theorem texts_eq_ok {indices : List UInt16} {texts : List String}
    (here : List.Forall₂ (layout.TextAt .lossy) indices texts) :
    layout.constantPool.texts indices = .ok texts :=
  Outcome.mapM_eq_ok_iff_forall₂.mpr (here.imp fun _ _ => text_eq_ok_iff.mpr)

/-- What is chosen from the constants of a pool is chosen from its entries: a second index
leads nowhere. -/
theorem filterMap_constants {choose : Constant → Option UInt16} (unused : choose .untyped = none)
    (entries : List Entry) :
    (Constant.untyped :: entries.flatMap Entry.constants).filterMap choose =
      entries.filterMap fun entry => choose entry.constant := by
  rw [List.filterMap_cons_none unused]
  induction entries with
  | nil => rfl
  | cons entry rest chosen =>
      have own : entry.constants.filterMap choose = (choose entry.constant).toList := by
        unfold Entry.constants
        cases entry.isWide <;> cases kept : choose entry.constant <;> simp [kept, unused]
      rw [List.flatMap_cons, List.filterMap_append, chosen, own]
      cases kept : choose entry.constant <;> simp [kept]

theorem filterMap_classNameIndex? :
    layout.constantPool.constants.toList.filterMap ConstantPool.classNameIndex? =
      layout.pool.filterMap Entry.classIndex? := by
  rw [constantPool, List.toList_toArray, filterMap_constants rfl]
  simp only [Entry.classNameIndex?_constant]

theorem filterMap_descriptorIndex? :
    layout.constantPool.constants.toList.filterMap ConstantPool.descriptorIndex? =
      layout.pool.filterMap Entry.descriptorIndex? := by
  rw [constantPool, List.toList_toArray, filterMap_constants rfl]
  simp only [Entry.descriptorIndex?_constant]

end LookUp

/-! ## Attributes -/

section AttributeLists

variable {layout : Layout} {spelling : Spelling}

/-- An attribute of another name has no say in the signature. -/
theorem signatureSaid_cons_of_unnamed {item : Attribute} {rest : List Attribute}
    {signature : Option String} (unnamed : ¬ layout.TextAt .lossy item.name "Signature")
    (said : layout.SignatureSaid .lossy (item :: rest) signature) :
    layout.SignatureSaid .lossy rest signature := by
  cases signature with
  | none => exact fun other member => said other (List.mem_cons_of_mem item member)
  | some text =>
      obtain ⟨index, ⟨other, last, body⟩, here⟩ := said
      rcases lastMember_cons.mp last with inTail | ⟨rfl, named, _⟩
      · exact ⟨index, ⟨other, inTail, body⟩, here⟩
      · exact absurd named unnamed

/-- A signature counts unless another one follows. -/
theorem signatureSaid_cons_of_signature {item : Attribute} {rest : List Attribute}
    {signature : Option String} {index : UInt16} {text : String}
    (named : layout.TextAt .lossy item.name "Signature") (body : item.body = .signature index)
    (here : layout.TextAt .lossy index text)
    (said : layout.SignatureSaid .lossy (item :: rest) signature) :
    ∃ later, layout.SignatureSaid .lossy rest later ∧ signature = later.or (some text) := by
  cases signature with
  | none => exact absurd named (said item List.mem_cons_self)
  | some found =>
      obtain ⟨other, ⟨holder, last, held⟩, there⟩ := said
      rcases lastMember_cons.mp last with inTail | ⟨rfl, _, unnamed⟩
      · exact ⟨some found, ⟨other, ⟨holder, inTail, held⟩, there⟩, rfl⟩
      · rw [body] at held
        cases held
        exact ⟨none, unnamed, congrArg some (textAt_unique there here)⟩

/-- A signature is taken for what is known. -/
theorem resolveOne_signature {item : Attribute} {index : UInt16} {text : String}
    (named : layout.TextAt .lossy item.name "Signature") (body : item.body = .signature index)
    (here : layout.TextAt .lossy index text) (sofar : Attributes) :
    Attributes.resolveOne layout.constantPool sofar item =
      .ok { sofar with signature := some text } := by
  rw [Attributes.resolveOne, text_eq_ok_iff.mpr named, body]
  change sofar.after layout.constantPool "Signature" (big16 index) = _
  rw [Attributes.after_signature, text_eq_ok_iff.mpr here]
  rfl

/-- Declared exceptions are put behind those that are known. -/
theorem resolveOne_exceptions {item : Attribute} {indices : List UInt16} {names : List String}
    (named : layout.TextAt .lossy item.name "Exceptions") (body : item.body = .exceptions indices)
    (count : indices.length < 2 ^ 16)
    (here : List.Forall₂ (layout.ClassNamedAt .lossy) indices names)
    (sofar : Attributes) :
    Attributes.resolveOne layout.constantPool sofar item =
      .ok { sofar with exceptions := sofar.exceptions ++ names } := by
  have answers := Reader.answers_counted count fun index _ =>
    answers_readInterface layout.constantPool index
  have read : Reader.counted (readInterface layout.constantPool)
      (encodeCounted big16 indices ++ []) = .ok (names, []) := by
    rw [answers [], classNames_eq_ok here]
    rfl
  rw [List.append_nil] at read
  rw [Attributes.resolveOne, text_eq_ok_iff.mpr named, body]
  change sofar.after layout.constantPool "Exceptions" (encodeCounted big16 indices) = _
  have other : "Exceptions" ≠ "Signature" := by decide
  simp only [Attributes.after, Attributes.add, if_neg other, if_true, Reader.within, StateT.run,
    bind, StateT.bind, Except.bind]
  change ((Except.bind (Reader.counted (readInterface layout.constantPool)
    (encodeCounted big16 indices)) _).map _).map _ = _
  rw [read]
  rfl

/-- An attribute of another name is passed over, whatever it holds. -/
theorem resolveOne_other {item : Attribute} {name : String}
    (here : layout.TextAt .lossy item.name name)
    (no_signature : name ≠ "Signature") (no_exceptions : name ≠ "Exceptions")
    (sofar : Attributes) :
    Attributes.resolveOne layout.constantPool sofar item = .ok sofar := by
  rw [Attributes.resolveOne, text_eq_ok_iff.mpr here]
  change sofar.after layout.constantPool name item.body.encode = _
  rw [Attributes.after, Attributes.add, if_neg no_signature, if_neg no_exceptions]
  rfl

/-- The exceptions of an attribute stand in front of those of the attributes after it. -/
theorem exceptionsSaid_cons {item : Attribute} {rest : List Attribute} {names : List String}
    (said : layout.ExceptionsSaid .lossy (item :: rest) names) :
    ∃ own others, List.Forall₂ (layout.ClassNamedAt .lossy) item.thrown own ∧
      layout.ExceptionsSaid .lossy rest others ∧ names = own ++ others := by
  unfold ExceptionsSaid at said
  rw [List.flatMap_cons] at said
  have first := List.forall₂_take item.thrown.length said
  have later := List.forall₂_drop item.thrown.length said
  rw [List.take_left] at first
  rw [List.drop_left] at later
  exact ⟨_, _, first, later, (List.take_append_drop _ _).symm⟩

/-- Attributes come to what they say, on top of what is known. -/
theorem resolve_attributes :
    ∀ {attributes : List Attribute} {signature : Option String} {names : List String}
      (sofar : Attributes), (∀ item ∈ attributes, layout.AttributeLinked .lossy item) →
      (∀ item ∈ attributes, item.thrown.length < 2 ^ 16) →
      layout.SignatureSaid .lossy attributes signature →
      layout.ExceptionsSaid .lossy attributes names →
      attributes.foldlM (Attributes.resolveOne layout.constantPool) sofar =
        .ok ⟨signature.or sofar.signature, sofar.exceptions ++ names⟩
  | [], some _, _, _, _, _, ⟨_, ⟨_, last, _⟩, _⟩, _ => absurd last not_lastMember_nil
  | [], none, names, sofar, _, _, _, said => by
      cases List.forall₂_nil_left_iff.mp said
      rw [List.append_nil]
      rfl
  | item :: rest, signature, names, sofar, linked, counts, said, exceptions => by
      have head := linked item List.mem_cons_self
      have tail := fun sofar signature names => @resolve_attributes rest signature names sofar
        (fun other member => linked other (List.mem_cons_of_mem item member))
        (fun other member => counts other (List.mem_cons_of_mem item member))
      rw [List.foldlM_cons]
      have count := counts item List.mem_cons_self
      obtain ⟨own, others, thrown, more, rfl⟩ := exceptionsSaid_cons exceptions
      unfold AttributeLinked at head
      unfold Attribute.thrown at thrown count
      cases body : item.body with
      | signature index =>
          simp only [body] at head thrown
          cases thrown
          obtain ⟨named, text, here⟩ := head
          obtain ⟨later, saidLater, rfl⟩ := signatureSaid_cons_of_signature named body here said
          rw [resolveOne_signature named body here]
          change rest.foldlM _ _ = _
          rw [tail _ later others saidLater more]
          cases later <;> rfl
      | exceptions indices =>
          simp only [body] at head thrown count
          have unnamed : ¬ layout.TextAt .lossy item.name "Signature" := fun same =>
            absurd (textAt_unique head.1 same) (by decide)
          rw [resolveOne_exceptions head.1 body count thrown]
          change rest.foldlM _ _ = _
          rw [tail _ signature others (signatureSaid_cons_of_unnamed unnamed said) more,
            List.append_assoc]
      | other octets =>
          simp only [body] at head thrown
          cases thrown
          obtain ⟨name, here, no_signature, no_exceptions⟩ := head
          have unnamed : ¬ layout.TextAt .lossy item.name "Signature" := fun same =>
            no_signature (textAt_unique here same)
          rw [resolveOne_other here no_signature no_exceptions]
          exact tail sofar signature others (signatureSaid_cons_of_unnamed unnamed said) more

/-- There is a signature to be taken, or none of this name. -/
theorem exists_signatureSaid {attributes : List Attribute}
    (linked : ∀ item ∈ attributes, layout.AttributeLinked spelling item) :
    ∃ signature, layout.SignatureSaid spelling attributes signature := by
  by_cases named : ∃ item ∈ attributes, layout.TextAt spelling item.name "Signature"
  · obtain ⟨item, last⟩ := exists_lastMember_iff.mpr named
    have own := linked item last.mem
    unfold AttributeLinked at own
    cases body : item.body with
    | signature index =>
        simp only [body] at own
        obtain ⟨_, text, here⟩ := own
        exact ⟨some text, index, ⟨item, last, body⟩, here⟩
    | exceptions indices =>
        simp only [body] at own
        exact absurd (textAt_unique own.1 last.holds) (by decide)
    | other octets =>
        simp only [body] at own
        obtain ⟨name, here, other, _⟩ := own
        exact absurd (textAt_unique here last.holds) other
  · exact ⟨none, fun item member here => named ⟨item, member, here⟩⟩

theorem exists_classNamedAt {index : UInt16}
    (here : ∃ internal, layout.ClassAt spelling index internal) :
    ∃ className, layout.ClassNamedAt spelling index className := by
  obtain ⟨internal, here⟩ := here
  exact ⟨ClassName.ofInternal internal, internal, here, rfl⟩

theorem exists_exceptionsSaid {attributes : List Attribute}
    (linked : ∀ item ∈ attributes, layout.AttributeLinked spelling item) :
    ∃ names, layout.ExceptionsSaid spelling attributes names := by
  refine Outcome.exists_forall₂ fun index thrown => exists_classNamedAt ?_
  obtain ⟨item, member, among⟩ := List.mem_flatMap.mp thrown
  have own := linked item member
  unfold AttributeLinked at own
  unfold Attribute.thrown at among
  cases body : item.body with
  | exceptions indices =>
      simp only [body] at own among
      exact own.2 index among
  | signature _ => simp [body] at among
  | other _ => simp [body] at among

end AttributeLists

/-! ## Members and the whole -/

/-- All attributes, those of the class first. -/
def everyAttribute (layout : Layout) : List Attribute :=
  layout.attributes ++ (layout.fields ++ layout.methods).flatMap MemberLayout.attributes

/-- A layout that can be written: the counts of declared exceptions fit their fields as well. -/
structure Encodable (layout : Layout) : Prop extends layout.Fits where
  thrown : ∀ item ∈ layout.everyAttribute, item.thrown.length < 2 ^ 16

section Whole

variable {layout : Layout} {spelling : Spelling}

theorem Encodable.thrown_of_member (encodable : layout.Encodable) {item : MemberLayout}
    (listed : item ∈ layout.fields ++ layout.methods) :
    ∀ held ∈ item.attributes, held.thrown.length < 2 ^ 16 := by
  intro held member
  refine encodable.thrown held (List.mem_append_right _ ?_)
  exact List.mem_flatMap.mpr ⟨item, listed, member⟩

/-- A field or method comes to what it said. -/
theorem MemberSaid.resolve {item : MemberLayout} {member : Member}
    (said : layout.MemberSaid .lossy item member) (linked : layout.MemberLinked .lossy item)
    (counts : ∀ held ∈ item.attributes, held.thrown.length < 2 ^ 16) :
    item.resolve layout.constantPool = .ok member := by
  have attributes := resolve_attributes .none linked.attributes counts said.signature
    said.exceptions
  have name := text_eq_ok_iff.mpr said.name
  have descriptor := text_eq_ok_iff.mpr said.descriptor
  have access := said.access
  cases member
  cases access
  simp only [MemberLayout.resolve, Attributes.resolve, attributes, name, descriptor]
  simp [Attributes.none, bind, Except.bind, pure, Except.pure]

theorem MemberSaid.resolve_all {items : List MemberLayout} {members : List Member}
    (said : List.Forall₂ (layout.MemberSaid .lossy) items members)
    (linked : ∀ item ∈ items, layout.MemberLinked .lossy item)
    (counts : ∀ item ∈ items, ∀ held ∈ item.attributes, held.thrown.length < 2 ^ 16) :
    items.mapM (MemberLayout.resolve layout.constantPool) = .ok members := by
  refine Outcome.mapM_eq_ok_iff_forall₂.mpr ?_
  induction said with
  | nil => exact .nil
  | cons head _ tail =>
      rw [List.forall_mem_cons] at linked counts
      exact .cons (head.resolve linked.1 counts.1) (tail linked.2 counts.2)

/-- What a layout says of its class, its indices lead to. -/
theorem ClassSaid.describes {file : ClassFile} (said : layout.ClassSaid .lossy file)
    (linked : layout.Linked .lossy) (encodable : layout.Encodable) : layout.Describes file where
  name := by
    unfold ownName
    cases module : layout.access.isModule with
    | true => rw [if_pos rfl, said.module_name module]
    | false => rw [if_neg Bool.false_ne_true, className_eq_ok (said.name module)]
  access := said.access
  superclass := by
    unfold superclassName
    cases above : file.superclass with
    | none => rw [if_pos (said.no_superclass.mp above)]
    | some name =>
        have present : layout.superclass ≠ 0 := by
          intro absent
          rw [said.no_superclass.mpr absent] at above
          cases above
        rw [if_neg present, className_eq_ok (said.superclass name above)]
        rfl
  interfaces := classNames_eq_ok said.interfaces
  signature := by
    obtain ⟨names, declared⟩ := exists_exceptionsSaid linked.attributes
    refine ⟨_, resolve_attributes .none linked.attributes (fun item member => ?_) said.signature
      declared, ?_⟩
    · exact encodable.thrown item (List.mem_append_left _ member)
    · exact Option.or_none.symm
  fields := by
    refine MemberSaid.resolve_all said.fields linked.fields fun item listed => ?_
    exact encodable.thrown_of_member (List.mem_append_left _ listed)
  methods := by
    refine MemberSaid.resolve_all said.methods linked.methods fun item listed => ?_
    exact encodable.thrown_of_member (List.mem_append_right _ listed)
  poolClasses := by
    rw [ConstantPool.classNames, filterMap_classNameIndex?]
    exact texts_eq_ok said.poolClasses
  poolDescriptors := by
    rw [ConstantPool.descriptors, filterMap_descriptorIndex?]
    exact texts_eq_ok said.poolDescriptors

theorem MemberLinked.exists_said {item : MemberLayout}
    (linked : layout.MemberLinked spelling item) :
    ∃ member, layout.MemberSaid spelling item member := by
  obtain ⟨name, named⟩ := linked.name
  obtain ⟨descriptor, described⟩ := linked.descriptor
  obtain ⟨signature, signed⟩ := exists_signatureSaid linked.attributes
  obtain ⟨exceptions, declared⟩ := exists_exceptionsSaid linked.attributes
  exact ⟨⟨item.access, name, descriptor, signature, exceptions⟩,
    rfl, named, described, signed, declared⟩

/-- A module descriptor has a name of its own, and any other class that of its constant. -/
theorem Linked.exists_name (linked : layout.Linked spelling) :
    ∃ name, (layout.access.isModule = false → layout.ClassNamedAt spelling layout.thisClass name) ∧
      (layout.access.isModule = true → name = "module-info") := by
  cases module : layout.access.isModule with
  | true => exact ⟨"module-info", by simp⟩
  | false =>
      obtain ⟨name, named⟩ := exists_classNamedAt (linked.thisClass module)
      exact ⟨name, by simp [named]⟩

theorem Linked.exists_superclass (linked : layout.Linked spelling) :
    ∃ superclass : Option String,
      (∀ name, superclass = some name → layout.ClassNamedAt spelling layout.superclass name) ∧
        (superclass = none ↔ layout.superclass = 0) := by
  by_cases absent : layout.superclass = 0
  · exact ⟨none, by simp [absent]⟩
  · obtain ⟨name, named⟩ := exists_classNamedAt (linked.superclass absent)
    exact ⟨some name, by simp [absent, named]⟩

/-- A linked layout says something of a class. -/
theorem Linked.exists_classSaid (linked : layout.Linked spelling) :
    ∃ file, layout.ClassSaid spelling file := by
  obtain ⟨name, named, module_named⟩ := linked.exists_name
  obtain ⟨superclass, above, no_superclass⟩ := linked.exists_superclass
  obtain ⟨interfaces, implemented⟩ := Outcome.exists_forall₂ fun index listed =>
    exists_classNamedAt (linked.interfaces index listed)
  obtain ⟨signature, signed⟩ := exists_signatureSaid linked.attributes
  obtain ⟨fields, fielded⟩ := Outcome.exists_forall₂ fun item listed =>
    (linked.fields item listed).exists_said
  obtain ⟨methods, methoded⟩ := Outcome.exists_forall₂ fun item listed =>
    (linked.methods item listed).exists_said
  obtain ⟨classes, classed⟩ := Outcome.exists_forall₂ linked.classNames
  obtain ⟨descriptors, described⟩ := Outcome.exists_forall₂ linked.descriptors
  exact ⟨⟨name, layout.access, superclass, interfaces, signature, fields, methods, classes,
    descriptors⟩, rfl, named, module_named, above, no_superclass, implemented, signed, fielded,
    methoded, classed, described⟩

/-- What a linked layout says is read, whatever follows it. -/
theorem parse_encode_of_said {file : ClassFile} (said : layout.ClassSaid .lossy file)
    (linked : layout.Linked .lossy) (encodable : layout.Encodable) (rest : List UInt8) :
    parse (layout.encode ++ rest) = .ok file := by
  rw [parse_encode encodable.toFits, resolve_eq_ok_iff]
  exact said.describes linked encodable

end Whole

end Layout

end DependencyAudit.ClassFile
