/-
# DependencyAudit.Proofs.Surface -- the surface of a class is part of what it refers to

What users of a class see of it is gathered in another way than all that it refers to:
supertypes and exceptions are resolved one by one while the class file is read, and the
references take the class constants of the pool as a whole.  Both come to the same
(`surface_subset_references`), since whatever is resolved is a class constant
(`fromPool_of_parse`); the types of members and signatures are scanned by one scanner in both.
Only the constant of an array is taken apart on one side and not on the other
(`FromPool.kept_or_mentioned`).

That the resolved names are class constants is carried through the readers: every value that a
reader gives has a property (`Gives`), and readers in sequence pass it on (`Gives.bind`).
-/
import DependencyAudit.Proofs.Outputs
import DependencyAudit.Proofs.Truncation

namespace DependencyAudit

open TypeText

set_option autoImplicit false

namespace ClassFile

/-! ## What readers give -/

namespace Reader

variable {α β : Type}

/-- Every value that a reader gives has a property. -/
def Gives (reader : Reader α) (property : α → Prop) : Prop :=
  ∀ octets value rest, reader octets = .ok (value, rest) → property value

theorem Gives.bind {first : Reader α} {next : α → Reader β} {property : α → Prop}
    {other : β → Prop} (gives : Gives first property)
    (continues : ∀ value, property value → Gives (next value) other) :
    Gives (first >>= next) other := by
  intro octets value rest answered
  rw [bind_apply] at answered
  obtain ⟨⟨middle, behind⟩, read, continued⟩ := Outcome.bind_eq_ok.mp answered
  exact continues middle (gives octets middle behind read) behind value rest continued

/-- What a reader gives need not matter for what is given in the end. -/
theorem Gives.after (first : Reader α) {next : α → Reader β} {other : β → Prop}
    (continues : ∀ value, Gives (next value) other) : Gives (first >>= next) other := by
  have anything : Gives first fun _ => True := fun _ _ _ _ => trivial
  exact anything.bind fun value _ => continues value

theorem gives_pure {value : α} {property : α → Prop} (holds : property value) :
    Gives (pure value) property := by
  intro octets other rest answered
  cases answered
  exact holds

theorem gives_ofExcept (outcome : Except ClassFileError α) :
    Gives (ofExcept outcome) fun value => outcome = .ok value := by
  intro octets value rest answered
  cases outcome with
  | error error => cases answered
  | ok known =>
      cases answered
      rfl

theorem gives_times {reader : Reader α} {property : α → Prop} (gives : Gives reader property) :
    ∀ count, Gives (times reader count) fun values => ∀ value ∈ values, property value
  | 0 => gives_pure (by simp)
  | count + 1 =>
      gives.bind fun _ first => (gives_times gives count).bind fun _ others =>
        gives_pure (List.forall_mem_cons.mpr ⟨first, others⟩)

theorem gives_counted {reader : Reader α} {property : α → Prop} (gives : Gives reader property) :
    Gives (counted reader) fun values => ∀ value ∈ values, property value :=
  .after word16 fun count => gives_times gives count.toNat

theorem Gives.within {reader : Reader α} {property : α → Prop} (gives : Gives reader property)
    (octets : List UInt8) : Gives (within octets reader) property := by
  intro others value rest answered
  obtain ⟨⟨inner, behind⟩, read, same⟩ := Outcome.map_eq_ok.mp answered
  cases same
  exact gives octets inner behind read

end Reader

open Reader

/-! ## Names that are resolved -/

/-- The name of a class constant of a pool. -/
def Resolved (pool : ConstantPool) (name : String) : Prop :=
  ∃ index, pool.className index = .ok name

theorem gives_className (pool : ConstantPool) (index : UInt16) :
    Gives (Reader.ofExcept (pool.className index)) (Resolved pool) :=
  fun octets value rest answered => ⟨index, gives_ofExcept _ octets value rest answered⟩

theorem gives_readInterface (pool : ConstantPool) : Gives (readInterface pool) (Resolved pool) :=
  .after word16 (gives_className pool)

theorem gives_add (pool : ConstantPool) {sofar : Attributes}
    (known : ∀ name ∈ sofar.exceptions, Resolved pool name) (name : String) (body : List UInt8) :
    Gives (sofar.add pool name body) fun attributes =>
      ∀ name ∈ attributes.exceptions, Resolved pool name := by
  unfold Attributes.add
  split
  · exact .within (.after _ fun _ => .after _ fun _ => gives_pure known) body
  · split
    · have declared : Gives (counted (do
          let index ← word16
          Reader.ofExcept (pool.className index))) fun names =>
            ∀ name ∈ names, Resolved pool name :=
        gives_counted (.after word16 (gives_className pool))
      refine .within (declared.bind fun more others => gives_pure ?_) body
      intro name member
      rcases List.mem_append.mp member with old | new
      · exact known name old
      · exact others name new
    · exact gives_pure known

theorem gives_readFrom (pool : ConstantPool) :
    ∀ (count : Nat) {sofar : Attributes}, (∀ name ∈ sofar.exceptions, Resolved pool name) →
      Gives (Attributes.readFrom pool count sofar) fun attributes =>
        ∀ name ∈ attributes.exceptions, Resolved pool name
  | 0, _, known => gives_pure known
  | count + 1, _, known =>
      .after word16 fun _ => .after word32 fun _ => .after _ fun _ => .after _ fun name =>
        (gives_add pool known name _).bind fun _ more => gives_readFrom pool count more

theorem gives_readMember (pool : ConstantPool) :
    Gives (readMember pool) fun member => ∀ name ∈ member.exceptions, Resolved pool name := by
  have none : ∀ name ∈ Attributes.none.exceptions, Resolved pool name := by
    simp [Attributes.none]
  have attributes : Gives (Attributes.read pool) fun attributes =>
      ∀ name ∈ attributes.exceptions, Resolved pool name :=
    .after word16 fun count => gives_readFrom pool count.toNat none
  exact .after _ fun _ => .after _ fun _ => .after _ fun _ => attributes.bind fun _ known =>
    .after _ fun _ => .after _ fun _ => gives_pure known

/-! ## The whole class file -/

/-- The name of a class constant that was kept. -/
def Kept (file : ClassFile) (name : String) : Prop :=
  ∃ internal ∈ file.poolClasses, name = ClassName.ofInternal internal

/-- All names that a class resolves are those of its class constants. -/
structure FromPool (file : ClassFile) : Prop where
  superclass : ∀ name ∈ file.superclass, Kept file name
  interfaces : ∀ name ∈ file.interfaces, Kept file name
  exceptions : ∀ member ∈ file.members, ∀ name ∈ member.exceptions, Kept file name

theorem exists_internal_of_resolved {pool : ConstantPool} {names : List String}
    (listed : pool.classNames = .ok names) {name : String} (resolved : Resolved pool name) :
    ∃ internal ∈ names, name = ClassName.ofInternal internal := by
  obtain ⟨index, answered⟩ := resolved
  obtain ⟨internal, found, rfl⟩ := Outcome.map_eq_ok.mp answered
  obtain ⟨nameIndex, constant, text⟩ := ConstantPool.internalName_eq_ok_iff.mp found
  refine ⟨internal, (Outcome.mem_mapM listed).mpr ⟨nameIndex, ?_, text⟩, rfl⟩
  have member : Constant.classRef nameIndex ∈ pool.constants.toList :=
    Array.mem_toList_iff.mpr (Array.mem_of_getElem? constant)
  exact List.mem_filterMap.mpr ⟨_, member, rfl⟩

theorem resolved_of_superclassName {pool : ConstantPool} {index : UInt16}
    {superclass : Option String} (answered : superclassName pool index = .ok superclass) :
    ∀ name ∈ superclass, Resolved pool name := by
  unfold superclassName at answered
  split at answered
  · cases answered
    simp
  · obtain ⟨name, found, rfl⟩ := Outcome.map_eq_ok.mp answered
    rintro _ ⟨⟩
    exact ⟨index, found⟩

theorem gives_read : Gives read FromPool := by
  refine .after _ fun _ => .after _ fun _ => .after _ fun _ => .after _ fun pool => ?_
  refine .after _ fun _ => .after _ fun _ => .after _ fun _ => ?_
  refine (gives_counted (gives_readInterface pool)).bind fun interfaces ofInterfaces => ?_
  refine (gives_counted (gives_readMember pool)).bind fun fields ofFields => ?_
  refine (gives_counted (gives_readMember pool)).bind fun methods ofMethods => ?_
  refine .after _ fun _ => .after _ fun _ => ?_
  refine (gives_ofExcept _).bind fun superclass found => ?_
  refine (gives_ofExcept _).bind fun poolClasses listed => .after _ fun _ => gives_pure ?_
  have kept := @exists_internal_of_resolved pool poolClasses listed
  refine ⟨fun name named => kept (resolved_of_superclassName found name named),
    fun name named => kept (ofInterfaces name named), fun member among name named => ?_⟩
  rcases List.mem_append.mp among with field | method
  · exact kept (ofFields member field name named)
  · exact kept (ofMethods member method name named)

theorem fromPool_of_parse {octets : List UInt8} {file : ClassFile}
    (parsed : parse octets = .ok file) : FromPool file := by
  obtain ⟨⟨_, rest⟩, answered, rfl⟩ := Outcome.map_eq_ok.mp parsed
  exact gives_read octets _ rest answered

/-! ## Names without slashes -/

/-- A name as classes are known by, its parts separated by dots. -/
def Dotted (name : String) : Prop :=
  '/' ∉ name.toList

theorem dotted_of_descriptor {descriptor name : String}
    (named : name ∈ Descriptor.classTypes descriptor) : Dotted name := by
  have scanned : ∀ (cs : List Char) (place : Descriptor.Place),
      ∀ name ∈ (Descriptor.scan place cs).2, Dotted name := by
    intro cs
    induction cs with
    | nil => simp [Descriptor.scan]
    | cons c rest tail =>
        intro place name member
        rcases List.mem_append.mp member with here | there
        · cases place with
          | outside => simp [Descriptor.step] at here
          | inside reversed =>
              by_cases closes : c = ';'
              · simp only [Descriptor.step, if_pos closes, Option.toList_some,
                  List.mem_singleton] at here
                rw [here, Dotted, String.toList_ofList]
                exact ClassName.not_mem_slash_dotted _
              · simp [Descriptor.step, if_neg closes] at here
        · exact tail _ name there
  exact scanned _ _ name named

/-- A character makes at most a name without slashes. -/
def Flat (move : Signature.Move) : Prop :=
  ∀ name next, move = .names name next → Dotted name

section Moves

open Signature

variable (state : Signature.State) (c : Char)

theorem flat_move (next : Signature.State) : Flat (.move next) := by
  rintro _ _ ⟨⟩

theorem flat_refuse : Flat .refuse := by
  rintro _ _ ⟨⟩

theorem flat_reference : Flat (state.reference c) := by
  unfold State.reference
  split_ifs <;> first | exact flat_move _ | exact flat_refuse

theorem flat_type : Flat (state.type c) := by
  unfold State.type
  split_ifs
  · exact flat_move _
  · exact flat_reference state c

theorem flat_parameter : Flat (state.parameter c) := by
  unfold State.parameter
  split_ifs <;> exact flat_move _

/-- The one place where a name is completed. -/
theorem flat_afterName (reversed : List Char) : Flat (state.afterName reversed c) := by
  unfold State.afterName
  split_ifs
  · exact flat_move _
  · exact flat_move _
  · rintro _ _ ⟨⟩
    rw [Dotted, String.toList_ofList]
    exact ClassName.not_mem_slash_dotted _
  · exact flat_refuse

theorem flat_item : Flat (state.item c) := by
  unfold State.item
  split
  · split_ifs <;> first | exact flat_move _ | exact flat_reference state c
  · exact flat_parameter state c
  · split_ifs
    · exact flat_move _
    · exact flat_type state c

theorem flat_step : Flat (state.step c) := by
  unfold State.step
  split
  · exact flat_item state c
  · split_ifs <;> exact flat_move _
  · split_ifs
    · exact flat_reference state c
    · exact flat_parameter state c
  · exact flat_reference state c
  · exact flat_type state c
  · split_ifs <;> exact flat_move _
  · split_ifs
    · exact flat_afterName state c _
    · exact flat_move _
  · exact flat_afterName state c _

end Moves

theorem dotted_of_signature {signature name : String}
    (named : name ∈ Signature.classTypes signature) : Dotted name := by
  have scanned : ∀ (cs : List Char) (state : Signature.State),
      ∀ name ∈ (Signature.run state cs).named, Dotted name := by
    intro cs
    induction cs with
    | nil => simp [Signature.run]
    | cons c rest tail =>
        intro state name member
        rw [Signature.run] at member
        cases taken : state.step c with
        | move next =>
            rw [taken] at member
            exact tail next name member
        | names className next =>
            rw [taken] at member
            rcases List.mem_cons.mp member with rfl | there
            · exact flat_step state c name next taken
            · exact tail next name there
        | refuse =>
            rw [taken] at member
            cases member
  unfold Signature.classTypes Signature.scan at named
  split at named <;> exact scanned _ _ name named

theorem dotted_of_signatureTypes {signature : Option String} {name : String}
    (named : name ∈ signatureTypes signature) : Dotted name := by
  cases signature with
  | none => cases named
  | some text => exact dotted_of_signature named

theorem dotted_of_memberTypes {member : Member} {name : String}
    (named : name ∈ memberTypes member) : Dotted name := by
  rcases List.mem_append.mp named with erased | generic
  · exact dotted_of_descriptor erased
  · exact dotted_of_signatureTypes generic

theorem dotted_of_constantTypes {internal name : String}
    (named : name ∈ constantTypes internal) : Dotted name := by
  unfold constantTypes at named
  split at named
  · exact dotted_of_descriptor named
  · rw [List.mem_singleton.mp named]
    exact ClassName.not_mem_slash_ofInternal internal

/-- The names that a class file mentions hold no slash. -/
theorem dotted_of_mentionedTypes {file : ClassFile} {name : String}
    (named : name ∈ file.mentionedTypes) : Dotted name := by
  simp only [mentionedTypes, List.mem_append, List.mem_flatMap] at named
  rcases named with ((⟨_, _, constant⟩ | ⟨_, _, descriptor⟩) | ⟨_, _, member⟩) | signature
  · exact dotted_of_constantTypes constant
  · exact dotted_of_descriptor descriptor
  · exact dotted_of_memberTypes member
  · exact dotted_of_signatureTypes signature

theorem Kept.dotted {file : ClassFile} {name : String} (kept : Kept file name) : Dotted name := by
  obtain ⟨internal, _, rfl⟩ := kept
  exact ClassName.not_mem_slash_ofInternal internal

/-! ## The surface -/

/-- The two ways that a name gets into the surface of a class: it is resolved, or it stands in
a descriptor or a signature. -/
theorem FromPool.kept_or_mentioned {file : ClassFile} (fromPool : FromPool file) {name : String}
    (named : name ∈ file.surfaceTypes) : Kept file name ∨ name ∈ file.mentionedTypes := by
  simp only [surfaceTypes, List.mem_append, List.mem_flatMap, List.mem_filter,
    Option.mem_toList] at named
  simp only [mentionedTypes, List.mem_append, List.mem_flatMap]
  rcases named with ((superclass | interface) | signature) | ⟨member, ⟨among, _⟩, typed | thrown⟩
  · exact .inl (fromPool.superclass name superclass)
  · exact .inl (fromPool.interfaces name interface)
  · exact .inr (.inr signature)
  · exact .inr (.inl (.inr ⟨member, among, typed⟩))
  · exact .inl (fromPool.exceptions member among name thrown)

/-- A name with a bracket in front has it from the name that is stored. -/
theorem head?_of_ofInternal {internal : String}
    (single : (ClassName.ofInternal internal).toList.head? ≠ some '[') :
    internal.toList.head? ≠ some '[' := by
  intro bracket
  apply single
  rw [ClassName.ofInternal, String.toList_ofList, ClassName.dotted, List.head?_map, bracket]
  rfl

theorem Kept.mem_mentionedTypes {file : ClassFile} {name : String} (kept : Kept file name)
    (single : name.toList.head? ≠ some '[') : name ∈ file.mentionedTypes := by
  obtain ⟨internal, listed, rfl⟩ := kept
  have counted : constantTypes internal = [ClassName.ofInternal internal] :=
    constantTypes_ofInternal (head?_of_ofInternal single)
  simp only [mentionedTypes, List.mem_append, List.mem_flatMap]
  exact .inl (.inl (.inl ⟨internal, listed, counted ▸ List.mem_cons_self⟩))

section Sets

variable {file : ClassFile} {name : String}

theorem mem_referencedClasses_iff :
    name ∈ file.referencedClasses ↔
      file.isModule = false ∧ name ∈ file.mentionedTypes ∧ name ≠ file.name := by
  unfold referencedClasses
  cases file.isModule <;> simp

theorem mem_apiClasses_iff :
    name ∈ file.apiClasses ↔
      file.isModule = false ∧ file.isPublic = true ∧ name ∈ file.surfaceTypes ∧
        name ≠ file.name := by
  unfold apiClasses
  cases file.isModule <;> cases file.isPublic <;> simp

/-- Both sets leave out the same class, and both are empty for the same descriptors of
modules, so that what is mentioned on both sides is in both. -/
theorem FromPool.mem_referencedClasses (fromPool : FromPool file) (seen : name ∈ file.apiClasses)
    (single : name.toList.head? ≠ some '[') : name ∈ file.referencedClasses := by
  obtain ⟨ordinary, _, surface, other⟩ := mem_apiClasses_iff.mp seen
  refine mem_referencedClasses_iff.mpr ⟨ordinary, ?_, other⟩
  rcases fromPool.kept_or_mentioned surface with kept | mentioned
  · exact kept.mem_mentionedTypes single
  · exact mentioned

theorem FromPool.dotted (fromPool : FromPool file)
    (listed : name ∈ file.apiClasses ∨ name ∈ file.referencedClasses) : Dotted name := by
  rcases listed with seen | used
  · obtain ⟨_, _, surface, _⟩ := mem_apiClasses_iff.mp seen
    rcases fromPool.kept_or_mentioned surface with kept | mentioned
    · exact kept.dotted
    · exact dotted_of_mentionedTypes mentioned
  · exact dotted_of_mentionedTypes (mem_referencedClasses_iff.mp used).2.1

end Sets

end ClassFile

/-! ## The surface of an output -/

namespace CompiledOutput

/-- An output takes away from both sides what it defines. -/
theorem mem_used_of_api {files : FileSystem} {path : Path} {output : CompiledOutput}
    (compiled : CompiledOutput.at files path = .ok output) {name : String}
    (seen : name ∈ output.api) (single : name.toList.head? ≠ some '[') : name ∈ output.used := by
  obtain ⟨⟨file, contained, surface⟩, foreign⟩ := (mem_api_iff compiled).mp seen
  have ⟨_, source, _, _, parsed⟩ := contained
  have referenced : name ∈ file.referencedClasses :=
    (ClassFile.fromPool_of_parse parsed).mem_referencedClasses surface single
  exact (mem_used_iff compiled).mpr ⟨⟨file, contained, referenced⟩, foreign⟩

/-- An output whose class files can be had and are class files has an answer. -/
theorem exists_at {files : FileSystem} {path : Path} {units : List ClassUnit}
    (listed : unitsAt files path = .ok units)
    (every : ∀ source ∈ units, ∃ file, ClassFile.parse source.octets = .ok file) :
    ∃ output, CompiledOutput.at files path = .ok output := by
  have answered : ∀ source ∈ units, ∃ file, parseUnit source = .ok file := by
    intro source member
    obtain ⟨file, parsed⟩ := every source member
    exact ⟨file, parseUnit_eq_ok.mpr parsed⟩
  obtain ⟨classes, parsed⟩ := Outcome.exists_mapM_eq_ok.mpr answered
  exact ⟨ofClasses classes, at_eq_ok_iff.mpr ⟨units, classes, listed, parsed, rfl⟩⟩

end CompiledOutput

/-- **What users see of a class is part of what it refers to.**  Whatever octets are a class
file: every class in its surface that is not the constant of an array is among the classes it
refers to; the class itself is in neither, nor is a name with a slash; and the descriptor of a
module has neither.  The same holds of what an output gathers from its classes, which is had if
all of them are class files. -/
theorem surface_subset_references :
    (∀ octets file, ClassFile.parse octets = .ok file →
      (∀ name ∈ file.apiClasses, name.toList.head? ≠ some '[' → name ∈ file.referencedClasses) ∧
      (∀ name, name ∈ file.apiClasses ∨ name ∈ file.referencedClasses →
        name ≠ file.name ∧ '/' ∉ name.toList) ∧
      (file.isModule = true → file.apiClasses = .empty ∧ file.referencedClasses = .empty)) ∧
    (∀ files path units, CompiledOutput.unitsAt files path = .ok units →
      (∀ source ∈ units, ∃ file, ClassFile.parse source.octets = .ok file) →
      ∃ output, CompiledOutput.at files path = .ok output ∧
        ∀ name ∈ output.api, name.toList.head? ≠ some '[' → name ∈ output.used) := by
  refine ⟨fun octets file parsed => ?_, fun files path units listed every => ?_⟩
  · have fromPool := ClassFile.fromPool_of_parse parsed
    refine ⟨fun name seen single => fromPool.mem_referencedClasses seen single,
      fun name listed => ⟨?_, fromPool.dotted listed⟩, fun module => ?_⟩
    · rintro rfl
      rcases listed with seen | used
      · exact file.name_notMem_apiClasses seen
      · exact file.name_notMem_referencedClasses used
    · exact ⟨ClassFile.apiClasses_of_module module, ClassFile.referencedClasses_of_module module⟩
  · obtain ⟨output, compiled⟩ := CompiledOutput.exists_at listed every
    exact ⟨output, compiled, fun name seen single =>
      CompiledOutput.mem_used_of_api compiled seen single⟩

namespace ArrayAbove

open ClassFile (Builder)

/-- A class whose superclass is the constant of an array, whose signature breaks off, and which
throws itself. -/
def octets : List UInt8 :=
  Builder.build { Builder.ofName "p/A" with
    superclass := some "[Lp/S;"
    signature := some "Lp/G;?"
    methods := [⟨⟨0x0001⟩, "m", "()V", none, ["p/X", "p/A"]⟩] }

def files : FileSystem where
  entries := [(["A.class"], .file ⟨octets, 0⟩)]
  workingDirectory := []
  clock := 0

def units : List ClassUnit :=
  [⟨⟨"A.class"⟩, octets⟩]

/-- Only the array is in the surface and not among the references. -/
theorem sets : (ClassFile.parse octets).toOption.map (fun file =>
    (file.apiClasses.toList, file.referencedClasses.toList)) =
      some (["[Lp.S;", "p.G", "p.X"], ["p.G", "p.S", "p.X"]) := by
  decide +kernel

end ArrayAbove

/-- Such a class is one of its kind, alone and as an output. -/
theorem surface_subset_references_of_array :
    (∃ file, ClassFile.parse ArrayAbove.octets = .ok file ∧
      file.apiClasses.toList = ["[Lp.S;", "p.G", "p.X"] ∧
      file.referencedClasses.toList = ["p.G", "p.S", "p.X"] ∧ "p.X" ∈ file.referencedClasses) ∧
    (∃ output, CompiledOutput.at ArrayAbove.files ⟨"A.class"⟩ = .ok output ∧
      ("p.G" ∈ output.api → "p.G" ∈ output.used)) := by
  obtain ⟨ofClass, ofOutput⟩ := surface_subset_references
  obtain ⟨file, found, sets⟩ := Option.map_eq_some_iff.mp ArrayAbove.sets
  have parsed : ClassFile.parse ArrayAbove.octets = .ok file := Outcome.toOption_eq_some.mp found
  obtain ⟨seen, used⟩ := Prod.mk.inj sets
  refine ⟨⟨file, parsed, seen, used, ?_⟩, ?_⟩
  · have surface : "p.X" ∈ file.apiClasses := by
      rw [← NameSet.mem_toList, seen]
      decide
    exact (ofClass ArrayAbove.octets file parsed).1 "p.X" surface (by decide)
  · obtain ⟨output, compiled, within⟩ := ofOutput ArrayAbove.files ⟨"A.class"⟩ ArrayAbove.units
      (Outcome.toOption_eq_some.mp (by decide +kernel))
      (fun source member => by
        rw [List.mem_singleton.mp member]
        exact ⟨file, parsed⟩)
    exact ⟨output, compiled, fun surface => within "p.G" surface (by decide)⟩

end DependencyAudit
