/-
# DependencyAudit.Proofs.Coverage -- from a class file to the report

A reference takes a long way: from the octets of a class file through the constants, the
scanners and the removal of what the output defines itself to a class that the code uses,
and from there over the entries of the class path, the index and the removal of the project
to a required dependency.  Both halves of the way name a class of a plain name alike, so no
reference to it is lost on the way (`required_of_mention`).

What a class file mentions is said of the file as its format spells it, and what an artifact
stores of its entries, so the statement does not depend on how either of them is read.  A name
that is not plain is lost: a class file spells a supplementary character as two surrogates, and
the name is garbled when it is read, while the entry of the class has the character itself
(`not_covered_of_supplementary`).
-/
import DependencyAudit.Proofs.Entries
import DependencyAudit.Proofs.Mentions
import DependencyAudit.Proofs.Outputs

namespace DependencyAudit

open ClassFile ClassName TypeText
open Text.ModifiedUtf8 (Plain)

set_option autoImplicit false

namespace CompiledOutput

/-- The class file of an ordinary class of the output at a path mentions a class. -/
def Mentions (files : FileSystem) (path : Path) (internal : String) : Prop :=
  ∃ units source layout rest, unitsAt files path = .ok units ∧ source ∈ units ∧
    layout.Fits ∧ source.octets = Layout.encode layout ++ rest ∧
    layout.access.isModule = false ∧ layout.Mentions internal

/-- What an output mentions it refers to, unless it defines it itself. -/
theorem mem_used_of_mention {files : FileSystem} {path : Path} {output : CompiledOutput}
    (compiled : CompiledOutput.at files path = .ok output) {internal : String}
    (plain : Plain internal) (single : internal.toList.head? ≠ some '[')
    (mentions : Mentions files path internal)
    (foreign : ∀ file, Contains files path file → file.name ≠ ofInternal internal) :
    ofInternal internal ∈ output.used := by
  obtain ⟨units, source, layout, rest, listed, member, fits, written, ordinary, mentions⟩ :=
    mentions
  obtain ⟨file, parsed, contains⟩ := exists_contains compiled listed member
  rw [written] at parsed
  have refers : ofInternal internal ∈ file.referencedClasses :=
    mem_referencedClasses_of_mentions fits parsed ordinary plain single mentions
      (foreign file contains)
  have undefined : ofInternal internal ∉ output.defined := by
    rw [mem_defined_iff compiled]
    rintro ⟨other, contains, same⟩
    exact foreign other contains same
  exact (mem_used_iff compiled).mpr ⟨⟨file, contains, refers⟩, undefined⟩

end CompiledOutput

namespace Classification

/-- A stored class has an owner on an indexed class path, and the owner's identity has a
dependency. -/
theorem owned_of_stores {files : FileSystem} {artifacts : List ResolvedArtifact}
    {index : ClassIndex} (populated : Indexing.populate files artifacts = .ok index)
    {internal : String} (storable : Storable internal)
    (stored : ∃ artifact ∈ artifacts, Stores files internal artifact) :
    ∃ owner stand, LastMember (Holds files (ofInternal internal)) artifacts owner ∧
      LastMember (StandsFor files owner.id) artifacts stand := by
  obtain ⟨artifact, member, stores⟩ := stored
  obtain ⟨owner, last⟩ :=
    exists_lastMember_iff.mpr ⟨artifact, member, stores.holds populated member storable⟩
  obtain ⟨stand, standing⟩ :=
    exists_lastMember_iff.mpr ⟨owner, last.mem, Holds.standsFor last.holds⟩
  exact ⟨owner, stand, last, standing⟩

/-- **No reference is lost.**  A plain name that the class file of an ordinary class mentions, and
that no class of the output has, the output refers to; and if an artifact of the class path stores
it, the dependency of the last artifact that holds it is required, unless this is the project
itself. -/
theorem required_of_mention {settings : Settings} {files : FileSystem} {manifest : Manifest}
    {path : Path} {output : CompiledOutput} {sets : DependencySets}
    (compiled : CompiledOutput.at files path = .ok output)
    (classified : classify settings files manifest output.references = .ok sets)
    {internal : String} (plain : Plain internal) (storable : Storable internal)
    (single : internal.toList.head? ≠ some '[')
    (mentions : CompiledOutput.Mentions files path internal)
    (foreign : ∀ file, CompiledOutput.Contains files path file →
      file.name ≠ ofInternal internal) :
    ofInternal internal ∈ output.used ∧
      ∃ found, manifest.configuration? settings.classpathConfiguration = some found ∧
        ((∃ artifact ∈ found.artifacts, Stores files internal artifact) →
          ∃ owner stand, LastMember (Holds files (ofInternal internal)) found.artifacts owner ∧
            LastMember (StandsFor files owner.id) found.artifacts stand ∧
            (manifest.isSelf owner.id = false →
              manifest.ownDependency? ≠ some stand.dependencyName →
                stand.dependencyName ∈ sets.required)) := by
  have used := CompiledOutput.mem_used_of_mention compiled plain single mentions foreign
  obtain ⟨_, index, _, _, path, populated, _, _, rfl⟩ := classify_eq_ok_iff.mp classified
  obtain ⟨_, found, present, rfl⟩ := classPath_eq_ok_iff.mp path
  refine ⟨used, found, present, fun stored => ?_⟩
  obtain ⟨owner, stand, last, standing⟩ := owned_of_stores populated storable stored
  refine ⟨owner, stand, last, standing, fun other distinct => ?_⟩
  simp only [withoutSelf_eq, findings, Manifest.mem_othersOf,
    mem_dependenciesFor_populate populated]
  exact ⟨⟨_, used, owner, stand, last, other, standing, rfl⟩, distinct⟩

namespace Nested

/-- The class `p.A`, whose superclass has an inner class `q.B.C` for its argument.  A long
takes two indices in front of the signature. -/
def layout : Layout where
  minorVersion := 0
  majorVersion := 52
  pool := [
    .utf8 (Text.ModifiedUtf8.encodeString "p/A"), .classRef 1,
    .utf8 (Text.ModifiedUtf8.encodeString "p/S"), .classRef 3, .long 7,
    .utf8 (Text.ModifiedUtf8.encodeString "Signature"),
    .utf8 (Text.ModifiedUtf8.encodeString "Lp/S<Lq/B.C;>;")]
  access := ⟨0x0021⟩
  thisClass := 2
  superclass := 4
  interfaces := []
  fields := []
  methods := []
  attributes := [⟨7, .signature 8⟩]

/-- The output of the project, and a library that holds the inner class. -/
def files : FileSystem where
  entries := [
    (["out"], .directory), (["out", "p"], .directory),
    (["out", "p", "A.class"], .file ⟨layout.encode, 0⟩),
    (["lib"], .directory), (["lib", "q"], .directory),
    (["lib", "q", "B$C.class"], .file ⟨[], 0⟩)]
  workingDirectory := []
  clock := 0

def library : ResolvedArtifact := ⟨.module "g" "lib" (some "1"), ⟨"lib"⟩, none⟩

def classPath : Configuration :=
  ⟨"compileClasspath", ["implementation"], [], [library, ⟨.project "app", ⟨"out"⟩, none⟩]⟩

def manifest : Manifest where
  project := ":app"
  configurations := [⟨"implementation", [], [], []⟩, classPath]

def output : CompiledOutput := ⟨.ofList ["p.S", "q.B$C"], .ofList ["p.S", "q.B$C"], .ofList ["p.A"]⟩

def sets : DependencySets := ⟨.ofList ["g:lib"], .ofList ["g:lib"], .ofList ["g:lib"], .empty⟩

theorem compiled : CompiledOutput.at files ⟨"out"⟩ = .ok output :=
  Outcome.toOption_eq_some.mp (by decide)

theorem classified : classify Settings.default files manifest output.references = .ok sets := by
  have declared : manifest.declared Settings.default.configurations = .ok .empty := by cbv
  refine Outcome.toOption_eq_some.mp ?_
  simp only [classify, judge, declared]
  decide

/-- The type that the signature spells. -/
def superclass : GenericType :=
  .ofClass [] (.outermost [⟨['p'], by decide, by simp⟩] ⟨['S'], by decide, by simp⟩
    [.bounded .exactly (.ofClass (.inner
      (.outermost [⟨['q'], by decide, by simp⟩] ⟨['B'], by decide, by simp⟩ [])
      ⟨['C'], by decide, by simp⟩ []))]) []

theorem fits : layout.Fits where
  slots := by decide
  texts := by decide
  interfaces := by decide
  fields := by decide
  methods := by decide
  members := by decide
  attributes := by decide

theorem mentions : CompiledOutput.Mentions files ⟨"out"⟩ "q/B$C" := by
  refine ⟨[⟨⟨"out/p/A.class"⟩, layout.encode⟩], _, layout, [],
    Outcome.toOption_eq_some.mp (by decide), List.mem_cons_self, fits,
    (List.append_nil _).symm, rfl, ?_⟩
  refine .signature 8 (.own 8 ⟨⟨7, .signature 8⟩, ⟨[], [], rfl, ?_, ?_⟩, rfl⟩) superclass ?_ ?_
  · exact ⟨_, rfl, rfl⟩
  · exact fun _ absent => absurd absent List.not_mem_nil
  · exact ⟨_, rfl, by decide⟩
  · decide

theorem storable : Storable "q/B$C" where
  nonempty := by decide
  relative := by decide
  slashed := by decide
  not_metaInf := by decide
  not_module := by decide
  not_moduleIn := by decide
  not_package := by decide

theorem foreign : ∀ file, CompiledOutput.Contains files ⟨"out"⟩ file →
    file.name ≠ ofInternal "q/B$C" := by
  intro file contains same
  exact absurd ((CompiledOutput.mem_defined_iff compiled).mpr ⟨file, contains, same⟩)
    (by decide)

theorem stores : Stores files "q/B$C" library := by
  have walked : some ⟨["q", "B$C.class"], ⟨"lib/q/B$C.class"⟩, some []⟩ ∈
      (files.walk library.file).map Except.toOption := by decide
  obtain ⟨_, met, same⟩ := List.mem_map.mp walked
  cases Outcome.toOption_eq_some.mp same
  exact .file (by decide) _ met rfl

end Nested

/-- The inner class is used, and the library that stores it is required. -/
theorem required_of_mention_of_nested :
    "q.B$C" ∈ Nested.output.used ∧
      ∃ owner stand, LastMember (Holds Nested.files "q.B$C") Nested.classPath.artifacts owner ∧
        LastMember (StandsFor Nested.files owner.id) Nested.classPath.artifacts stand ∧
        (Nested.manifest.isSelf owner.id = false →
          Nested.manifest.ownDependency? ≠ some stand.dependencyName →
            stand.dependencyName ∈ Nested.sets.required) := by
  obtain ⟨used, found, present, covered⟩ := required_of_mention Nested.compiled Nested.classified
    (by decide) Nested.storable (by decide) Nested.mentions Nested.foreign
  have same : Nested.manifest.configuration? "compileClasspath" = some Nested.classPath := by
    decide
  cases present.symm.trans same
  exact ⟨used, covered ⟨Nested.library, List.mem_cons_self, Nested.stores⟩⟩

namespace Beyond

/-- The class `p.A`, whose superclass has a name with a supplementary character. -/
def layout : Layout where
  minorVersion := 0
  majorVersion := 52
  pool := [
    .utf8 (Text.ModifiedUtf8.encodeString "p/A"), .classRef 1,
    .utf8 (Text.ModifiedUtf8.encodeString "q/𝒳"), .classRef 3]
  access := ⟨0x0021⟩
  thisClass := 2
  superclass := 4
  interfaces := []
  fields := []
  methods := []
  attributes := []

/-- The output of the project, and a library that holds the superclass. -/
def files : FileSystem where
  entries := [
    (["out"], .directory), (["out", "p"], .directory),
    (["out", "p", "A.class"], .file ⟨layout.encode, 0⟩),
    (["lib"], .directory), (["lib", "q"], .directory),
    (["lib", "q", "𝒳.class"], .file ⟨[], 0⟩)]
  workingDirectory := []
  clock := 0

def garbledName : String :=
  "q.\uFFFD\uFFFD\uFFFD\uFFFD\uFFFD\uFFFD"

def output : CompiledOutput := ⟨.ofList [garbledName], .ofList [garbledName], .ofList ["p.A"]⟩

def sets : DependencySets := ⟨.empty, .empty, .empty, .empty⟩

theorem compiled : CompiledOutput.at files ⟨"out"⟩ = .ok output :=
  Outcome.toOption_eq_some.mp (by decide)

theorem classified :
    classify Settings.default files Nested.manifest output.references = .ok sets := by
  have declared : Nested.manifest.declared Settings.default.configurations = .ok .empty := by cbv
  refine Outcome.toOption_eq_some.mp ?_
  simp only [classify, judge, declared]
  decide

theorem fits : layout.Fits where
  slots := by decide
  texts := by decide
  interfaces := by decide
  fields := by decide
  methods := by decide
  members := by decide
  attributes := by decide

theorem mentions : CompiledOutput.Mentions files ⟨"out"⟩ "q/𝒳" :=
  ⟨[⟨⟨"out/p/A.class"⟩, layout.encode⟩], _, layout, [],
    Outcome.toOption_eq_some.mp (by decide), List.mem_cons_self, fits,
    (List.append_nil _).symm, rfl, .superclass ⟨3, rfl, ⟨_, rfl, rfl⟩⟩⟩

theorem storable : Storable "q/𝒳" where
  nonempty := by decide
  relative := by decide
  slashed := by decide
  not_metaInf := by decide
  not_module := by decide
  not_moduleIn := by decide
  not_package := by decide

theorem foreign : ∀ file, CompiledOutput.Contains files ⟨"out"⟩ file →
    file.name ≠ ofInternal "q/𝒳" := by
  intro file contains same
  exact absurd ((CompiledOutput.mem_defined_iff compiled).mpr ⟨file, contains, same⟩)
    (by decide)

theorem stores : Stores files "q/𝒳" Nested.library := by
  have walked : some ⟨["q", "𝒳.class"], ⟨"lib/q/𝒳.class"⟩, some []⟩ ∈
      (files.walk Nested.library.file).map Except.toOption := by decide
  obtain ⟨_, met, same⟩ := List.mem_map.mp walked
  cases Outcome.toOption_eq_some.mp same
  exact .file (by decide) _ met rfl

end Beyond

/-- A name that is not plain is lost: all else is as it should be, and yet the superclass is not
used, and the library that stores it is not required. -/
theorem not_covered_of_supplementary :
    (CompiledOutput.at Beyond.files ⟨"out"⟩ = .ok Beyond.output ∧
      classify Settings.default Beyond.files Nested.manifest Beyond.output.references =
        .ok Beyond.sets) ∧
      (Storable "q/𝒳" ∧ "q/𝒳".toList.head? ≠ some '[') ∧
      (CompiledOutput.Mentions Beyond.files ⟨"out"⟩ "q/𝒳" ∧
        ∀ file, CompiledOutput.Contains Beyond.files ⟨"out"⟩ file →
          file.name ≠ ofInternal "q/𝒳") ∧
      (Nested.manifest.configuration? "compileClasspath" = some Nested.classPath ∧
        Nested.library ∈ Nested.classPath.artifacts ∧
        Stores Beyond.files "q/𝒳" Nested.library) ∧
      ofInternal "q/𝒳" ∉ Beyond.output.used ∧
      Nested.library.dependencyName ∉ Beyond.sets.required := by
  exact ⟨⟨Beyond.compiled, Beyond.classified⟩, ⟨Beyond.storable, by decide⟩,
    ⟨Beyond.mentions, Beyond.foreign⟩, ⟨by decide, List.mem_cons_self, Beyond.stores⟩,
    by decide, by decide⟩

end Classification

end DependencyAudit
