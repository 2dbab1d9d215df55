/-
# DependencyAudit.Proofs.Packaging -- an output is the union of its classes

The class files of an output lie in a directory, where a walk comes upon them, or in a jar,
where its records lead to them.  Either way each of them has a name below the output, and the
output `Holds` those whose name says that they are class files, in order (`unitsAt_of_holds`).

Only what they hold counts (`at_of_holds`).  If all of them are classes, the output defines
their names and refers to what any of them refers to, apart from what it defines, wherever in
the output that is; so another output that holds the same contents under the same names, in
another order or packed in another way, comes to the same.  If some are not, the first of them
is reported, and nothing else.
-/
import DependencyAudit.ClassFile.Builder
import DependencyAudit.Proofs.Outputs

namespace DependencyAudit

open Archive.Zip Text

set_option autoImplicit false

/-! ## Names of class files -/

namespace ClassName

theorem eq_append_of_before? {ending cs stem : List Char} (found : before? ending cs = some stem) :
    cs = stem ++ ending := by
  obtain ⟨reversed, after, rfl⟩ := Option.map_eq_some_iff.mp found
  rw [← List.reverse_inj, List.reverse_append, List.reverse_reverse]
  exact eq_append_of_after? after

/-- A name that a class is stored under ends as the ending of class files does. -/
theorem getLast?_of_class {entry : String} (stored : (ClassName.ofEntry? entry).isSome = true) :
    entry.toList.getLast? = some 's' := by
  obtain ⟨className, named⟩ := Option.isSome_iff_exists.mp stored
  obtain ⟨_, entered, _⟩ := Option.map_eq_some_iff.mp named
  obtain ⟨stem, before, _⟩ := Option.bind_eq_some_iff.mp entered
  -- What is left without slashes in front ends as the whole does.
  have ends := congrArg List.getLast? (eq_append_of_before? before)
  rw [List.getLast?_map, List.getLast?_append] at ends
  obtain ⟨last, found, same⟩ := Option.map_eq_some_iff.mp ends
  have letter : last = 's' := by
    by_contra other
    by_cases slash : last = '\\'
    · rw [if_pos slash] at same
      exact absurd same (by decide)
    · rw [if_neg slash] at same
      exact other same
  rw [← List.takeWhile_append_dropWhile (p := fun c => c = '/') (l := entry.toList),
    List.getLast?_append, found, letter]
  rfl

end ClassName

theorem isDirectory_of_class {record : Record}
    (stored : (ClassName.ofEntry? record.name).isSome = true) : record.isDirectory = false := by
  have last := ClassName.getLast?_of_class stored
  rw [Record.isDirectory, last]
  rfl

namespace CompiledOutput

/-! ## Class files of an output -/

/-- A class file of an output: its name below the output, the path that messages show, and
what is in it. -/
structure Held where
  name : String
  path : Path
  octets : List UInt8
deriving Repr, DecidableEq

namespace Held

def unit (held : Held) : ClassUnit :=
  ⟨held.path, held.octets⟩

/-- What a class file is wherever its output lies. -/
def content (held : Held) : Content :=
  ⟨held.name, held.octets⟩

end Held

/-- The class file that a walk came upon. -/
def WalkedAs (file : FileSystem.WalkedFile) (held : Held) : Prop :=
  held.name = file.name ∧ held.path = file.path ∧ file.octets? = some held.octets

/-- The class file that a record of the archive at a path leads to. -/
def PackedAs (path : Path) (archive : List UInt8) (record : Record) (held : Held) : Prop :=
  held.name = record.name ∧ held.path = path.join ⟨record.name⟩ ∧
    ∃ packed, record.locate? archive = some packed ∧ record.unpack? packed = some held.octets

/-- An output that can be read holds, in this order, these class files. -/
inductive Holds (files : FileSystem) (path : Path) : List Held → Prop where
  | directory (found : List FileSystem.WalkedFile) (held : List Held)
      (present : files.isDirectory path = true) (walked : files.walk path = found.map .ok)
      (read : List.Forall₂ WalkedAs
        (found.filter fun file => (ClassName.ofEntry? file.name).isSome) held) :
      Holds files path held
  | jar (archive : List UInt8) (records : List Record) (held : List Held)
      (present : files.read? path = some archive) (named : path.hasExtension "jar" = true)
      (listed : directory? archive = some records)
      (located : ∀ record ∈ records, (record.locate? archive).isSome = true)
      (read : List.Forall₂ (PackedAs path archive)
        (records.filter fun record => (ClassName.ofEntry? record.name).isSome) held) :
      Holds files path held

/-- Where some inputs are passed over, the others come to what they come to. -/
theorem filterMap_of_mapM {ε α β γ : Type} {step : α → Except ε (Option β)} {keeps : α → Bool}
    {relation : α → γ → Prop} {result : γ → β}
    (taken : ∀ input output, keeps input = true → relation input output →
      step input = .ok (some (result output))) :
    ∀ {inputs : List α} {outputs : List γ},
      (∀ input ∈ inputs, keeps input = false → step input = .ok none) →
      List.Forall₂ relation (inputs.filter keeps) outputs →
      (inputs.mapM step).map (List.filterMap id) = .ok (outputs.map result)
  | [], outputs, _, kept => by
      cases kept
      rfl
  | input :: rest, outputs, skipped, kept => by
      have tail := fun outputs => @filterMap_of_mapM ε α β γ step keeps relation result taken rest
        outputs fun other member => skipped other (List.mem_cons_of_mem input member)
      rw [List.mapM_cons]
      cases keep : keeps input with
      | false =>
          rw [List.filter_cons_of_neg (by simp [keep])] at kept
          obtain ⟨options, answered, same⟩ := Outcome.map_eq_ok.mp (tail outputs kept)
          rw [skipped input List.mem_cons_self keep, answered, ← same]
          rfl
      | true =>
          rw [List.filter_cons_of_pos keep] at kept
          obtain ⟨first, others, head, more, rfl⟩ := List.forall₂_cons_left_iff.mp kept
          obtain ⟨options, answered, same⟩ := Outcome.map_eq_ok.mp (tail others more)
          rw [taken input first keep head, answered, List.map_cons, ← same]
          rfl

section Reading

variable {files : FileSystem} {path : Path} {held : List Held}

theorem unitOfFinding_of_walkedAs {file : FileSystem.WalkedFile} {source : Held}
    (stored : (ClassName.ofEntry? file.name).isSome = true) (walked : WalkedAs file source) :
    unitOfFinding (.ok file) = .ok (some source.unit) := by
  obtain ⟨_, place, octets⟩ := walked
  have named : (ClassName.ofEntry? file.name).isNone = false := by simp [stored]
  rw [unitOfFinding, named, if_neg Bool.false_ne_true, octets, Held.unit, place]

theorem unitOfRecord_of_packedAs {archive : List UInt8} {record : Record} {source : Held}
    (stored : (ClassName.ofEntry? record.name).isSome = true)
    (packed : PackedAs path archive record source) :
    unitOfRecord path archive record = .ok (some source.unit) := by
  obtain ⟨_, place, octets, located, unpacked⟩ := packed
  have skipped : (record.isDirectory || (ClassName.ofEntry? record.name).isNone) = false := by
    simp [isDirectory_of_class stored, stored]
  simp only [unitOfRecord, located, skipped, Bool.false_eq_true, if_false, unpacked, Held.unit,
    place]

theorem unitsBelow_of_walkedAs {found : List FileSystem.WalkedFile}
    (walked : files.walk path = found.map .ok)
    (read : List.Forall₂ WalkedAs
      (found.filter fun file => (ClassName.ofEntry? file.name).isSome) held) :
    unitsBelow files path = .ok (held.map Held.unit) := by
  have skipped : ∀ file ∈ found, (ClassName.ofEntry? file.name).isSome = false →
      unitOfFinding (.ok file) = .ok none := by
    intro file _ other
    have nameless : (ClassName.ofEntry? file.name).isNone = true := by simpa using other
    simp [unitOfFinding, nameless]
  have taken : ∀ file source, (ClassName.ofEntry? file.name).isSome = true →
      WalkedAs file source → unitOfFinding (.ok file) = .ok (some source.unit) :=
    fun file source stored walked => unitOfFinding_of_walkedAs stored walked
  have kept := filterMap_of_mapM taken skipped read
  have below : unitsBelow files path =
      ((files.walk path).mapM unitOfFinding).map (List.filterMap id) := rfl
  rw [below, walked, List.mapM_map]
  exact kept

theorem unitsInArchive_of_packedAs {archive : List UInt8} {records : List Record}
    (listed : directory? archive = some records)
    (located : ∀ record ∈ records, (record.locate? archive).isSome = true)
    (read : List.Forall₂ (PackedAs path archive)
      (records.filter fun record => (ClassName.ofEntry? record.name).isSome) held) :
    unitsInArchive path archive = .ok (held.map Held.unit) := by
  have skipped : ∀ record ∈ records, (ClassName.ofEntry? record.name).isSome = false →
      unitOfRecord path archive record = .ok none := by
    intro record member other
    have nameless : (ClassName.ofEntry? record.name).isNone = true := by simpa using other
    obtain ⟨packed, place⟩ := Option.isSome_iff_exists.mp (located record member)
    simp [unitOfRecord, place, nameless]
  have taken : ∀ record source, (ClassName.ofEntry? record.name).isSome = true →
      PackedAs path archive record source →
      unitOfRecord path archive record = .ok (some source.unit) :=
    fun record source stored packed => unitOfRecord_of_packedAs stored packed
  have kept := filterMap_of_mapM taken skipped read
  rw [unitsInArchive, listed]
  exact kept

/-- The class files that are read are those that the output holds. -/
theorem unitsAt_of_holds (holds : Holds files path held) :
    unitsAt files path = .ok (held.map Held.unit) := by
  cases holds with
  | directory found held present walked read =>
      have exist : files.exists path = true := by
        rw [FileSystem.isDirectory, decide_eq_true_eq] at present
        rw [FileSystem.exists, present]
        rfl
      rw [unitsAt, exist, present]
      exact unitsBelow_of_walkedAs walked read
  | jar archive records held present named listed located read =>
      obtain ⟨content, file, same⟩ := Option.map_eq_some_iff.mp present
      have exist : files.exists path = true := FileSystem.fileAt?_exists file
      have plain : files.isDirectory path = false := by
        simp [FileSystem.isDirectory, FileSystem.found?_of_fileAt? file]
      rw [unitsAt, exist, plain, present, named]
      exact unitsInArchive_of_packedAs listed located read

end Reading

/-! ## What is gathered -/

/-- What an output of some classes says: it defines their names, and refers to what any of them
refers to but none of them defines. -/
structure Gathers (classes : List ClassFile) (output : CompiledOutput) : Prop where
  defined : ∀ name, name ∈ output.defined ↔ ∃ file ∈ classes, file.name = name
  used : ∀ name, name ∈ output.used ↔
    (∃ file ∈ classes, name ∈ file.referencedClasses) ∧ name ∉ output.defined
  api : ∀ name, name ∈ output.api ↔
    (∃ file ∈ classes, name ∈ file.apiClasses) ∧ name ∉ output.defined

theorem gathers_ofClasses (classes : List ClassFile) : Gathers classes (ofClasses classes) where
  defined name := by
    simp only [ofClasses, NameSet.mem_ofList, List.mem_map]
  used name := by
    simp only [ofClasses, NameSet.mem_diff, mem_unions_map]
  api name := by
    simp only [ofClasses, NameSet.mem_diff, mem_unions_map]

/-- The order of the classes and their number do not matter. -/
theorem Gathers.unique {classes others : List ClassFile} {output other : CompiledOutput}
    (gathers : Gathers classes output) (alike : Gathers others other)
    (same : ∀ file, file ∈ classes ↔ file ∈ others) : output = other := by
  have defined : output.defined = other.defined := by
    ext name
    simp only [gathers.defined, alike.defined, same]
  have used : output.used = other.used := by
    ext name
    simp only [gathers.used, alike.used, same, defined]
  have api : output.api = other.api := by
    ext name
    simp only [gathers.api, alike.api, same, defined]
  cases output
  cases other
  simp_all

section Whole

variable {files : FileSystem} {path : Path} {held : List Held}

/-- The classes that some class files hold, in order. -/
def Parsed (held : List Held) (classes : List ClassFile) : Prop :=
  List.Forall₂ (fun source file => ClassFile.parse source.octets = .ok file) held classes

theorem at_of_parsed (holds : Holds files path held) {classes : List ClassFile}
    (parsed : Parsed held classes) : CompiledOutput.at files path = .ok (ofClasses classes) := by
  refine at_eq_ok_iff.mpr ⟨held.map Held.unit, classes, unitsAt_of_holds holds, ?_, rfl⟩
  refine Outcome.mapM_eq_ok_iff_forall₂.mpr (List.forall₂_map_left_iff.mpr ?_)
  exact List.Forall₂.imp (fun source file found => parseUnit_eq_ok.mpr found) parsed

theorem Parsed.mem_iff {classes : List ClassFile} (parsed : Parsed held classes)
    (file : ClassFile) :
    file ∈ classes ↔ ∃ source ∈ held, ClassFile.parse source.octets = .ok file := by
  constructor
  · exact Outcome.exists_left_of_forall₂ parsed file
  · rintro ⟨source, among, answer⟩
    obtain ⟨other, member, answer'⟩ := Outcome.exists_right_of_forall₂ parsed source among
    rw [answer] at answer'
    cases answer'
    exact member

/-- Class files with the same contents hold the same classes. -/
theorem Parsed.exists_of_perm {others : List Held} {classes : List ClassFile}
    (parsed : Parsed held classes) (perm : (others.map Held.content).Perm (held.map Held.content)) :
    ∃ files, Parsed others files ∧ ∀ file, file ∈ classes ↔ file ∈ files := by
  have same : ∀ octets, (∃ source ∈ others, source.octets = octets) ↔
      ∃ source ∈ held, source.octets = octets := by
    intro octets
    have contents := (perm.map Content.octets).mem_iff (a := octets)
    simpa only [List.map_map, List.mem_map, Function.comp_apply, Held.content] using contents
  obtain ⟨files, found⟩ : ∃ files, Parsed others files := by
    refine Outcome.exists_forall₂ fun source member => ?_
    obtain ⟨other, among, equal⟩ := (same source.octets).mp ⟨source, member, rfl⟩
    obtain ⟨file, _, answer⟩ := Outcome.exists_right_of_forall₂ parsed other among
    exact ⟨file, by rwa [← equal]⟩
  refine ⟨files, found, fun file => ?_⟩
  rw [parsed.mem_iff, found.mem_iff]
  constructor
  · rintro ⟨source, among, answer⟩
    obtain ⟨other, listed, equal⟩ := (same source.octets).mpr ⟨source, among, rfl⟩
    exact ⟨other, listed, by rwa [equal]⟩
  · rintro ⟨source, among, answer⟩
    obtain ⟨other, listed, equal⟩ := (same source.octets).mp ⟨source, among, rfl⟩
    exact ⟨other, listed, by rwa [equal]⟩

/-- The first class file that holds no class is reported. -/
theorem at_of_broken {before after : List Held} {source : Held} {error : ClassFileError}
    (holds : Holds files path (before ++ source :: after))
    (parsed : ∀ other ∈ before, ∃ file, ClassFile.parse other.octets = .ok file)
    (broken : ClassFile.parse source.octets = .error error) :
    CompiledOutput.at files path = .error (.classFile source.path error) := by
  obtain ⟨classes, first⟩ := Outcome.exists_forall₂ parsed
  have read : (before.map Held.unit).mapM parseUnit = .ok classes := by
    refine Outcome.mapM_eq_ok_iff_forall₂.mpr (List.forall₂_map_left_iff.mpr ?_)
    exact first.imp fun source file found => parseUnit_eq_ok.mpr found
  have fails : parseUnit source.unit = .error (.classFile source.path error) := by
    rw [parseUnit, Held.unit, broken]
    rfl
  rw [CompiledOutput.at, unitsAt_of_holds holds]
  change ((List.map Held.unit (before ++ source :: after)).mapM parseUnit).map ofClasses = _
  rw [List.map_append, List.map_cons, List.mapM_append, read, List.mapM_cons, fails]
  rfl

/-- **An output is the union of its classes.**  If all class files of an output are classes, it
defines their names and refers to what any of them refers to, but to nothing that it defines,
and so does every other output that holds the same contents, in whatever order and packing.
Otherwise the first class file that is no class is reported. -/
theorem at_of_holds (holds : Holds files path held) :
    (∀ classes, Parsed held classes → ∃ output, CompiledOutput.at files path = .ok output ∧
      Gathers classes output ∧
      (∀ name ∈ output.defined, name ∉ output.used ∧ name ∉ output.api) ∧
      ∀ others otherFiles otherPath, Holds otherFiles otherPath others →
        (others.map Held.content).Perm (held.map Held.content) →
        CompiledOutput.at otherFiles otherPath = .ok output) ∧
    ∀ before source after error, held = before ++ source :: after →
      (∀ other ∈ before, ∃ file, ClassFile.parse other.octets = .ok file) →
      ClassFile.parse source.octets = .error error →
      CompiledOutput.at files path = .error (.classFile source.path error) := by
  refine ⟨fun classes parsed => ?_, ?_⟩
  · have gathers := gathers_ofClasses classes
    refine ⟨ofClasses classes, at_of_parsed holds parsed, gathers, ?_, ?_⟩
    · intro name own
      refine ⟨fun used => ?_, fun api => ?_⟩
      · exact ((gathers.used name).mp used).2 own
      · exact ((gathers.api name).mp api).2 own
    · intro others otherFiles otherPath held_there perm
      obtain ⟨files, found, same⟩ := parsed.exists_of_perm perm
      rw [at_of_parsed held_there found]
      exact congrArg Except.ok
        ((gathers_ofClasses files).unique gathers fun file => (same file).symm)
  · rintro before source after error rfl parsed broken
    exact at_of_broken holds parsed broken

end Whole

namespace Repacked

open ClassFile (Builder)

/-- A public class that refers to `B` and `C`. -/
def first : List UInt8 :=
  Builder.build { Builder.ofName "A" with superclass := none, classRefs := ["B", "C"] }

/-- A class that refers to `A`. -/
def second : List UInt8 :=
  Builder.build { Builder.ofName "B" with superclass := none, classRefs := ["A"] }

/-- The beginning of a class file. -/
def broken : List UInt8 :=
  [0xCA, 0xFE, 0xBA, 0xBE, 0x00]

/-- Both classes in another order, with something else between them. -/
def archive : List UInt8 :=
  write [⟨"B.class", second⟩, ⟨"x", []⟩, ⟨"A.class", first⟩]

def records : List Record := [
  ⟨"B.class", false, 8, 235615863, 43, 38, 0⟩, ⟨"x", false, 8, 0, 2, 0, 80⟩,
  ⟨"A.class", false, 8, 3137390005, 50, 45, 113⟩]

/-- A directory and a jar with both classes, and a directory with two files that are none. -/
def files : FileSystem where
  entries := [
    (["out"], .directory), (["out", "notes.txt"], .file ⟨[], 0⟩),
    (["out", "A.class"], .file ⟨first, 0⟩), (["out", "B.class"], .file ⟨second, 0⟩),
    (["app.jar"], .file ⟨archive, 0⟩),
    (["bad"], .directory), (["bad", "A.class"], .file ⟨first, 0⟩),
    (["bad", "B.class"], .file ⟨broken, 0⟩), (["bad", "C.class"], .file ⟨[], 0⟩)]
  workingDirectory := []
  clock := 0

def held : List Held :=
  [⟨"A.class", ⟨"out/A.class"⟩, first⟩, ⟨"B.class", ⟨"out/B.class"⟩, second⟩]

def packed : List Held :=
  [⟨"B.class", ⟨"app.jar/B.class"⟩, second⟩, ⟨"A.class", ⟨"app.jar/A.class"⟩, first⟩]

theorem holds_directory : Holds files ⟨"out"⟩ held :=
  .directory
    [⟨["A.class"], ⟨"out/A.class"⟩, some first⟩, ⟨["B.class"], ⟨"out/B.class"⟩, some second⟩,
      ⟨["notes.txt"], ⟨"out/notes.txt"⟩, some []⟩]
    held (by decide) (by decide)
    (.cons ⟨rfl, rfl, rfl⟩ (.cons ⟨rfl, rfl, rfl⟩ .nil))

theorem holds_jar : Holds files ⟨"app.jar"⟩ packed :=
  .jar archive records packed rfl (by decide) (by decide +kernel) (by decide)
    (.cons ⟨rfl, rfl, Option.bind_eq_some_iff.mp (by decide +kernel)⟩
      (.cons ⟨rfl, rfl, Option.bind_eq_some_iff.mp (by decide +kernel)⟩ .nil))

theorem holds_broken : Holds files ⟨"bad"⟩ [⟨"A.class", ⟨"bad/A.class"⟩, first⟩,
    ⟨"B.class", ⟨"bad/B.class"⟩, broken⟩, ⟨"C.class", ⟨"bad/C.class"⟩, []⟩] :=
  .directory
    [⟨["A.class"], ⟨"bad/A.class"⟩, some first⟩, ⟨["B.class"], ⟨"bad/B.class"⟩, some broken⟩,
      ⟨["C.class"], ⟨"bad/C.class"⟩, some []⟩]
    _ (by decide) (by decide)
    (.cons ⟨rfl, rfl, rfl⟩ (.cons ⟨rfl, rfl, rfl⟩ (.cons ⟨rfl, rfl, rfl⟩ .nil)))

theorem parsed : ∀ octets ∈ [first, second], ∃ file, ClassFile.parse octets = .ok file := by
  intro octets member
  have some_file : ∀ octets ∈ [first, second],
      (ClassFile.parse octets).toOption.isSome = true := by decide
  obtain ⟨file, found⟩ := Option.isSome_iff_exists.mp (some_file octets member)
  exact ⟨file, Outcome.toOption_eq_some.mp found⟩

theorem exists_classes : ∃ classes, Parsed held classes := by
  refine Outcome.exists_forall₂ fun source member => parsed source.octets ?_
  exact List.mem_map_of_mem (f := Held.octets) member

end Repacked

/-- The directory and the jar come to the same, and of two files that are no classes the first
is reported. -/
theorem at_of_holds_of_repacked :
    (∃ output, CompiledOutput.at Repacked.files ⟨"out"⟩ = .ok output ∧
      CompiledOutput.at Repacked.files ⟨"app.jar"⟩ = .ok output ∧
      "A" ∈ output.defined ∧ "C" ∈ output.used ∧ "B" ∉ output.used) ∧
    CompiledOutput.at Repacked.files ⟨"bad"⟩ =
      .error (.classFile ⟨"bad/B.class"⟩ .unexpectedEnd) := by
  refine ⟨?_, ?_⟩
  · obtain ⟨classes, found⟩ := Repacked.exists_classes
    obtain ⟨output, answer, _, _, same⟩ := (at_of_holds Repacked.holds_directory).1 classes found
    have repacked := same Repacked.packed Repacked.files ⟨"app.jar"⟩ Repacked.holds_jar
      (List.Perm.swap _ _ _)
    have members : (CompiledOutput.at Repacked.files ⟨"out"⟩).toOption.any (fun output =>
        "A" ∈ output.defined ∧ "C" ∈ output.used ∧ "B" ∉ output.used) = true := by
      decide
    rw [answer] at members
    exact ⟨output, answer, repacked, by simpa [Except.toOption] using members⟩
  · refine (at_of_holds Repacked.holds_broken).2 [_] _ [_] _ rfl ?_ (by decide)
    intro other member
    exact Repacked.parsed other.octets (by rw [List.mem_singleton.mp member]; exact .head _)

end CompiledOutput

end DependencyAudit
