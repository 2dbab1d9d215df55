/-
# DependencyAudit.Proofs.Outputs -- what a compiled output gathers

A compiled output has an answer exactly if its class files can be had and each of them can be
parsed (`at_eq_ok_iff`).  It defines the names of its classes (`mem_defined_iff`), and it
refers to what any of them refers to, apart from what it defines (`mem_used_iff`,
`mem_api_iff`).
-/
import DependencyAudit.Proofs.Outcome
import DependencyAudit.References.Compiled

namespace DependencyAudit.CompiledOutput

set_option autoImplicit false

/-- A class of the output at a path. -/
def Contains (files : FileSystem) (path : Path) (file : ClassFile) : Prop :=
  ∃ units source, unitsAt files path = .ok units ∧ source ∈ units ∧
    ClassFile.parse source.octets = .ok file

theorem at_eq_ok_iff {files : FileSystem} {path : Path} {output : CompiledOutput} :
    CompiledOutput.at files path = .ok output ↔
      ∃ units classes, unitsAt files path = .ok units ∧ units.mapM parseUnit = .ok classes ∧
        ofClasses classes = output := by
  have steps : CompiledOutput.at files path = .ok output ↔
      ∃ units, unitsAt files path = .ok units ∧ ofUnits units = .ok output :=
    Outcome.bind_eq_ok
  simp only [steps, ofUnits, Outcome.map_eq_ok, exists_and_left]

/-- What is gathered from some classes comes from one of them. -/
theorem mem_unions_map {classes : List ClassFile} {names : ClassFile → NameSet}
    {className : String} :
    className ∈ NameSet.unions (classes.map names) ↔ ∃ file ∈ classes, className ∈ names file := by
  simp only [NameSet.mem_unions, List.mem_map]
  constructor
  · rintro ⟨_, ⟨file, member, rfl⟩, named⟩
    exact ⟨file, member, named⟩
  · rintro ⟨file, member, named⟩
    exact ⟨_, ⟨file, member, rfl⟩, named⟩

theorem parseUnit_eq_ok {source : ClassUnit} {file : ClassFile} :
    parseUnit source = .ok file ↔ ClassFile.parse source.octets = .ok file :=
  Outcome.mapError_eq_ok

variable {files : FileSystem} {path : Path} {output : CompiledOutput}

/-- The classes of an output that has an answer are those of its class files. -/
theorem contains_iff {units : List ClassUnit} {classes : List ClassFile} {file : ClassFile}
    (listed : unitsAt files path = .ok units) (parsed : units.mapM parseUnit = .ok classes) :
    Contains files path file ↔ file ∈ classes := by
  rw [Outcome.mem_mapM parsed]
  constructor
  · rintro ⟨others, source, listed', member, parsed'⟩
    cases listed.symm.trans listed'
    exact ⟨source, member, parseUnit_eq_ok.mpr parsed'⟩
  · rintro ⟨source, member, parsed'⟩
    exact ⟨units, source, listed, member, parseUnit_eq_ok.mp parsed'⟩

/-- Every class file of an output that has an answer is parsed. -/
theorem exists_contains (compiled : CompiledOutput.at files path = .ok output)
    {units : List ClassUnit} (listed : unitsAt files path = .ok units) {source : ClassUnit}
    (member : source ∈ units) :
    ∃ file, ClassFile.parse source.octets = .ok file ∧ Contains files path file := by
  obtain ⟨others, classes, listed', parsed, rfl⟩ := at_eq_ok_iff.mp compiled
  cases listed.symm.trans listed'
  obtain ⟨file, _, answer⟩ := Outcome.exists_mem_of_mapM parsed member
  exact ⟨file, parseUnit_eq_ok.mp answer, units, source, listed, member, parseUnit_eq_ok.mp answer⟩

theorem mem_defined_iff (compiled : CompiledOutput.at files path = .ok output)
    {className : String} :
    className ∈ output.defined ↔ ∃ file, Contains files path file ∧ file.name = className := by
  obtain ⟨units, classes, listed, parsed, rfl⟩ := at_eq_ok_iff.mp compiled
  simp only [ofClasses, NameSet.mem_ofList, List.mem_map, contains_iff listed parsed]

theorem mem_used_iff (compiled : CompiledOutput.at files path = .ok output) {className : String} :
    className ∈ output.used ↔
      (∃ file, Contains files path file ∧ className ∈ file.referencedClasses) ∧
        className ∉ output.defined := by
  obtain ⟨units, classes, listed, parsed, rfl⟩ := at_eq_ok_iff.mp compiled
  simp only [ofClasses, NameSet.mem_diff, mem_unions_map, contains_iff listed parsed]

theorem mem_api_iff (compiled : CompiledOutput.at files path = .ok output) {className : String} :
    className ∈ output.api ↔
      (∃ file, Contains files path file ∧ className ∈ file.apiClasses) ∧
        className ∉ output.defined := by
  obtain ⟨units, classes, listed, parsed, rfl⟩ := at_eq_ok_iff.mp compiled
  simp only [ofClasses, NameSet.mem_diff, mem_unions_map, contains_iff listed parsed]

end DependencyAudit.CompiledOutput
