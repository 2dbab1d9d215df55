/-
# DependencyAudit.Proofs.DependencyKeys -- the normal text of a dependency is its key

Whatever compares dependencies compares their normal texts.  Two spellings have one normal text
exactly if they spell one dependency (`SameDependency`, `normalize_is_key`): modules that differ
in their version at most, or projects of one name.

A module is never taken for a project, even if it looks like one: the text before the first
colon of a normal text is `project ` for a project, and for no module, since that beginning
would have made it a project when it was read (`isProject_dependencyName`).

Conversely every spelling in use comes to the normal text: the six of a project with a bare name
(`ofString?_form`), and those of a module with white space around its fields
(`ofString?_moduleSpelling`).  Of the groups only `project` has to be left out there: with a
blank behind it, it is no group (`Unworded.append_blank`).
-/
import Mathlib.Data.List.Basic
import DependencyAudit.Proofs.Identities

namespace DependencyAudit

open Text

set_option autoImplicit false

namespace ArtifactId

/-! ## One name for one dependency -/

/-- Identities of one dependency: the version of a module does not count. -/
inductive SameDependency : ArtifactId → ArtifactId → Prop where
  | module (group name : String) (version other : Option String) :
      SameDependency (.module group name version) (.module group name other)
  | project (name : String) : SameDependency (.project name) (.project name)

theorem toList_dependencyName_module (group name : String) (version : Option String) :
    (ArtifactId.module group name version).dependencyName.toList =
      group.toList ++ ':' :: name.toList := by
  simp [dependencyName]

theorem toList_dependencyName_project (name : String) :
    (ArtifactId.project name).dependencyName.toList = "project ".toList ++ ':' :: name.toList := by
  simp [dependencyName]

/-- A module does not begin as the name of a project does: its group is not `project `. -/
theorem module_text_ne_project_text {group name : List Char} (groupPart : Part group)
    (namePart : Part name) (unworded : Unworded group) (rest : List Char) :
    group ++ ':' :: name ≠ "project ".toList ++ ':' :: rest := by
  intro same
  have worded : group = "project ".toList :=
    ((List.append_cons_inj_of_notMem groupPart.uncut namePart.uncut).mp same).1
  rw [worded] at unworded
  exact absurd unworded.word (by decide)

/-- Identities have one name exactly if they are of one dependency. -/
theorem dependencyName_eq_iff {first second : ArtifactId} (regular : Regular first)
    (regular' : Regular second) :
    first.dependencyName = second.dependencyName ↔ SameDependency first second := by
  constructor
  · intro same
    have texts := congrArg String.toList same
    cases regular with
    | module groupPart namePart _ unworded =>
        cases regular' with
        | module _ _ _ _ =>
            rw [toList_dependencyName_module, toList_dependencyName_module,
              List.append_cons_inj_of_notMem groupPart.uncut namePart.uncut] at texts
            obtain ⟨groups, _, names⟩ := texts
            rw [String.toList_inj.mp groups, String.toList_inj.mp names]
            exact .module _ _ _ _
        | project _ =>
            rw [toList_dependencyName_module, toList_dependencyName_project] at texts
            exact absurd texts (module_text_ne_project_text groupPart namePart unworded _)
    | project _ =>
        cases regular' with
        | module groupPart namePart _ unworded =>
            rw [toList_dependencyName_module, toList_dependencyName_project] at texts
            exact absurd texts.symm (module_text_ne_project_text groupPart namePart unworded _)
        | project _ =>
            rw [toList_dependencyName_project, toList_dependencyName_project,
              List.append_cancel_left_eq, List.cons.injEq] at texts
            rw [String.toList_inj.mp texts.2]
            exact .project _
  · intro same
    cases same with
    | module group name version other => rfl
    | project name => rfl

/-! ## The spellings of a project -/

/-- A name without any character that some spelling of a project has a use for. -/
structure Bare (name : String) : Prop where
  filled : name.toList ≠ []
  solid : ∀ c ∈ name.toList, isBlank c = false
  uncut : ':' ∉ name.toList
  unquoted : ∀ c ∈ name.toList, isQuote c = false
  unwrapped : '(' ∉ name.toList ∧ ')' ∉ name.toList

/-- What stands before and behind the name in the spellings of a project in use. -/
def projectForms : List (String × String) :=
  [("", ""), (":", ""), ("project :", ""), ("project ", ""), ("project(':", "')"),
    ("project(\":", "\")")]

namespace Bare

variable {name : String}

theorem ofProjectName_eq (bare : Bare name) : ofProjectName name.toList = .project name := by
  rw [ofProjectName_of_head? fun rooted => bare.uncut (List.mem_of_mem_head? rooted),
    String.ofList_toList]

theorem ofProjectName_rooted (bare : Bare name) :
    ofProjectName (':' :: name.toList) = .project name := by
  rw [ofProjectName_cons_colon, bare.ofProjectName_eq]

theorem unworded (bare : Bare name) : Unworded name.toList where
  call := after?_eq_none_of_notMem (c := '(') (by decide) bare.unwrapped.1
  word := by
    apply after?_eq_none_of_notMem (c := ' ') (by decide)
    intro member
    exact absurd (bare.solid _ member) (by decide)

/-- The name is found between quotes and parentheses. -/
theorem callArgument_eq (bare : Bare name) {quote : Char} (quotes : isQuote quote = true) :
    callArgument (quote :: ':' :: name.toList ++ [quote, ')']) = ':' :: name.toList := by
  have opened : dropBack (· = ')') (quote :: ':' :: name.toList ++ [quote, ')']) =
      [quote] ++ (':' :: name.toList ++ [quote]) := by
    have shape : quote :: ':' :: name.toList ++ [quote, ')'] =
        (quote :: ':' :: name.toList ++ [quote]) ++ [')'] := by simp
    have keeps : decide (quote = ')') = false := by
      apply decide_eq_false
      rintro rfl
      cases quotes
    rw [shape, dropBack_append_of_all (by simp), dropBack_concat keeps]
    rfl
  have unquoted : ∀ c ∈ ':' :: name.toList, isQuote c = false :=
    List.forall_mem_cons.mpr ⟨by decide, bare.unquoted⟩
  rw [callArgument, opened, trimBy_append_of_all (by simpa using quotes),
    trimBy_of_append_all (by simpa using quotes), trimBy_of_none unquoted]

/-- No form has white space at its ends. -/
theorem trimBlank_form (bare : Bare name) {form : String × String} (member : form ∈ projectForms) :
    trimBlank (form.1 ++ name ++ form.2).toList = (form.1 ++ name ++ form.2).toList := by
  have first_of_front : ∀ form ∈ projectForms, ∀ c ∈ form.1.toList.head?, isBlank c = false := by
    simp [projectForms]
    decide
  have last_of_back : ∀ form ∈ projectForms, ∀ c ∈ form.2.toList.getLast?, isBlank c = false := by
    simp [projectForms]
    decide
  rw [String.toList_append, String.toList_append]
  apply trimBlank_eq_self
  · intro first found
    rw [List.append_assoc, List.head?_append, Option.or_eq_some_iff] at found
    rcases found with found | ⟨_, found⟩
    · exact first_of_front form member first found
    · rw [List.head?_append_of_ne_nil _ bare.filled] at found
      exact bare.solid first (List.mem_of_mem_head? found)
  · intro last found
    rw [List.getLast?_append, Option.or_eq_some_iff] at found
    rcases found with found | ⟨_, found⟩
    · exact last_of_back form member last found
    · rw [List.getLast?_append_of_ne_nil _ bare.filled] at found
      exact bare.solid last (List.mem_of_getLast? found)

/-- Every form of a bare name spells its project. -/
theorem spelling_form (bare : Bare name) {form : String × String} (member : form ∈ projectForms) :
    Spelling (form.1 ++ name ++ form.2).toList (.project name) := by
  have rooted : trimBlank (':' :: name.toList) = ':' :: name.toList :=
    trimBy_of_none (List.forall_mem_cons.mpr ⟨by decide, bare.solid⟩)
  have alone : trimBlank name.toList = name.toList := trimBy_of_none bare.solid
  simp only [projectForms, List.mem_cons, List.not_mem_nil, or_false] at member
  rcases member with rfl | rfl | rfl | rfl | rfl | rfl
  · have spelled := Spelling.bare bare.unworded bare.filled bare.uncut
    rw [bare.ofProjectName_eq] at spelled
    simpa using spelled
  · have spelled := Spelling.rooted name.toList
    rw [bare.ofProjectName_rooted] at spelled
    simpa using spelled
  · have spelled := Spelling.word (':' :: name.toList)
    rw [rooted, bare.ofProjectName_rooted] at spelled
    simpa using spelled
  · have spelled := Spelling.word name.toList
    rw [alone, bare.ofProjectName_eq] at spelled
    simpa using spelled
  · have spelled := Spelling.call ('\x27' :: ':' :: name.toList ++ ['\x27', ')'])
    rw [bare.callArgument_eq (by decide), bare.ofProjectName_rooted] at spelled
    simpa using spelled
  · have spelled := Spelling.call ('"' :: ':' :: name.toList ++ ['"', ')'])
    rw [bare.callArgument_eq (by decide), bare.ofProjectName_rooted] at spelled
    simpa using spelled

/-- Every form of a bare name is read as its project, with any white space around it. -/
theorem ofString?_form (bare : Bare name) {form : String × String} (member : form ∈ projectForms)
    {text : String} (padded : Padded (form.1 ++ name ++ form.2).toList text.toList) :
    ofString? text = .ok (.project name) := by
  rw [ofString?_eq_ok_iff, padded.trimBlank_eq, bare.trimBlank_form member]
  exact bare.spelling_form member

end Bare

/-! ## The spellings of a module -/

/-- The spellings of a module: group, name and perhaps a version, with colons between them and
white space around each. -/
inductive ModuleSpelling (group name : String) : String → Prop where
  | plain {groupText nameText : List Char} (paddedGroup : Padded group.toList groupText)
      (paddedName : Padded name.toList nameText) :
      ModuleSpelling group name (String.ofList (moduleText groupText nameText none))
  | versioned {groupText nameText versionText : List Char} {version : String}
      (versionPart : Part version.toList) (paddedGroup : Padded group.toList groupText)
      (paddedName : Padded name.toList nameText)
      (paddedVersion : Padded version.toList versionText) :
      ModuleSpelling group name (String.ofList (moduleText groupText nameText (some versionText)))

/-- A word that a part begins with only together with the white space behind it is that part. -/
theorem eq_dropBack_of_after? {start cs back rest : List Char} (part : Part cs)
    (blank : ∀ c ∈ back, isBlank c = true) (other : after? start cs = none)
    (found : after? start (cs ++ back) = some rest) : cs = dropBack isBlank start := by
  rcases List.append_eq_append_iff.mp (eq_append_of_after? found) with
    ⟨gap, shape, behind⟩ | ⟨gap, shape, _⟩
  · have blankGap : ∀ c ∈ gap, isBlank c = true := by
      intro c member
      apply blank
      rw [behind]
      exact List.mem_append_left rest member
    rw [shape, dropBack_append_of_all blankGap, dropBack_eq_self part.ends]
  · rw [shape, after?_append] at other
    cases other

/-- White space behind a group makes a project of it only if the group is `project`. -/
theorem Unworded.append_blank {group back : List Char} (unworded : Unworded group)
    (groupPart : Part group) (other : group ≠ "project".toList)
    (blank : ∀ c ∈ back, isBlank c = true) : Unworded (group ++ back) where
  call := by
    rw [Option.eq_none_iff_forall_ne_some]
    intro rest found
    have called : group = "project(".toList :=
      (eq_dropBack_of_after? groupPart blank unworded.call found).trans (by decide)
    rw [called] at unworded
    exact absurd unworded.call (by decide)
  word := by
    rw [Option.eq_none_iff_forall_ne_some]
    intro rest found
    have worded := eq_dropBack_of_after? groupPart blank unworded.word found
    exact other (worded.trans (by decide))

/-- Every spelling of a module is read as the module. -/
theorem ofString?_moduleSpelling {group name text : String} (groupPart : Part group.toList)
    (namePart : Part name.toList) (unworded : Unworded group.toList) (other : group ≠ "project")
    (spelling : ModuleSpelling group name text) :
    ∃ version, ofString? text = .ok (.module group name version) := by
  have unlike : group.toList ≠ "project".toList := fun same => other (String.toList_inj.mp same)
  -- The blanks in front of the group are those in front of the text.
  have read : ∀ {groupText nameText : List Char} {version versionText : Option (List Char)},
      Padded group.toList groupText → Padded name.toList nameText →
      (∀ text ∈ version, Part text) → Option.Rel Padded version versionText →
      ofString? (String.ofList (moduleText groupText nameText versionText)) =
        .ok (.module group name (version.map String.ofList)) := by
    rintro _ nameText version versionText ⟨front, back, blankFront, blankBack, rfl⟩ paddedName
      versionPart paddedVersion
    have plain := ofString?_moduleText groupPart namePart versionPart blankFront blankBack
      (unworded.append_blank groupPart unlike blankBack) paddedName paddedVersion
    rw [String.ofList_toList, String.ofList_toList] at plain
    rwa [moduleText, List.append_assoc front, List.append_assoc front]
  cases spelling with
  | plain paddedGroup paddedName =>
      refine ⟨none, read paddedGroup paddedName ?_ .none⟩
      rintro text ⟨⟩
  | @versioned _ _ _ version versionPart paddedGroup paddedName paddedVersion =>
      refine ⟨_, read paddedGroup paddedName ?_ (.some paddedVersion)⟩
      rintro text ⟨⟩
      exact versionPart

end ArtifactId

namespace Dependency

open ArtifactId

/-- The name of an identity tells whether it is a project. -/
theorem isProject_dependencyName {id : ArtifactId} (regular : Regular id) :
    isProject id.dependencyName = true ↔ ∃ name, id = .project name := by
  cases regular with
  | @project name _ =>
      have begins : after? "project :".toList (ArtifactId.project name).dependencyName.toList =
          some name.toList := by
        rw [dependencyName, String.toList_append, after?_append]
      rw [isProject, begins]
      simp
  | @module group name version groupPart namePart _ unworded =>
      have noWord : after? "project :".toList (group.toList ++ ':' :: name.toList) = none := by
        cases found : after? "project :".toList (group.toList ++ ':' :: name.toList) with
        | none => rfl
        | some rest =>
            exact absurd (eq_append_of_after? found)
              (module_text_ne_project_text groupPart namePart unworded rest)
      have noCall : after? "project(".toList (group.toList ++ ':' :: name.toList) = none :=
        after?_append_cons_eq_none (by decide) unworded.call _
      rw [isProject, toList_dependencyName_module, noWord, noCall]
      simp

/-- **The normal text of a dependency is its key.**  Texts that spell identities have one normal
text exactly if they spell one dependency, and it tells whether that is a project.  Every form of
a bare name, with any white space around it, comes to the normal text of its project; and every
spelling of a module, with white space around its fields, to `group:name`. -/
theorem normalize_is_key :
    (∀ (text other : String) (id otherId : ArtifactId), ofString? text = .ok id →
      ofString? other = .ok otherId →
        (normalize text = normalize other ↔ SameDependency id otherId)) ∧
    (∀ (text : String) (id : ArtifactId), ofString? text = .ok id →
      (isProject (normalize text) = true ↔ ∃ name, id = .project name)) ∧
    (∀ name : String, Bare name → ∀ form ∈ projectForms, ∀ text : String,
      Padded (form.1 ++ name ++ form.2).toList text.toList →
        normalize text = "project :" ++ name) ∧
    (∀ group name : String, Part group.toList → Part name.toList → Unworded group.toList →
      group ≠ "project" → ∀ text : String, ModuleSpelling group name text →
        normalize text = group ++ ":" ++ name) := by
  refine ⟨?_, ?_, ?_, ?_⟩
  · intro text other id otherId read otherRead
    rw [normalize_of_ok read, normalize_of_ok otherRead]
    exact dependencyName_eq_iff (regular_of_ofString? read) (regular_of_ofString? otherRead)
  · intro text id read
    rw [normalize_of_ok read]
    exact isProject_dependencyName (regular_of_ofString? read)
  · intro name bare form member text padded
    rw [normalize_of_ok (bare.ofString?_form member padded), dependencyName]
  · intro group name groupPart namePart unworded other text spelling
    obtain ⟨version, read⟩ :=
      ofString?_moduleSpelling groupPart namePart unworded other spelling
    rw [normalize_of_ok read, dependencyName]

/-! ### A module that looks like a project -/

namespace Lookalike

theorem read_module : ofString? "project:core" = .ok (.module "project" "core" none) :=
  Outcome.toOption_eq_some.mp (by decide +kernel)

theorem read_project : ofString? "\tproject(':core') " = .ok (.project "core") :=
  Outcome.toOption_eq_some.mp (by decide +kernel)

theorem bare : Bare "core" where
  filled := by simp
  solid := by simp; decide
  uncut := by simp
  unquoted := by simp; decide
  unwrapped := by simp

theorem padded : Padded "project(':core')".toList "\tproject(':core') ".toList :=
  ⟨['\t'], [' '], by simp; decide, by simp; decide, by simp⟩

theorem part_projects : Part "projects".toList :=
  ⟨by simp, by simp; decide, by simp⟩

theorem part_core : Part "core".toList :=
  ⟨by simp, by simp; decide, by simp⟩

theorem part_release : Part "1".toList :=
  ⟨by simp, by simp; decide, by simp⟩

theorem spelling : ModuleSpelling "projects" "core" "projects :core: 1" :=
  have behind : Padded "projects".toList "projects ".toList :=
    ⟨[], [' '], by simp, by simp; decide, by simp⟩
  .versioned part_release behind (.refl _) ⟨[' '], [], by simp; decide, by simp, rfl⟩

end Lookalike

theorem normalize_is_key_of_lookalike :
    normalize "project:core" ≠ normalize "\tproject(':core') " ∧
      isProject (normalize "project:core") = false ∧
      normalize "\tproject(':core') " = "project :core" ∧
      normalize "projects :core: 1" = "projects:core" := by
  obtain ⟨key, kind, ofForm, ofModule⟩ := normalize_is_key
  refine ⟨?_, ?_, ?_, ?_⟩
  · intro same
    have one := (key _ _ _ _ Lookalike.read_module Lookalike.read_project).mp same
    cases one
  · rw [Bool.eq_false_iff]
    intro project
    obtain ⟨_, claimed⟩ := (kind _ _ Lookalike.read_module).mp project
    cases claimed
  · exact ofForm "core" Lookalike.bare ("project(':", "')") (by decide +kernel) _ Lookalike.padded
  · exact ofModule "projects" "core" Lookalike.part_projects Lookalike.part_core
      ⟨by decide +kernel, by decide +kernel⟩ (by decide) _ Lookalike.spelling

end Dependency

end DependencyAudit
