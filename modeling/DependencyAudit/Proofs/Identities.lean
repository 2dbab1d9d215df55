/-
# DependencyAudit.Proofs.Identities -- identities survive being written

An identity has five forms of spelling, and which of them a text has is decided from its
beginning and its colons (`Spelling`).  What is read from any of them is `Regular`
(`regular_of_ofString?`): a module has filled and trimmed parts without colons, its group begins
like no project does, and the name of a project does not begin with a colon.

A regular identity is read back from what is written for it (`ofString?_display`), except that
white space at the end of a project's name is lost: it stands at the end of the text.  Only
`project(...)` can give such a name, for there alone something stands behind the name
(`exists_call`).

So a text is normal once it has been normalised, but for these projects, which need it twice
(`survives_writing`).
-/
import Mathlib.Data.List.Basic
import DependencyAudit.Artifact.Resolved
import DependencyAudit.Proofs.Decoders
import DependencyAudit.Proofs.JsonText

namespace DependencyAudit

open Text

set_option autoImplicit false

namespace ArtifactId

/-! ## Forms of spelling -/

/-- A text does not begin as a project spelled with the word `project` does. -/
structure Unworded (cs : List Char) : Prop where
  call : after? "project(".toList cs = none
  word : after? "project ".toList cs = none

theorem Unworded.of_append {cs ds : List Char} (unworded : Unworded (cs ++ ds)) : Unworded cs := by
  have none_before : ∀ start : List Char, after? start (cs ++ ds) = none →
      after? start cs = none := by
    intro start other
    cases found : after? start cs with
    | none => rfl
    | some rest =>
        rw [eq_append_of_after? found, List.append_assoc, after?_append] at other
        cases other
  exact ⟨none_before _ unworded.call, none_before _ unworded.word⟩

/-- A text without outer blanks spells an identity. -/
inductive Spelling : List Char → ArtifactId → Prop where
  | call (rest : List Char) :
      Spelling ("project(".toList ++ rest) (ofProjectName (callArgument rest))
  | word (rest : List Char) : Spelling ("project ".toList ++ rest) (ofProjectName (trimBlank rest))
  | bare {cs : List Char} (unworded : Unworded cs) (filled : cs ≠ []) (uncut : ':' ∉ cs) :
      Spelling cs (ofProjectName cs)
  | rooted (rest : List Char) : Spelling (':' :: rest) (ofProjectName (':' :: rest))
  | parts {cs : List Char} {id : ArtifactId} (unworded : Unworded cs) (cut : ':' ∈ cs)
      (unrooted : cs.head? ≠ some ':') (read : ofParts? (splitOn ':' cs) = some id) :
      Spelling cs id

theorem unworded_rooted (rest : List Char) : Unworded (':' :: rest) := by
  constructor <;> simp [after?]

theorem after?_word_of_call (rest : List Char) :
    after? "project(".toList ("project ".toList ++ rest) = none := by
  simp [after?]

/-- Without the word `project` in front, the colons tell what a text spells. -/
theorem spelling_of_unworded {cs : List Char} {id : ArtifactId} (unworded : Unworded cs)
    (filled : cs ≠ []) (read : ofTrimmed? cs = .ok id) : Spelling cs id := by
  rw [ofTrimmed?, if_neg (by simpa using filled), unworded.call, unworded.word] at read
  dsimp only at read
  by_cases uncut : ':' ∉ cs
  · rw [if_pos uncut] at read
    cases read
    exact .bare unworded filled uncut
  rw [if_neg uncut] at read
  by_cases rooted : cs.head? = some ':'
  · rw [if_pos rooted] at read
    cases read
    obtain ⟨rest, rfl⟩ := List.head?_eq_some_iff.mp rooted
    exact .rooted rest
  · rw [if_neg rooted] at read
    cases parts : ofParts? (splitOn ':' cs) with
    | none =>
        rw [parts] at read
        cases read
    | some found =>
        rw [parts] at read
        cases read
        exact .parts unworded (not_not.mp uncut) rooted parts

theorem spelling_of_ofTrimmed? {cs : List Char} {id : ArtifactId}
    (read : ofTrimmed? cs = .ok id) : Spelling cs id := by
  have filled : cs ≠ [] := by
    rintro rfl
    cases read
  have shape := read
  rw [ofTrimmed?, if_neg (by simpa using filled)] at shape
  cases call : after? "project(".toList cs with
  | some rest =>
      rw [call] at shape
      cases shape
      rw [eq_append_of_after? call]
      exact .call rest
  | none =>
      cases word : after? "project ".toList cs with
      | some rest =>
          rw [call, word] at shape
          cases shape
          rw [eq_append_of_after? word]
          exact .word rest
      | none => exact spelling_of_unworded ⟨call, word⟩ filled read

theorem Spelling.ofTrimmed?_eq {cs : List Char} {id : ArtifactId} (spelling : Spelling cs id) :
    ofTrimmed? cs = .ok id := by
  unfold ofTrimmed?
  cases spelling with
  | call rest => simp only [after?_append]; rfl
  | word rest => simp only [after?_word_of_call, after?_append]; rfl
  | bare unworded filled uncut =>
      simp only [unworded.call, unworded.word]
      simp [filled, uncut]
  | rooted rest =>
      simp only [(unworded_rooted rest).call, (unworded_rooted rest).word]
      simp
  | parts unworded cut unrooted read =>
      have filled : cs ≠ [] := List.ne_nil_of_mem cut
      simp only [unworded.call, unworded.word]
      simp [filled, cut, unrooted, read]

/-- A text is read as the identity that it spells. -/
theorem ofTrimmed?_eq_ok_iff {cs : List Char} {id : ArtifactId} :
    ofTrimmed? cs = .ok id ↔ Spelling cs id :=
  ⟨spelling_of_ofTrimmed?, Spelling.ofTrimmed?_eq⟩

theorem ofString?_eq_ok_iff {text : String} {id : ArtifactId} :
    ofString? text = .ok id ↔ Spelling (trimBlank text.toList) id :=
  ofTrimmed?_eq_ok_iff

/-! ## What is read -/

/-- A part of a module's spelling: it is filled and trimmed, and holds no colon. -/
structure Part (cs : List Char) : Prop where
  filled : cs ≠ []
  trimmed : trimBlank cs = cs
  uncut : ':' ∉ cs

namespace Part

variable {cs : List Char}

theorem starts (part : Part cs) (first : Char) (found : cs.head? = some first) :
    isBlank first = false := by
  rw [← part.trimmed] at found
  exact head?_trimBy found

theorem ends (part : Part cs) (last : Char) (found : cs.getLast? = some last) :
    isBlank last = false := by
  rw [← part.trimmed] at found
  exact getLast?_trimBy found

/-- What is left of a text between colons is a part, if anything is left. -/
theorem of_uncut (uncut : ':' ∉ cs) (filled : trimBlank cs ≠ []) : Part (trimBlank cs) where
  filled := filled
  trimmed := trimBy_trimBy isBlank cs
  uncut := fun member => uncut (mem_of_mem_trimBy member)

end Part

/-- An identity that some text spells. -/
inductive Regular : ArtifactId → Prop where
  | module {group name : String} {version : Option String} (groupPart : Part group.toList)
      (namePart : Part name.toList) (versionPart : ∀ text ∈ version, Part text.toList)
      (unworded : Unworded group.toList) : Regular (.module group name version)
  | project {name : String} (unrooted : name.toList.head? ≠ some ':') : Regular (.project name)

/-- Leading colons do not count. -/
theorem ofProjectName_cons_colon (cs : List Char) :
    ofProjectName (':' :: cs) = ofProjectName cs := by
  rw [ofProjectName, List.dropWhile_cons_of_pos (by simp), ofProjectName]

theorem ofProjectName_of_head? {cs : List Char} (unrooted : cs.head? ≠ some ':') :
    ofProjectName cs = .project (String.ofList cs) := by
  rw [ofProjectName, dropWhile_eq_self]
  intro first found
  apply decide_eq_false
  rintro rfl
  exact unrooted found

theorem regular_ofProjectName (cs : List Char) : Regular (ofProjectName cs) := by
  refine .project ?_
  rw [String.toList_ofList]
  intro rooted
  have kept := List.head?_dropWhile_not (· = ':') cs
  rw [rooted] at kept
  simp at kept

/-- Parts are read as a module of the first two, and the third is its version. -/
theorem ofParts?_eq_some_iff {parts : List (List Char)} {id : ArtifactId} :
    ofParts? parts = some id ↔ ∃ group name more, parts = group :: name :: more ∧
      trimBlank group ≠ [] ∧ trimBlank name ≠ [] ∧
        id = .module (String.ofList (trimBlank group)) (String.ofList (trimBlank name))
          (((more.head?.map trimBlank).filter fun text => !text.isEmpty).map String.ofList) := by
  match parts with
  | [] => simp [ofParts?]
  | [_] => simp [ofParts?]
  | group :: name :: more =>
      simp only [ofParts?, Bool.or_eq_true, List.isEmpty_iff]
      by_cases missing : trimBlank group = [] ∨ trimBlank name = []
      · rw [if_pos missing]
        rcases missing with missing | missing <;> simp [missing]
      · rw [if_neg missing, Option.some.injEq]
        rw [not_or] at missing
        constructor
        · rintro rfl
          exact ⟨group, name, more, rfl, missing.1, missing.2, rfl⟩
        · rintro ⟨_, _, _, ⟨⟩, _, _, rfl⟩
          rfl

/-- A module that is read off a trimmed text is regular. -/
theorem regular_of_parts {cs : List Char} {id : ArtifactId} (unworded : Unworded cs)
    (starts : ∀ first, cs.head? = some first → isBlank first = false)
    (read : ofParts? (splitOn ':' cs) = some id) : Regular id := by
  obtain ⟨group, name, more, cut, filled, named, rfl⟩ := ofParts?_eq_some_iff.mp read
  have uncut : ∀ part ∈ group :: name :: more, ':' ∉ part := by
    intro part member
    rw [← cut] at member
    exact notMem_of_mem_splitOn member
  refine .module ?_ ?_ ?_ ?_
  · rw [String.toList_ofList]
    exact .of_uncut (uncut group (by simp)) filled
  · rw [String.toList_ofList]
    exact .of_uncut (uncut name (by simp)) named
  · intro version given
    obtain ⟨text, kept, rfl⟩ := Option.map_eq_some_iff.mp given
    obtain ⟨given, filled⟩ := Option.filter_eq_some_iff.mp kept
    obtain ⟨raw, first, rfl⟩ := Option.map_eq_some_iff.mp given
    rw [String.toList_ofList]
    have among : raw ∈ more := List.mem_of_mem_head? first
    exact .of_uncut (uncut raw (by simp [among])) (by simpa using filled)
  · -- The text begins with the group, whose blanks are all at its end.
    rw [String.toList_ofList]
    obtain ⟨rest, shape⟩ := exists_append_of_splitOn cut
    obtain ⟨front, back, around, blankFront, _⟩ := exists_append_trimBy isBlank group
    have none_in_front : front = [] := by
      cases front with
      | nil => rfl
      | cons c more =>
          have first := starts c (by rw [shape, around]; rfl)
          rw [blankFront c List.mem_cons_self] at first
          cases first
    rw [none_in_front, List.nil_append] at around
    rw [shape, around, List.append_assoc] at unworded
    exact unworded.of_append

/-- What is read from a text is regular. -/
theorem regular_of_ofString? {text : String} {id : ArtifactId} (read : ofString? text = .ok id) :
    Regular id := by
  have starts : ∀ first, (trimBlank text.toList).head? = some first → isBlank first = false :=
    fun _ found => head?_trimBy found
  have spelling := ofString?_eq_ok_iff.mp read
  generalize trimBlank text.toList = cs at starts spelling
  cases spelling with
  | call rest => exact regular_ofProjectName _
  | word rest => exact regular_ofProjectName _
  | bare => exact regular_ofProjectName _
  | rooted rest => exact regular_ofProjectName _
  | parts unworded _ _ read => exact regular_of_parts unworded starts read

/-! ## White space at the end -/

/-- A name ends in white space. -/
def EndsBlank (name : String) : Prop :=
  ∃ last, name.toList.getLast? = some last ∧ isBlank last = true

theorem not_endsBlank_trimmedEnd (name : String) : ¬ EndsBlank (trimmedEnd name) := by
  rintro ⟨last, found, blank⟩
  rw [trimmedEnd, String.toList_ofList] at found
  rw [getLast?_dropBack found] at blank
  cases blank

theorem trimmedEnd_eq_self_iff {name : String} : trimmedEnd name = name ↔ ¬ EndsBlank name := by
  constructor
  · intro same
    rw [← same]
    exact not_endsBlank_trimmedEnd name
  · intro solid
    rw [trimmedEnd, dropBack_eq_self, String.ofList_toList]
    intro last found
    by_contra blank
    exact solid ⟨last, found, by simpa using blank⟩

/-- An identity without white space at the end of a project's name. -/
def settled : ArtifactId → ArtifactId
  | .module group name version => .module group name version
  | .project name => .project (trimmedEnd name)

/-- What is left of a text behind its colons has the same end, if anything is left. -/
theorem getLast?_of_dropWhile {p : Char → Bool} {cs : List Char} {last : Char}
    (found : (cs.dropWhile p).getLast? = some last) : cs.getLast? = some last := by
  rw [← List.takeWhile_append_dropWhile (p := p) (l := cs), List.getLast?_append, found,
    Option.some_or]

/-- Only a name between parentheses can end in white space. -/
theorem exists_call {text name : String} (read : ofString? text = .ok (.project name))
    (blank : EndsBlank name) : ∃ rest, trimBlank text.toList = "project(".toList ++ rest := by
  obtain ⟨last, ending, blank⟩ := blank
  -- The name of any other spelling has the end of a trimmed text.
  have solid : ∀ cs : List Char, (∀ last, cs.getLast? = some last → isBlank last = false) →
      .project name ≠ ofProjectName cs := by
    intro cs ends same
    rw [ArtifactId.project.inj same, String.toList_ofList] at ending
    rw [ends last (getLast?_of_dropWhile ending)] at blank
    cases blank
  have ends : ∀ last, (trimBlank text.toList).getLast? = some last → isBlank last = false :=
    fun _ found => getLast?_trimBy found
  have spelling := ofString?_eq_ok_iff.mp read
  generalize trimBlank text.toList = cs at ends spelling
  generalize same : ArtifactId.project name = id at spelling
  cases spelling with
  | call rest => exact ⟨rest, rfl⟩
  | word rest => exact absurd same (solid _ fun _ found => getLast?_trimBy found)
  | bare => exact absurd same (solid _ ends)
  | rooted rest => exact absurd same (solid _ ends)
  | parts _ _ _ read =>
      obtain ⟨_, _, _, _, _, _, named⟩ := ofParts?_eq_some_iff.mp read
      cases same.trans named

/-! ## What is written -/

/-- A text with white space around it. -/
def Padded (cs text : List Char) : Prop :=
  ∃ front back, (∀ c ∈ front, isBlank c = true) ∧ (∀ c ∈ back, isBlank c = true) ∧
    text = front ++ cs ++ back

namespace Padded

variable {cs text : List Char}

theorem refl (cs : List Char) : Padded cs cs :=
  ⟨[], [], by simp, by simp, by simp⟩

theorem trimBlank_eq (padded : Padded cs text) : trimBlank text = trimBlank cs := by
  obtain ⟨front, back, blankFront, blankBack, rfl⟩ := padded
  rw [trimBlank, trimBy_of_append_all blankBack, trimBy_append_of_all blankFront, trimBlank]

theorem dropBack (padded : Padded cs text) (part : Part cs) :
    Padded cs (dropBack isBlank text) := by
  obtain ⟨front, back, blankFront, blankBack, rfl⟩ := padded
  refine ⟨front, [], blankFront, by simp, ?_⟩
  rw [dropBack_append_of_all blankBack, List.append_nil]
  apply dropBack_eq_self
  intro last found
  rw [List.getLast?_append_of_ne_nil _ part.filled] at found
  exact part.ends last found

theorem uncut (padded : Padded cs text) (part : Part cs) : ':' ∉ text := by
  obtain ⟨front, back, blankFront, blankBack, rfl⟩ := padded
  simp only [List.mem_append, not_or]
  refine ⟨⟨?_, part.uncut⟩, ?_⟩
  · intro member
    exact absurd (blankFront _ member) (by decide)
  · intro member
    exact absurd (blankBack _ member) (by decide)

end Padded

/-- The text of a module: its parts with colons between them. -/
def moduleText (group name : List Char) (version : Option (List Char)) : List Char :=
  group ++ ':' :: (name ++ version.elim [] (':' :: ·))

theorem splitOn_moduleText {group name : List Char} {version : Option (List Char)}
    (uncutGroup : ':' ∉ group) (uncutName : ':' ∉ name)
    (uncutVersion : ∀ text ∈ version, ':' ∉ text) :
    splitOn ':' (moduleText group name version) = group :: name :: version.toList := by
  rw [moduleText, splitOn_append, splitOn_of_notMem uncutGroup]
  cases version with
  | none =>
      rw [Option.elim_none, List.append_nil, splitOn_of_notMem uncutName]
      rfl
  | some text =>
      rw [Option.elim_some, splitOn_append, splitOn_of_notMem uncutName,
        splitOn_of_notMem (uncutVersion text rfl)]
      rfl

/-- Parts with colons between them spell a module, if they do not begin like a project. -/
theorem spelling_moduleText {group name : List Char} {version : Option (List Char)}
    (unworded : Unworded group) (filledGroup : trimBlank group ≠ [])
    (filledName : trimBlank name ≠ []) (uncutGroup : ':' ∉ group) (uncutName : ':' ∉ name)
    (uncutVersion : ∀ text ∈ version, ':' ∉ text) :
    Spelling (moduleText group name version)
      (.module (String.ofList (trimBlank group)) (String.ofList (trimBlank name))
        (((version.map trimBlank).filter fun text => !text.isEmpty).map String.ofList)) := by
  refine .parts ⟨?_, ?_⟩ (by simp [moduleText]) ?_ ?_
  · exact after?_append_cons_eq_none (by simp) unworded.call _
  · exact after?_append_cons_eq_none (by simp) unworded.word _
  · cases group with
    | nil => exact absurd rfl filledGroup
    | cons c more =>
        intro rooted
        rw [moduleText, List.cons_append, List.head?_cons, Option.some.injEq] at rooted
        exact uncutGroup (rooted ▸ List.mem_cons_self)
  · rw [splitOn_moduleText uncutGroup uncutName uncutVersion, ofParts?_eq_some_iff]
    exact ⟨group, name, version.toList, rfl, filledGroup, filledName, by rw [Option.head?_toList]⟩

/-- Behind a colon only the end is trimmed. -/
theorem trimBlank_rooted (front cs : List Char)
    (starts : ∀ first, (front ++ [':']).head? = some first → isBlank first = false) :
    trimBlank (front ++ ':' :: cs) = front ++ ':' :: dropBack isBlank cs := by
  have first : (front ++ ':' :: cs).dropWhile isBlank = front ++ ':' :: cs := by
    apply dropWhile_eq_self
    intro first found
    apply starts
    rw [← found]
    cases front <;> rfl
  rw [trimBlank, trimBy, first, dropBack_append_cons (by decide)]

/-- Only the last part of a trimmed text loses the white space behind it. -/
theorem trimBlank_moduleText {front group name : List Char} {version : Option (List Char)}
    (blank : ∀ c ∈ front, isBlank c = true)
    (starts : ∀ first, (group ++ [':']).head? = some first → isBlank first = false) :
    trimBlank (front ++ moduleText group name version) =
      version.elim (moduleText group (dropBack isBlank name) none)
        fun text => moduleText group name (some (dropBack isBlank text)) := by
  rw [trimBlank, trimBy_append_of_all blank, ← trimBlank]
  cases version with
  | none =>
      simp only [moduleText, Option.elim_none, List.append_nil]
      exact trimBlank_rooted group name starts
  | some text =>
      have tail := trimBlank_rooted (group ++ ':' :: name) text <| by
        intro first found
        apply starts
        rw [← found]
        cases group <;> rfl
      simpa [moduleText] using tail

/-- **A module is read off its parts**, with any white space around them, if its group and the
white space behind it do not begin like a project. -/
theorem ofString?_moduleText {group name nameText front back : List Char}
    {version versionText : Option (List Char)} (groupPart : Part group) (namePart : Part name)
    (versionPart : ∀ text ∈ version, Part text) (blankFront : ∀ c ∈ front, isBlank c = true)
    (blankBack : ∀ c ∈ back, isBlank c = true) (unworded : Unworded (group ++ back))
    (paddedName : Padded name nameText) (paddedVersion : Option.Rel Padded version versionText) :
    ofString? (String.ofList (front ++ moduleText (group ++ back) nameText versionText)) =
      .ok (.module (String.ofList group) (String.ofList name) (version.map String.ofList)) := by
  have paddedGroup : Padded group (group ++ back) := ⟨[], back, by simp, blankBack, by simp⟩
  have starts : ∀ first, (group ++ back ++ [':']).head? = some first → isBlank first = false := by
    intro first found
    rw [List.append_assoc, List.head?_append_of_ne_nil _ groupPart.filled] at found
    exact groupPart.starts first found
  have trimmed : ∀ {cs text : List Char}, Padded cs text → Part cs → trimBlank text = cs :=
    fun padded part => padded.trimBlank_eq.trans part.trimmed
  have uncutGroup := paddedGroup.uncut groupPart
  have filledGroup := (trimmed paddedGroup groupPart).symm ▸ groupPart.filled
  rw [ofString?_eq_ok_iff, String.toList_ofList, trimBlank_moduleText blankFront starts]
  cases paddedVersion with
  | none =>
      have last := paddedName.dropBack namePart
      have spelled := spelling_moduleText unworded filledGroup
        ((trimmed last namePart).symm ▸ namePart.filled) uncutGroup (last.uncut namePart)
        (fun _ => nofun : ∀ text ∈ (none : Option (List Char)), ':' ∉ text)
      rw [trimmed paddedGroup groupPart, trimmed last namePart] at spelled
      exact spelled
  | @some text _ padded =>
      have versioned := versionPart text rfl
      have last := padded.dropBack versioned
      have spelled := spelling_moduleText unworded filledGroup
        ((trimmed paddedName namePart).symm ▸ namePart.filled) uncutGroup
        (paddedName.uncut namePart)
        (fun _ given => Option.some.inj given ▸ last.uncut versioned :
          ∀ text ∈ some (dropBack isBlank _), ':' ∉ text)
      rw [trimmed paddedGroup groupPart, trimmed paddedName namePart, Option.map_some,
        trimmed last versioned, Option.filter_some, if_pos (by simpa using versioned.filled)]
        at spelled
      exact spelled

/-- What is written for a project is read as the project, without white space at its end. -/
theorem ofString?_display_project {name : String} (unrooted : name.toList.head? ≠ some ':') :
    ofString? (ArtifactId.project name).display = .ok (.project (trimmedEnd name)) := by
  have solid : dropBack isBlank (dropBack isBlank name.toList) = dropBack isBlank name.toList :=
    dropBack_eq_self fun _ found => getLast?_dropBack found
  have trimmed : trimBlank (ArtifactId.project name).display.toList =
      "project ".toList ++ ':' :: dropBack isBlank name.toList := by
    rw [← trimBlank_rooted _ _ (by simp; decide), display, String.toList_append]
    simp
  have behind : trimBlank (':' :: dropBack isBlank name.toList) =
      ':' :: dropBack isBlank name.toList := by
    have rooted := trimBlank_rooted [] (dropBack isBlank name.toList) (by simp; decide)
    rwa [List.nil_append, List.nil_append, solid] at rooted
  have unrootedEnd : (dropBack isBlank name.toList).head? ≠ some ':' :=
    fun rooted => unrooted (head?_dropBack rooted)
  have spelled := Spelling.word (':' :: dropBack isBlank name.toList)
  rw [behind, ← trimmed, ← ofString?_eq_ok_iff] at spelled
  rw [spelled, ofProjectName_cons_colon, ofProjectName_of_head? unrootedEnd, trimmedEnd]

/-- What is written for an identity is read as the identity, without white space at its end. -/
theorem ofString?_display {id : ArtifactId} (regular : Regular id) :
    ofString? id.display = .ok id.settled := by
  cases regular with
  | project unrooted => exact ofString?_display_project unrooted
  | @module group name version groupPart namePart versionPart unworded =>
      have written : (ArtifactId.module group name version).display =
          String.ofList (moduleText group.toList name.toList (version.map String.toList)) := by
        cases version <;> simp [display, moduleText, ← String.toList_inj]
      have plain : Unworded (group.toList ++ []) := by rwa [List.append_nil]
      have texts : ∀ text ∈ version.map String.toList, Part text := by
        intro text given
        obtain ⟨word, held, rfl⟩ := Option.map_eq_some_iff.mp given
        exact versionPart word held
      have unpadded :
          Option.Rel Padded (version.map String.toList) (version.map String.toList) := by
        cases version with
        | none => exact .none
        | some text => exact .some (.refl _)
      have nothing : ∀ c ∈ ([] : List Char), isBlank c = true := nofun
      have read := ofString?_moduleText groupPart namePart texts nothing nothing plain (.refl _)
        unpadded
      rw [List.nil_append, List.append_nil, ← written] at read
      simpa [settled, Function.comp_def] using read

theorem settled_settled (id : ArtifactId) : id.settled.settled = id.settled := by
  cases id with
  | module group name version => rfl
  | project name =>
      rw [settled, settled, trimmedEnd_eq_self_iff.mpr (not_endsBlank_trimmedEnd name)]

theorem Regular.settled {id : ArtifactId} (regular : Regular id) : Regular id.settled := by
  cases regular with
  | module groupPart namePart versionPart unworded =>
      exact .module groupPart namePart versionPart unworded
  | project unrooted =>
      refine .project fun rooted => unrooted ?_
      rw [trimmedEnd, String.toList_ofList] at rooted
      exact head?_dropBack rooted

theorem settled_eq_self_iff {id : ArtifactId} :
    id.settled = id ↔ ∀ name, id = .project name → ¬ EndsBlank name := by
  cases id with
  | module group name version => simp [settled]
  | project name => simp [settled, trimmedEnd_eq_self_iff]

end ArtifactId

/-! ## Stored artifacts -/

namespace ResolvedArtifact

open Document

theorem decodes_toJson {artifact : ResolvedArtifact} {id : ArtifactId}
    (read : ArtifactId.ofString? artifact.id.display = .ok id) :
    Decodes (ResolvedArtifact.ofDocument (ofJson artifact.toJson)) { artifact with id } := by
  have fields : Decodes ((ofJson artifact.toJson).fields [["id"], ["file"], ["dependency"]])
      [some (ofJson (.string artifact.id.display)), some (ofJson (.string artifact.file.text)),
        artifact.dependency.map fun text => ofJson (.string text)] := by
    intro anchors hops
    rw [toJson, ofJson_object]
    cases artifact.dependency <;> rfl
  have identity : Decodes (idOfDocument (ofJson (.string artifact.id.display))) id := by
    refine (decodes_text _).bind ?_
    rw [read]
    exact decodes_pure id
  have file : Decodes (pathOfDocument (ofJson (.string artifact.file.text))) artifact.file :=
    (decodes_text _).bind (decodes_pure _)
  have dependency : Decodes (fieldOr none optionalText
      (artifact.dependency.map fun text => ofJson (.string text))) artifact.dependency := by
    cases artifact.dependency with
    | none => exact decodes_pure none
    | some text =>
        intro anchors hops
        rw [Option.map_some, ofJson]
        rfl
  exact fields.bind (identity.bind (file.bind (dependency.bind (decodes_pure _))))

theorem written_toJson (artifact : ResolvedArtifact) : Json.Written artifact.toJson := by
  refine .object _ fun field member => ?_
  rw [List.mem_append, Option.mem_toList] at member
  rcases member with fixed | given
  · simp only [List.mem_cons, List.not_mem_nil, or_false] at fixed
    rcases fixed with rfl | rfl
    · exact .text _
    · exact .text _
  · obtain ⟨text, _, rfl⟩ := Option.map_eq_some_iff.mp given
    exact .text text

/-- A stored artifact is read with the identity that the stored one is read as. -/
theorem decode_toJson {artifact : ResolvedArtifact} {id : ArtifactId}
    (read : ArtifactId.ofString? artifact.id.display = .ok id) :
    (Document.ofJsonText artifact.toJson.compact.toList).bind (·.decode ofDocument) =
      some { artifact with id } := by
  have parsed : Document.ofJsonText artifact.toJson.compact.toList =
      some (alone (ofJson artifact.toJson)) := by
    rw [Document.ofJsonText, Json.parseChars, Json.parseUnits_compact artifact.written_toJson]
    rfl
  rw [parsed, Option.bind_some, Source.decode, alone, decodes_toJson read]
  rfl

end ResolvedArtifact

/-! ## Spellings made normal -/

namespace Dependency

open ArtifactId

/-- An identity without its version. -/
def unversioned : ArtifactId → ArtifactId
  | .module group name _ => .module group name none
  | .project name => .project name

theorem normalize_dependencyName {id : ArtifactId} (regular : Regular id) :
    normalize id.dependencyName = id.settled.dependencyName := by
  have plain : Regular (unversioned id) := by
    cases regular with
    | module groupPart namePart _ unworded =>
        exact .module groupPart namePart (fun _ => nofun) unworded
    | project unrooted => exact .project unrooted
  have read := normalize_of_ok (ofString?_display plain)
  cases id with
  | module group name version => exact read
  | project name => exact read

theorem dependencyName_settled_iff {id : ArtifactId} :
    id.settled.dependencyName = id.dependencyName ↔ id.settled = id := by
  constructor
  · intro same
    cases id with
    | module group name version => rfl
    | project name =>
        have texts := congrArg String.toList same
        simp only [ArtifactId.settled, dependencyName, String.toList_append] at texts
        rw [ArtifactId.settled, String.toList_inj.mp (List.append_cancel_left texts)]
  · intro same
    rw [same]

/-- A text that spells nothing stays so when it is trimmed. -/
theorem normalize_trimmed {text : String} {error : ArtifactIdError}
    (unspelled : ofString? text = .error error) : normalize (trimmed text) = trimmed text := by
  have solid : trimBlank (trimBlank text.toList) = trimBlank text.toList := trimBy_trimBy _ _
  have again : ofString? (trimmed text) = .error error := by
    rwa [ofString?, trimmed, String.toList_ofList, solid]
  rw [normalize_of_error again, trimmed, trimmed, String.toList_ofList, solid]

/-- **Identities survive being written.**  What a text spells is read back from what is written
for it, and so is an artifact of that identity from its document, unless it is a project whose
name ends in white space; such a name only `project(...)` can give, and it is read back without
that white space.  For these projects, and for nothing else, normalising twice is not the same
as normalising once, and nothing is left to do for a third time. -/
theorem survives_writing (text : String) :
    (∀ id, ofString? text = .ok id → (∀ name, id = .project name → ¬ EndsBlank name) →
      ofString? id.display = .ok id ∧
        ∀ artifact : ResolvedArtifact, artifact.id = id →
          (Document.ofJsonText artifact.toJson.compact.toList).bind
            (·.decode ResolvedArtifact.ofDocument) = some artifact) ∧
    (∀ name, ofString? text = .ok (.project name) → EndsBlank name →
      (∃ rest, trimBlank text.toList = "project(".toList ++ rest) ∧
        ofString? (ArtifactId.project name).display = .ok (.project (trimmedEnd name))) ∧
    (normalize (normalize text) = normalize text ↔
      ∀ name, ofString? text = .ok (.project name) → ¬ EndsBlank name) ∧
    normalize (normalize (normalize text)) = normalize (normalize text) := by
  refine ⟨?_, ?_, ?_⟩
  · intro id read solid
    have back := ofString?_display (regular_of_ofString? read)
    rw [settled_eq_self_iff.mpr solid] at back
    refine ⟨back, ?_⟩
    rintro artifact rfl
    exact ResolvedArtifact.decode_toJson back
  · intro name read blank
    exact ⟨exists_call read blank, ofString?_display (regular_of_ofString? read)⟩
  · cases read : ofString? text with
    | error error =>
        rw [normalize_of_error read, normalize_trimmed read, normalize_trimmed read]
        simp
    | ok id =>
        have regular := regular_of_ofString? read
        rw [normalize_of_ok read, normalize_dependencyName regular,
          normalize_dependencyName regular.settled, settled_settled, dependencyName_settled_iff,
          settled_eq_self_iff]
        simp

/-! ### A project with white space in its name, and a module with too many parts -/

namespace Spaced

def project : String := " project(': core \t')"

def release : String := "\u00a0g :n: 1 :x"

theorem read_project : ofString? project = .ok (.project " core \t") :=
  Outcome.toOption_eq_some.mp (by decide)

theorem read_release : ofString? release = .ok (.module "g" "n" (some "1")) :=
  Outcome.toOption_eq_some.mp (by decide)

theorem endsBlank : EndsBlank " core \t" :=
  ⟨'\t', by decide, by decide⟩

end Spaced

theorem survives_writing_of_spaced :
    ofString? "project : core \t" = .ok (.project " core") ∧
      normalize (normalize Spaced.project) ≠ normalize Spaced.project ∧
      ofString? "g:n:1" = .ok (.module "g" "n" (some "1")) := by
  have ofProject := survives_writing Spaced.project
  have ofRelease := survives_writing Spaced.release
  have display : (ArtifactId.project " core \t").display = "project : core \t" := by
    decide
  have core : trimmedEnd " core \t" = " core" := by decide
  refine ⟨?_, ?_, ?_⟩
  · have back := (ofProject.2.1 _ Spaced.read_project Spaced.endsBlank).2
    rwa [display, core] at back
  · intro same
    exact ofProject.2.2.1.mp same _ Spaced.read_project Spaced.endsBlank
  · exact (ofRelease.1 _ Spaced.read_release (fun _ => nofun)).1

end Dependency

end DependencyAudit
