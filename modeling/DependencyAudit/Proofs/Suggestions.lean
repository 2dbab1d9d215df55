/-
# DependencyAudit.Proofs.Suggestions -- a suggestion declares what it was made for

A suggestion takes the name of a project out of its spelling by trimming, and does not read the
spelling as an identity is read.  The two agree on the spellings of a bare name that say that it
is a project: what is trimmed away there is what stands around the name (`projectName_word`,
`projectName_call`).

Where the name stands alone there is nothing around it, and the trimming takes the word
`project` off the name itself, as often as the name begins with it (`projectName_solid`).  So
exactly the names that begin so are declared under another name (`suggestion_declares`).  A
module is declared by its own text, for no spelling of one is taken for a project
(`isProject_of_module`).
-/
import Mathlib.Data.List.Basic
import DependencyAudit.Proofs.DependencyKeys

namespace DependencyAudit

open Text

set_option autoImplicit false

namespace Dependency

open ArtifactId

/-! ## The word in front of a name -/

/-- The word that a spelling says by that it is one of a project. -/
def projectWord : List Char := ['p', 'r', 'o', 'j', 'e', 'c', 't']

theorem dropProjectWords_word (rest : List Char) :
    dropProjectWords (projectWord ++ rest) = dropProjectWords rest := rfl

theorem dropProjectWords_of_not_prefix {cs : List Char} (unworded : ¬ projectWord <+: cs) :
    dropProjectWords cs = cs := by
  unfold dropProjectWords
  split
  · rename_i rest
    exact absurd (List.prefix_append projectWord rest) unworded
  · rfl

/-- What is left of a text is its end. -/
theorem dropProjectWords_suffix (cs : List Char) : dropProjectWords cs <:+ cs := by
  fun_induction dropProjectWords cs with
  | case1 rest shorter => exact shorter.trans (List.suffix_append projectWord rest)
  | case2 cs => exact List.suffix_rfl

/-- Only a text that begins with the word loses something. -/
theorem dropProjectWords_eq_self_iff {cs : List Char} :
    dropProjectWords cs = cs ↔ ¬ projectWord <+: cs := by
  constructor
  · rintro kept ⟨rest, rfl⟩
    have shorter := (dropProjectWords_suffix rest).length_le
    rw [← dropProjectWords_word rest, kept, List.length_append] at shorter
    have word : projectWord.length = 7 := by decide
    omega
  · exact dropProjectWords_of_not_prefix

/-! ## The name of a project -/

theorem head?_ne_of_notMem {cs : List Char} {c : Char} (absent : c ∉ cs) :
    ∀ first, cs.head? = some first → decide (first = c) = false := by
  intro first found
  apply decide_eq_false
  rintro rfl
  exact absent (List.mem_of_mem_head? found)

theorem getLast?_ne_of_notMem {cs : List Char} {c : Char} (absent : c ∉ cs) :
    ∀ last, cs.getLast? = some last → decide (last = c) = false := by
  intro last found
  apply decide_eq_false
  rintro rfl
  exact absent (List.mem_of_getLast? found)

section Forms

variable {name : String}

theorem dropWhile_colon (bare : Bare name) :
    (':' :: name.toList).dropWhile (· = ':') = name.toList := by
  rw [List.dropWhile_cons_of_pos (by simp), dropWhile_eq_self (head?_ne_of_notMem bare.uncut)]

/-- A name that stands alone loses no more than the word. -/
theorem projectName_alone (bare : Bare name) :
    projectName name.toList = dropProjectWords name.toList := by
  have within : dropProjectWords name.toList ⊆ name.toList :=
    (dropProjectWords_suffix name.toList).subset
  have blankless : trimBlank (dropProjectWords name.toList) = dropProjectWords name.toList :=
    trimBy_of_none fun c member => bare.solid c (within member)
  have unopened :
      (dropProjectWords name.toList).dropWhile (· = '(') = dropProjectWords name.toList :=
    dropWhile_eq_self (head?_ne_of_notMem fun member => bare.unwrapped.1 (within member))
  have unclosed :
      dropBack (· = ')') (dropProjectWords name.toList) = dropProjectWords name.toList :=
    dropBack_eq_self (getLast?_ne_of_notMem fun member => bare.unwrapped.2 (within member))
  have quoteless : trimBy isQuote (dropProjectWords name.toList) = dropProjectWords name.toList :=
    trimBy_of_none fun c member => bare.unquoted c (within member)
  rw [projectName, blankless, unopened, unclosed, quoteless,
    dropWhile_eq_self (head?_ne_of_notMem fun member => bare.uncut (within member))]

/-- Behind the word, a blank and a colon are trimmed away. -/
theorem projectName_word (bare : Bare name) :
    projectName ("project :".toList ++ name.toList) = name.toList := by
  have solid : ∀ c ∈ ':' :: name.toList, isBlank c = false :=
    List.forall_mem_cons.mpr ⟨by decide, bare.solid⟩
  have unquoted : ∀ c ∈ ':' :: name.toList, isQuote c = false :=
    List.forall_mem_cons.mpr ⟨by decide, bare.unquoted⟩
  have words : dropProjectWords ("project :".toList ++ name.toList) = [' '] ++ ':' :: name.toList :=
    rfl
  have blankless : trimBlank ([' '] ++ ':' :: name.toList) = ':' :: name.toList := by
    rw [trimBlank, trimBy_append_of_all (by simp; decide), trimBy_of_none solid]
  have unopened : (':' :: name.toList).dropWhile (· = '(') = ':' :: name.toList :=
    dropWhile_eq_self (by simp)
  have unclosed : dropBack (· = ')') (':' :: name.toList) = ':' :: name.toList :=
    dropBack_eq_self (getLast?_ne_of_notMem (by simp [bare.unwrapped.2]))
  rw [projectName, words, blankless, unopened, unclosed, trimBy_of_none unquoted,
    dropWhile_colon bare]

/-- Behind the word, quotes in parentheses are trimmed away together with the colon. -/
theorem projectName_call (bare : Bare name) {quote : Char} (quotes : isQuote quote = true) :
    projectName ("project(".toList ++ (quote :: ':' :: name.toList ++ [quote, ')'])) =
      name.toList := by
  have quote_ne : ∀ c, isQuote c = false → quote ≠ c := by
    rintro c other rfl
    rw [quotes] at other
    cases other
  have words : dropProjectWords
      ("project(".toList ++ (quote :: ':' :: name.toList ++ [quote, ')'])) =
        '(' :: (quote :: ':' :: name.toList ++ [quote, ')']) := rfl
  have blankless : trimBlank ('(' :: (quote :: ':' :: name.toList ++ [quote, ')'])) =
      '(' :: (quote :: ':' :: name.toList ++ [quote, ')']) := by
    apply trimBlank_eq_self
    · intro first found
      cases found
      decide
    · intro last found
      have ending : '(' :: (quote :: ':' :: name.toList ++ [quote, ')']) =
          ('(' :: quote :: ':' :: name.toList ++ [quote]) ++ [')'] := by simp
      rw [ending, List.getLast?_concat] at found
      cases found
      decide
  have opened : ('(' :: (quote :: ':' :: name.toList ++ [quote, ')'])).dropWhile (· = '(') =
      quote :: ':' :: name.toList ++ [quote, ')'] := by
    rw [List.dropWhile_cons_of_pos (by simp), List.cons_append, List.dropWhile_cons_of_neg]
    simpa using quote_ne '(' (by decide)
  have argument := bare.callArgument_eq quotes
  rw [callArgument] at argument
  rw [projectName, words, blankless, opened, argument, dropWhile_colon bare]

end Forms

/-! ## Modules -/

/-- A text that begins with a word and a character keeps them when it is trimmed. -/
theorem trimBlank_append_cons {start : List Char} {c : Char} (keeps : isBlank c = false)
    (starts : ∀ first, start.head? = some first → isBlank first = false) (rest : List Char) :
    trimBlank (start ++ c :: rest) = start ++ c :: dropBack isBlank rest := by
  have first_kept : ∀ first, (start ++ c :: rest).head? = some first → isBlank first = false := by
    intro first found
    rw [List.head?_append, Option.or_eq_some_iff] at found
    rcases found with found | ⟨_, found⟩
    · exact starts first found
    · cases found
      exact keeps
  rw [trimBlank, trimBy, dropWhile_eq_self first_kept, dropBack_append_cons keeps]

theorem mem_colon_of_module {cs : List Char} {id : ArtifactId} {group name : String}
    {version : Option String} (spelled : Spelling cs id)
    (module : id = .module group name version) : ':' ∈ cs := by
  cases spelled with
  | call rest => cases module
  | word rest => cases module
  | bare unworded filled uncut => cases module
  | rooted rest => cases module
  | parts unworded cut unrooted read => exact cut

/-- No spelling of a module is taken for a project. -/
theorem isProject_of_module {text group name : String} {version : Option String}
    (read : ofString? text = .ok (.module group name version)) : isProject text = false := by
  have reads := ofString?_eq_ok_iff.mp read
  have projectless : ∀ project, ¬ Spelling (trimBlank text.toList) (ofProjectName project) := by
    intro project spelled
    have same := spelled.ofTrimmed?_eq.symm.trans reads.ofTrimmed?_eq
    cases same
  have word : after? "project :".toList text.toList = none := by
    rw [Option.eq_none_iff_forall_ne_some]
    intro rest found
    have shape : text.toList = "project :".toList ++ rest := eq_append_of_after? found
    have trims : trimBlank ((projectWord ++ [' ']) ++ ':' :: rest) =
        (projectWord ++ [' ']) ++ ':' :: dropBack isBlank rest :=
      trimBlank_append_cons (by decide) (by simp [projectWord]; decide) rest
    refine projectless (trimBlank (':' :: dropBack isBlank rest)) ?_
    rw [shape]
    exact trims ▸ .word (':' :: dropBack isBlank rest)
  have call : after? "project(".toList text.toList = none := by
    rw [Option.eq_none_iff_forall_ne_some]
    intro rest found
    have shape : text.toList = "project(".toList ++ rest := eq_append_of_after? found
    have trims : trimBlank (projectWord ++ '(' :: rest) =
        projectWord ++ '(' :: dropBack isBlank rest :=
      trimBlank_append_cons (by decide) (by simp [projectWord]; decide) rest
    refine projectless (callArgument (dropBack isBlank rest)) ?_
    rw [shape]
    exact trims ▸ .call (dropBack isBlank rest)
  have cut : ':' ∈ text.toList := mem_of_mem_trimBy (mem_colon_of_module reads rfl)
  rw [isProject, word, call, decide_eq_false (not_not.mpr cut)]
  rfl

/-! ## Lines of build files -/

theorem declaration_of_isProject {text : String} (project : isProject text = true) :
    declaration text = "project(':" ++ String.ofList (projectName text.toList) ++ "')" := by
  rw [declaration, if_pos project]

theorem suggestion_eq (text : String) :
    suggestion text = "implementation " ++ declaration text := rfl

theorem suggestion_of_isProject {text : String} (project : isProject text = true) :
    suggestion text =
      "implementation project(':" ++ String.ofList (projectName text.toList) ++ "')" := by
  have word : "implementation " ++ "project(':" = "implementation project(':" := rfl
  rw [suggestion_eq, declaration_of_isProject project, ← String.append_assoc,
    ← String.append_assoc, word]

/-- The declaration in a suggestion spells the dependency that the suggestion was made for. -/
def Declares (text : String) : Prop :=
  ∃ declared id own, suggestion text = "implementation " ++ declared ∧
    ofString? declared = .ok id ∧ ofString? text = .ok own ∧
      id.dependencyName = own.dependencyName

/-- What stands before and behind the name in the spellings that say that they are of a
project. -/
def wordedForms : List (String × String) :=
  [("project :", ""), ("project(':", "')"), ("project(\":", "\")")]

section Lines

variable {name : String}

/-- With the word in front, exactly the name is declared. -/
theorem suggestion_worded (bare : Bare name) {form : String × String}
    (member : form ∈ wordedForms) :
    suggestion (form.1 ++ name ++ form.2) = "implementation project(':" ++ name ++ "')" := by
  have line : ∀ text : String, isProject text = true → projectName text.toList = name.toList →
      suggestion text = "implementation project(':" ++ name ++ "')" := by
    intro text project named
    rw [suggestion_of_isProject project, named, String.ofList_toList]
  have called : ∀ quote, isQuote quote = true → ∀ text : String,
      text.toList = "project(".toList ++ (quote :: ':' :: name.toList ++ [quote, ')']) →
      suggestion text = "implementation project(':" ++ name ++ "')" := by
    intro quote quotes text shape
    refine line text ?_ (by rw [shape, projectName_call bare quotes])
    rw [isProject, shape, after?_append]
    simp
  simp only [wordedForms, List.mem_cons, List.not_mem_nil, or_false] at member
  rcases member with rfl | rfl | rfl
  · have shape : ("project :" ++ name ++ "").toList = "project :".toList ++ name.toList := by simp
    refine line _ ?_ (by rw [shape, projectName_word bare])
    rw [isProject, shape, after?_append]
    simp
  · exact called '\x27' (by decide) _ (by simp)
  · exact called '"' (by decide) _ (by simp)

theorem isProject_alone (bare : Bare name) : isProject name = true := by
  simp [isProject, bare.uncut]

/-- What is filled with characters of a bare name is a bare name. -/
theorem bare_of_subset (bare : Bare name) {cs : List Char} (within : cs ⊆ name.toList)
    (filled : cs ≠ []) : Bare (String.ofList cs) := by
  have same : (String.ofList cs).toList = cs := String.toList_ofList
  constructor
  · rwa [same]
  · rw [same]
    exact fun c member => bare.solid c (within member)
  · rw [same]
    exact fun member => bare.uncut (within member)
  · rw [same]
    exact fun c member => bare.unquoted c (within member)
  · rw [same]
    exact bare.unwrapped.imp (fun absent member => absent (within member))
      fun absent member => absent (within member)

theorem ofString?_quoted (bare : Bare name) :
    ofString? ("project(':" ++ name ++ "')") = .ok (.project name) :=
  @Bare.ofString?_form name bare ("project(':", "')") (by decide) _ (.refl _)

/-- What is left of a bare name is what its declaration spells. -/
theorem ofString?_declaration (bare : Bare name) :
    ofString? (declaration name) =
      .ok (.project (String.ofList (dropProjectWords name.toList))) := by
  rw [declaration_of_isProject (isProject_alone bare), projectName_alone bare]
  by_cases filled : dropProjectWords name.toList = []
  · rw [filled]
    exact Outcome.toOption_eq_some.mp (by decide +kernel)
  · have left := bare_of_subset bare (dropProjectWords_suffix name.toList).subset filled
    exact ofString?_quoted left

theorem ofString?_alone (bare : Bare name) : ofString? name = .ok (.project name) :=
  @Bare.ofString?_form name bare ("", "") (by decide) name (by simpa using .refl name.toList)

/-- A bare name that stands alone is declared under another one exactly if it begins with the
word. -/
theorem suggestion_alone_eq_iff (bare : Bare name) :
    suggestion name = "implementation project(':" ++ name ++ "')" ↔
      ¬ projectWord <+: name.toList := by
  rw [suggestion_of_isProject (isProject_alone bare), projectName_alone bare,
    ← dropProjectWords_eq_self_iff, String.append_left_inj, String.append_right_inj]
  rw [← String.toList_inj, String.toList_ofList]

/-- Where exactly the name is declared, the declaration spells its project. -/
theorem declares_of_line (bare : Bare name) {text : String}
    (read : ofString? text = .ok (.project name))
    (line : suggestion text = "implementation project(':" ++ name ++ "')") : Declares text := by
  refine ⟨"project(':" ++ name ++ "')", .project name, .project name, ?_, ?_, read, rfl⟩
  · have word : "implementation " ++ "project(':" = "implementation project(':" := rfl
    rw [line, ← String.append_assoc, ← String.append_assoc, word]
  · exact ofString?_quoted bare

/-- A name that loses the word is declared as another project. -/
theorem not_declares_of_word (bare : Bare name) (begins : projectWord <+: name.toList) :
    ¬ Declares name := by
  rintro ⟨declared, id, own, line, read, spelled, same⟩
  have text : declaration name = declared := (String.append_right_inj _).mp line
  rw [← text, ofString?_declaration bare] at read
  rw [ofString?_alone bare] at spelled
  cases read
  cases spelled
  rw [dependencyName, dependencyName, String.append_right_inj, ← String.toList_inj,
    String.toList_ofList, dropProjectWords_eq_self_iff] at same
  exact same begins

end Lines

theorem suggestion_of_module {text group name : String} {version : Option String}
    (read : ofString? text = .ok (.module group name version)) :
    suggestion text = "implementation " ++ text := by
  rw [suggestion_eq, declaration, isProject_of_module read]
  rfl

/-- **A suggestion declares the dependency that it was made for**, unless that is spelled by a
bare name alone that begins with the word `project`: such a name is declared as another one. -/
theorem suggestion_declares (text : String) :
    (∀ name : String, Bare name → ∀ form ∈ ("", "") :: wordedForms,
      text = form.1 ++ name ++ form.2 →
        (suggestion text = "implementation project(':" ++ name ++ "')" ↔
          ¬ (form = ("", "") ∧ projectWord <+: name.toList)) ∧
        (Declares text ↔ ¬ (form = ("", "") ∧ projectWord <+: name.toList))) ∧
    (∀ (group name : String) (version : Option String),
      ofString? text = .ok (.module group name version) →
        (∃ declared, suggestion text = "implementation " ++ declared ∧
          ofString? declared = .ok (.module group name version)) ∧ Declares text) := by
  refine ⟨?_, fun group name version read => ?_⟩
  · rintro name bare form member rfl
    have known : ∀ form ∈ ("", "") :: wordedForms, form ∈ projectForms := by decide
    have read := bare.ofString?_form (known form member) (.refl _)
    have line : suggestion (form.1 ++ name ++ form.2) =
        "implementation project(':" ++ name ++ "')" ↔
          ¬ (form = ("", "") ∧ projectWord <+: name.toList) := by
      rcases List.mem_cons.mp member with rfl | worded
      · simpa using suggestion_alone_eq_iff bare
      · have named : form ≠ ("", "") := by
          rintro rfl
          exact absurd worded (by decide)
        exact iff_of_true (suggestion_worded bare worded) fun alone => named alone.1
    refine ⟨line, fun declares => ?_,
      fun unworded => declares_of_line bare read (line.mpr unworded)⟩
    rintro ⟨rfl, begins⟩
    exact not_declares_of_word bare begins (by simpa using declares)
  · have line := suggestion_of_module read
    exact ⟨⟨text, line, read⟩, text, _, _, line, read, read, rfl⟩

/-! ### A name that begins with the word, and what else is suggested -/

namespace Projectx

theorem bare : Bare "projectx" where
  filled := by decide +kernel
  solid := by simp; decide
  uncut := by decide +kernel
  unquoted := by simp; decide
  unwrapped := by decide +kernel

end Projectx

/-- Not every spelling of every bare name is declared by the name: `projectx` alone is declared
as `x`. -/
theorem not_forall_suggestion_eq :
    ¬ ∀ name : String, Bare name → ∀ form ∈ ("", "") :: wordedForms,
      suggestion (form.1 ++ name ++ form.2) = "implementation project(':" ++ name ++ "')" := by
  intro every
  have declared : suggestion ("" ++ "projectx" ++ "") = "implementation project(':x')" := by
    decide +kernel
  have line := every "projectx" Projectx.bare ("", "") List.mem_cons_self
  rw [declared] at line
  exact absurd line (by decide +kernel)

theorem suggestion_declares_of_projectx :
    suggestion "project(':projectx')" = "implementation project(':projectx')" ∧
      suggestion "core" = "implementation project(':core')" ∧ ¬ Declares "projectx" ∧
      Declares "project:core" := by
  have called := (suggestion_declares "project(':projectx')").1 "projectx" Projectx.bare
    ("project(':", "')") (by decide) rfl
  have core := (suggestion_declares "core").1 "core" Lookalike.bare ("", "") (by decide) rfl
  have alone := (suggestion_declares "projectx").1 "projectx" Projectx.bare ("", "") (by decide) rfl
  refine ⟨called.1.mpr (by decide), core.1.mpr (by decide +kernel), ?_, ?_⟩
  · exact fun declares => alone.2.mp declares ⟨rfl, by decide +kernel⟩
  · exact ((suggestion_declares "project:core").2 _ _ _ Lookalike.read_module).2

end Dependency

end DependencyAudit
