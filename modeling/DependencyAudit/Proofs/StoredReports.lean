/-
# DependencyAudit.Proofs.StoredReports -- reports that are written come back

A report is written as keys with their lists, in YAML to a file and in JSON for other programs.
Either text decodes to the lists as they stand, and so to the report (`reads_back`): names that
look like numbers, flags, comments or marks of YAML are no exception, as long as there is no
line break in them (`Yaml.OneLine`).
-/
import DependencyAudit.Proofs.Decoders
import DependencyAudit.Proofs.PrettyJson
import DependencyAudit.Proofs.TextOctets
import DependencyAudit.Proofs.Ways
import DependencyAudit.Proofs.YamlDocuments
import DependencyAudit.Report.Console

namespace DependencyAudit

set_option autoImplicit false

open Yaml.Lexer Yaml.NodeReader

/-! ## YAML -/

namespace Document

theorem ofNode_mapping (fields : List (Yaml.Node × Yaml.Node)) :
    ofNode (.mapping fields) =
      .record (fields.map fun field => (ofNode field.1, ofNode field.2)) := by
  have named : ofNode.named fields = fields.map fun field => (ofNode field.1, ofNode field.2) := by
    induction fields with
    | nil => rw [ofNode.named, List.map_nil]
    | cons field fields same => rw [ofNode.named, same, List.map_cons]
  rw [ofNode, named]

theorem ofNode_scalar (text : String) (style : Yaml.ScalarStyle) (tag : Option String) :
    ofNode (.scalar text style tag) = .leaf (ofScalar text style tag) := by
  rw [ofNode]

/-- A scalar is a text, however it is written. -/
theorem decodes_scalar (text : String) (style : Yaml.ScalarStyle) :
    Decodes (Document.text (ofNode (.scalar text style none))) text := by
  intro anchors hops
  rw [ofNode_scalar]
  rfl

theorem decodes_items (texts : List String) :
    Decodes (Document.texts (ofNode (.sequence (texts.map itemNode)))) texts := by
  have items : Decodes ((texts.map fun text => ofNode (itemNode text)).mapM Document.text)
      texts := by
    refine decodes_mapM (List.forall₂_map_left_iff.mpr ?_)
    exact List.forall₂_same.mpr fun text _ => decodes_scalar text _
  intro anchors hops
  rw [ofNode, List.map_map]
  exact items anchors hops

end Document

namespace Report

open Document
open Yaml (OneLine)

/-- The keys of a report with their lists. -/
def keyed (report : Report) : List (String × List String) :=
  [(requiredKey, report.required.toList), (apiRequiredKey, report.apiRequired.toList),
    (implicitKey, report.implicit.toList), (unusedKey, report.unused.toList)]

theorem toYaml_eq_listings (report : Report) :
    report.toYaml = report.keyed.flatMap fun field => Yaml.Printer.listing field.1 field.2 := by
  simp [toYaml, keyed]

/-- The lists of a document, as they stand. -/
def listsOfDocument (document : Document) : Decoder (List (List String)) := do
  (← document.fields keys).mapM (Document.fieldOr [] Document.texts)

/-- The lists of a report, as they stand. -/
def lists (report : Report) : List (List String) :=
  report.keyed.map Prod.snd

/-- A document with a list for each key gives a report, and gives its lists as they stand. -/
theorem decodes_of_fields {document required apiRequired implicit unused : Document}
    (report : Report)
    (fields : Decodes (document.fields keys)
      [some required, some apiRequired, some implicit, some unused])
    (first : Decodes required.texts report.required.toList)
    (second : Decodes apiRequired.texts report.apiRequired.toList)
    (third : Decodes implicit.texts report.implicit.toList)
    (fourth : Decodes unused.texts report.unused.toList) :
    Decodes (ofDocument document) report ∧ Decodes (listsOfDocument document) report.lists := by
  have names : ∀ {document : Document} {set : NameSet}, Decodes document.texts set.toList →
      Decodes (namesOfDocument document) set := by
    intro document set texts
    have listed : Decodes (namesOfDocument document) (.ofList set.toList) :=
      texts.bind (decodes_pure _)
    rwa [NameSet.ofList_toList] at listed
  constructor
  · exact fields.bind ((names first).bind ((names second).bind ((names third).bind
      ((names fourth).bind (decodes_pure report)))))
  · exact fields.bind (decodes_mapM (.cons first (.cons second (.cons third (.cons fourth .nil)))))

theorem decodes_nodes (report : Report) :
    Decodes (ofDocument (ofNode (.mapping (report.keyed.map fieldNodes)))) report := by
  have fields : Decodes ((ofNode (.mapping (report.keyed.map fieldNodes))).fields keys)
      (report.lists.map fun texts => some (ofNode (.sequence (texts.map itemNode)))) := by
    intro anchors hops
    rw [ofNode_mapping]
    simp only [keyed, lists, List.map_cons, List.map_nil, fieldNodes, ofNode_scalar]
    rfl
  exact (decodes_of_fields report fields (decodes_items _) (decodes_items _) (decodes_items _)
    (decodes_items _)).1

theorem plainly_keyed {report : Report}
    (oneLine : ∀ texts ∈ report.lists, ∀ text ∈ texts, OneLine text) :
    ∀ field ∈ report.keyed, Plainly field := by
  have keys : ∀ key ∈ [requiredKey, apiRequiredKey, implicitKey, unusedKey], Bare key.toList := by
    simp only [List.forall_mem_cons]
    refine ⟨?_, ?_, ?_, ?_, nofun⟩
    · constructor <;> simp [requiredKey]
    · constructor <;> simp [apiRequiredKey]
    · constructor <;> simp [implicitKey]
    · constructor <;> simp [unusedKey]
  have bare : ∀ field ∈ report.keyed, Bare field.1.toList := fun field member =>
    keys field.1 (List.mem_map_of_mem member)
  exact fun field member => ⟨bare field member, oneLine field.2 (List.mem_map_of_mem member)⟩

/-- The text of a report in YAML gives the report. -/
theorem ofYaml?_toYaml {report : Report}
    (oneLine : ∀ texts ∈ report.lists, ∀ text ∈ texts, OneLine text) :
    ofYaml? report.toYaml = some report := by
  have parsed := Yaml.parse_listings (by simp [keyed] : report.keyed ≠ []) (plainly_keyed oneLine)
  rw [ofYaml?, ofYamlText, toYaml_eq_listings, parsed, Option.map_some, Option.bind_some,
    Source.decode]
  exact congrArg (Option.map Prod.fst) (decodes_nodes report _ _)

theorem save_of_stored {report : Report} {files : FileSystem} {path : Path}
    (stored : (files.store path (Text.Utf8.encode report.toYaml)).2 = true) :
    report.save files path = ((files.store path (Text.Utf8.encode report.toYaml)).1, .ok ()) := by
  simp [save, stored]

/-- A report that was stored is loaded again, as long as its file stays as it is. -/
theorem load_of_saved {report : Report}
    (oneLine : ∀ texts ∈ report.lists, ∀ text ∈ texts, OneLine text)
    {files saved later : FileSystem} {path : Path}
    (stored : report.save files path = (saved, .ok ()))
    (kept : later.read? path = saved.read? path) : load later path = .ok report := by
  have octets := FileSystem.read?_of_store (store_of_saved stored)
  have text : later.readText? path = some report.toYaml := by
    rw [FileSystem.readText?, kept, octets, Option.bind_some]
    exact Text.Utf8.decode?_encode report.toYaml
  rw [load, text, Option.bind_some, ofYaml?_toYaml oneLine]

/-! ## JSON -/

theorem written_report (report : Report) : Json.Written report.toJson := by
  have texts := Json.written_texts
  refine .object _ fun field member => ?_
  simp only [List.mem_cons, List.not_mem_nil, or_false] at member
  rcases member with rfl | rfl | rfl | rfl | rfl | rfl | rfl
  · exact .text _
  · exact texts _
  · exact texts _
  · exact texts _
  · exact texts _
  · exact texts _
  · refine .object _ fun size among => ?_
    simp only [List.mem_cons, List.not_mem_nil, or_false] at among
    rcases among with rfl | rfl | rfl | rfl <;> exact .natural _

/-- The keys of a report are found among those that printing adds. -/
theorem decodes_report (report : Report) :
    Decodes (ofDocument (ofJson report.toJson)) report ∧
      Decodes (listsOfDocument (ofJson report.toJson)) report.lists := by
  have fields : Decodes ((ofJson report.toJson).fields keys)
      [some (ofJson (.ofTexts report.required.toList)),
        some (ofJson (.ofTexts report.apiRequired.toList)),
        some (ofJson (.ofTexts report.implicit.toList)),
        some (ofJson (.ofTexts report.unused.toList))] := by
    intro anchors hops
    rw [toJson, ofJson_object]
    rfl
  exact decodes_of_fields report fields (decodes_texts _) (decodes_texts _) (decodes_texts _)
    (decodes_texts _)

theorem ofJsonText_print {presentation : Presentation} (json : presentation.format = .json)
    (report : Report) :
    ofJsonText (report.print presentation).toList = some (alone (ofJson report.toJson)) := by
  rw [print, json]
  change ofJsonText (line report.toJson.pretty).toList = _
  rw [line, String.toList_append, ofJsonText]
  exact congrArg (Option.map _) (Json.parseChars_pretty report.written_report)

/-! ## The whole -/

/-- Two lists of the same names, in any order and any number of times. -/
def SameNames (names others : List String) : Prop :=
  ∀ name, name ∈ names ↔ name ∈ others

/-- The names of a list, each once and in order. -/
structure Sorted (names : NameSet) (given : List String) : Prop where
  ascending : names.toList.Pairwise (· < ·)
  same : SameNames names.toList given

theorem sorted_ofList (given : List String) : Sorted (.ofList given) given :=
  ⟨(NameSet.ofList given).ascending, fun _ => NameSet.mem_ofList⟩

theorem ofSets_eq_ofLists (sets : DependencySets) :
    ofSets sets = ofLists sets.required.toList sets.apiRequired.toList sets.implicit.toList
      sets.unused.toList := by
  simp only [ofSets, ofLists, NameSet.ofList_toList]

/-- The lists of a report are the names that were given for them. -/
structure ReportsOn (report : Report) (required apiRequired implicit unused : List String) :
    Prop where
  required : Sorted report.required required
  apiRequired : Sorted report.apiRequired apiRequired
  implicit : Sorted report.implicit implicit
  unused : Sorted report.unused unused

/-- A report is loaded from the file that it was stored in, as long as the file stays as it is. -/
def ReturnsFromFile (report : Report) : Prop :=
  ∀ files saved later path, report.save files path = (saved, .ok ()) →
    later.read? path = saved.read? path → load later path = .ok report

/-- A report is read from the JSON that is printed of it, and its lists as they stand there. -/
def ReturnsFromJson (report : Report) : Prop :=
  ∀ presentation, presentation.format = .json → ∃ source,
    ofJsonText (report.print presentation).toList = some source ∧
      source.decode ofDocument = some report ∧ source.decode listsOfDocument = some report.lists

theorem returnsFromJson (report : Report) : report.ReturnsFromJson := by
  intro presentation json
  obtain ⟨whole, parts⟩ := decodes_report report
  refine ⟨_, ofJsonText_print json _, ?_, ?_⟩
  · exact congrArg (Option.map Prod.fst) (whole _ _)
  · exact congrArg (Option.map Prod.fst) (parts _ _)

theorem oneLine_lists {required apiRequired implicit unused : List String}
    (oneLine : ∀ text ∈ required ++ apiRequired ++ implicit ++ unused, OneLine text) :
    ∀ texts ∈ (ofLists required apiRequired implicit unused).lists, ∀ text ∈ texts,
      OneLine text := by
  intro texts among text member
  refine oneLine text ?_
  simp only [lists, keyed, List.map_cons, List.map_nil, List.mem_cons, List.not_mem_nil,
    or_false] at among
  simp only [List.mem_append]
  rcases among with rfl | rfl | rfl | rfl
  · exact .inl (.inl (.inl (NameSet.mem_ofList.mp member)))
  · exact .inl (.inl (.inr (NameSet.mem_ofList.mp member)))
  · exact .inl (.inr (NameSet.mem_ofList.mp member))
  · exact .inr (NameSet.mem_ofList.mp member)

/-- **What is reported comes back**, from a file as from printed JSON.  The lists of a report are
sorted and have the names that they were given; a report depends on nothing but these, and the
report on what an audit has found is the report on the names of it. -/
theorem reads_back {required apiRequired implicit unused : List String}
    (oneLine : ∀ text ∈ required ++ apiRequired ++ implicit ++ unused, OneLine text) :
    (ofLists required apiRequired implicit unused).ReturnsFromFile ∧
    (ofLists required apiRequired implicit unused).ReturnsFromJson ∧
    (ofLists required apiRequired implicit unused).ReportsOn required apiRequired implicit unused ∧
    (∀ required' apiRequired' implicit' unused', SameNames required' required →
      SameNames apiRequired' apiRequired → SameNames implicit' implicit → SameNames unused' unused →
      ofLists required' apiRequired' implicit' unused' =
        ofLists required apiRequired implicit unused) ∧
    ∀ sets required' apiRequired' implicit' unused', SameNames required' sets.required.toList →
      SameNames apiRequired' sets.apiRequired.toList → SameNames implicit' sets.implicit.toList →
      SameNames unused' sets.unused.toList →
      ofSets sets = ofLists required' apiRequired' implicit' unused' := by
  refine ⟨?_, returnsFromJson _, ?_, ?_, ?_⟩
  · exact fun files saved later path stored kept =>
      load_of_saved (oneLine_lists oneLine) stored kept
  · exact ⟨sorted_ofList _, sorted_ofList _, sorted_ofList _, sorted_ofList _⟩
  · exact fun _ _ _ _ same sameApi sameImplicit sameUnused =>
      ofLists_congr same sameApi sameImplicit sameUnused
  · intro sets _ _ _ _ same sameApi sameImplicit sameUnused
    rw [ofSets_eq_ofLists]
    exact (ofLists_congr same sameApi sameImplicit sameUnused).symm

/-! ### Names that look like something else -/

namespace Disguised

def required : List String := ["true", "1.0", "null", "~", "0x1F", "true"]

def apiRequired : List String := ["# x", "- a", "k: v", "'q'", "\"", "[x]", "---", ""]

def implicit : List String := [" a ", "\uFEFF\\", "日本 : #"]

def report : Report := ofLists required apiRequired implicit []

def files : FileSystem where
  entries := []
  workingDirectory := []
  clock := 0

def target : Path := ⟨"out/report.yaml"⟩

end Disguised

theorem reads_back_of_disguised :
    ∃ saved, Disguised.report.save Disguised.files Disguised.target = (saved, .ok ()) ∧
      load saved Disguised.target = .ok Disguised.report ∧
      ∃ source, ofJsonText (Disguised.report.print ⟨.json, true, false⟩).toList = some source ∧
        source.decode ofDocument = some Disguised.report := by
  have oneLine : ∀ text ∈ Disguised.required ++ Disguised.apiRequired ++ Disguised.implicit ++ [],
      OneLine text := by
    simp [Disguised.required, Disguised.apiRequired, Disguised.implicit, OneLine, Yaml.isBreak]
  obtain ⟨file, json, _⟩ := reads_back oneLine
  have stored : ∀ octets, (Disguised.files.store Disguised.target octets).2 = true := by
    intro octets
    rfl
  have saved := save_of_stored (stored (Text.Utf8.encode Disguised.report.toYaml))
  obtain ⟨source, parsed, decoded, _⟩ := json ⟨.json, true, false⟩ rfl
  exact ⟨_, saved, file _ _ _ _ saved rfl, source, parsed, decoded⟩

end Report

end DependencyAudit
