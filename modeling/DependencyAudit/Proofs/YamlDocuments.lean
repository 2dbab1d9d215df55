/-
# DependencyAudit.Proofs.YamlDocuments -- lists under keys in YAML read back

A reader of nodes takes some tokens and leaves the rest, without a word about anchors (`Reads`).
So the tokens of keys with their lists come to a mapping of sequences (`reads_fields`), and a
text of such lists to a document that says what is in them (`parse_listings`).
-/
import DependencyAudit.Proofs.YamlLines
import DependencyAudit.Yaml.Parser

namespace DependencyAudit.Yaml

set_option autoImplicit false

open Printer Lexer

namespace NodeReader

/-- A reader takes the front of some tokens, leaves the rest, and changes nothing else. -/
def Reads {α : Type} (reader : NodeReader α) (tokens rest : List Token) (value : α) : Prop :=
  ∀ numbers given nodes handles,
    reader ⟨tokens, numbers, given, nodes, handles⟩ =
      some (value, ⟨rest, numbers, given, nodes, handles⟩)

section Readers

variable {α β : Type} {tokens between rest : List Token}

theorem bind_of_run {reader : NodeReader α} {next : α → NodeReader β} {reading after : Reading}
    {value : α} (run : reader reading = some (value, after)) :
    (reader >>= next) reading = next value after := by
  change (reader reading).bind _ = _
  rw [run]
  rfl

theorem reads_pure (value : α) (tokens : List Token) :
    Reads (pure value) tokens tokens value :=
  fun _ _ _ _ => rfl

theorem Reads.bind {reader : NodeReader α} {next : α → NodeReader β} {value : α} {result : β}
    (first : Reads reader tokens between value) (second : Reads (next value) between rest result) :
    Reads (reader >>= next) tokens rest result := by
  intro numbers given nodes handles
  rw [bind_of_run (first numbers given nodes handles)]
  exact second numbers given nodes handles

theorem reads_peek (token : Token) (rest : List Token) :
    Reads peek (token :: rest) (token :: rest) token :=
  fun _ _ _ _ => rfl

theorem reads_skip (token : Token) (rest : List Token) : Reads skip (token :: rest) rest () :=
  fun _ _ _ _ => rfl

theorem reads_unlessEnd {ends : Token → Bool} {reader : NodeReader Node} {token : Token}
    {value : Node} (goesOn : ends token = false)
    (reads : Reads reader (token :: tokens) rest value) :
    Reads (unlessEnd ends reader) (token :: tokens) rest value := by
  refine (reads_peek token tokens).bind ?_
  rw [if_neg (Bool.eq_false_iff.mp goesOn)]
  exact reads

/-! ## Nodes -/

theorem reads_scalar (budget : Nat) (context : Context) (text : String) (style : ScalarStyle)
    (rest : List Token) :
    Reads (node (budget + 1) context) (.scalar text.toList style :: rest) rest
      (.scalar text style none) := by
  intro numbers given nodes handles
  conv => rhs; rw [← @String.ofList_toList text]
  rw [node]
  cases context <;> rfl

/-- The node of an item. -/
def itemNode (text : String) : Node := .scalar text (style text).read none

theorem reads_indentless : ∀ {texts : List String} {budget : Nat} {rest : List Token},
    texts.length < budget → rest.head? ≠ some .blockEntry →
      Reads (indentlessItems budget) (texts.flatMap itemTokens ++ rest) rest (texts.map itemNode)
  | [], budget + 1, rest, _, ends => by
      intro numbers given nodes handles
      rw [indentlessItems]
      cases rest with
      | nil => rfl
      | cons token rest =>
          cases token with
          | blockEntry => exact absurd rfl ends
          | _ => rfl
  | text :: texts, budget + 1, rest, enough, ends => by
      obtain ⟨left, rfl⟩ : ∃ left, budget = left + 1 := ⟨budget - 1, by simp at enough; omega⟩
      have item : Reads (unlessEnd endsIndentlessItem (node (left + 1) .block)) _ _ _ :=
        reads_unlessEnd rfl (reads_scalar left .block text (style text).read
          (texts.flatMap itemTokens ++ rest))
      have more := @reads_indentless texts (left + 1) rest (by simpa using enough) ends
      rw [indentlessItems]
      exact (reads_peek _ _).bind ((reads_skip _ _).bind
        (item.bind (more.bind (reads_pure _ _))))

theorem reads_list {budget : Nat} {texts : List String} {rest : List Token}
    (enough : texts.length + 1 < budget) (ends : rest.head? ≠ some .blockEntry) :
    Reads (node budget .blockValue) (listTokens texts ++ rest) rest
      (.sequence (texts.map itemNode)) := by
  obtain ⟨left, rfl⟩ : ∃ left, budget = left + 1 := ⟨budget - 1, by omega⟩
  cases texts with
  | nil =>
      obtain ⟨last, rfl⟩ : ∃ last, left = last + 1 := ⟨left - 1, by simp at enough; omega⟩
      have nothing : Reads (flowItems (last + 1) true) (.flowSequenceEnd :: rest) rest [] := by
        intro numbers given nodes handles
        rw [flowItems]
        rfl
      have body : Reads (skip >>= fun _ => flowItems (last + 1) true >>= fun items =>
          closeAnchor none (.sequence items)) (listTokens [] ++ rest) rest (.sequence []) :=
        (reads_skip _ _).bind (nothing.bind (reads_pure _ _))
      intro numbers given nodes handles
      rw [node]
      exact body numbers given nodes handles
  | cons text texts =>
      have body : Reads (indentlessItems left >>= fun items => closeAnchor none (.sequence items))
          (listTokens (text :: texts) ++ rest) rest (.sequence ((text :: texts).map itemNode)) :=
        (reads_indentless (by omega) ends).bind (reads_pure _ _)
      intro numbers given nodes handles
      rw [node]
      exact body numbers given nodes handles

theorem length_le_listTokens (texts : List String) : texts.length ≤ (listTokens texts).length := by
  cases texts with
  | nil => exact Nat.zero_le _
  | cons text texts =>
      have pairs : ∀ texts : List String, texts.length ≤ (texts.flatMap itemTokens).length := by
        intro texts
        induction texts with
        | nil => exact Nat.le_refl _
        | cons text texts shorter =>
            rw [List.flatMap_cons, List.length_append, List.length_cons]
            simp only [itemTokens, List.length_cons, List.length_nil]
            omega
      exact pairs (text :: texts)

theorem reads_value {budget : Nat} {texts : List String} {rest : List Token}
    (enough : texts.length + 1 < budget) (ends : rest.head? ≠ some .blockEntry) :
    Reads (unlessEnd endsBlockField (node budget .blockValue)) (listTokens texts ++ rest) rest
      (.sequence (texts.map itemNode)) := by
  have reads := reads_list enough ends
  cases texts with
  | nil => exact reads_unlessEnd rfl reads
  | cons text texts => exact reads_unlessEnd rfl reads

/-- The node of a key and the node of its list. -/
def fieldNodes (field : String × List String) : Node × Node :=
  (.scalar field.1 .plain none, .sequence (field.2.map itemNode))

theorem reads_fields {rest : List Token} : ∀ {fields : List (String × List String)} {budget : Nat},
    (fields.flatMap fieldTokens).length < budget →
      Reads (blockFields budget) (fields.flatMap fieldTokens ++ .blockEnd :: rest) rest
        (fields.map fieldNodes)
  | [], budget + 1, _ => by
      intro numbers given nodes handles
      rw [blockFields]
      rfl
  | field :: fields, budget + 1, enough => by
      obtain ⟨name, texts⟩ := field
      rw [List.flatMap_cons, List.length_append, fieldTokens] at enough
      simp only [List.length_cons] at enough
      obtain ⟨left, rfl⟩ : ∃ left, budget = left + 1 := ⟨budget - 1, by omega⟩
      have more := @reads_fields rest fields (left + 1) (by omega)
      have key : Reads (unlessEnd endsBlockField (node (left + 1) .blockValue)) _ _ _ :=
        reads_unlessEnd rfl (reads_scalar left .blockValue name .plain
          (.value :: (listTokens texts ++ (fields.flatMap fieldTokens ++ .blockEnd :: rest))))
      have ends : (fields.flatMap fieldTokens ++ .blockEnd :: rest).head? ≠ some .blockEntry := by
        cases fields <;> simp [fieldTokens]
      have width := length_le_listTokens texts
      have value := @reads_value (left + 1) texts _ (by omega) ends
      rw [blockFields, List.flatMap_cons, List.append_assoc]
      exact (reads_peek _ _).bind ((reads_skip _ _).bind (key.bind ((reads_peek _ _).bind
        ((reads_skip _ _).bind (value.bind (more.bind (reads_pure _ _)))))))

theorem reads_mapping {fields : List (String × List String)} {budget : Nat} {rest : List Token}
    (enough : (fields.flatMap fieldTokens).length + 1 < budget) :
    Reads (node budget .block)
      (.blockMappingStart :: (fields.flatMap fieldTokens ++ .blockEnd :: rest)) rest
      (.mapping (fields.map fieldNodes)) := by
  obtain ⟨left, rfl⟩ : ∃ left, budget = left + 1 := ⟨budget - 1, by omega⟩
  have body : Reads (skip >>= fun _ => blockFields left >>= fun fields =>
      closeAnchor none (.mapping fields))
      (.blockMappingStart :: (fields.flatMap fieldTokens ++ .blockEnd :: rest)) rest
      (.mapping (fields.map fieldNodes)) :=
    (reads_skip _ _).bind ((reads_fields (by omega)).bind (reads_pure _ _))
  intro numbers given nodes handles
  rw [node]
  exact body numbers given nodes handles

/-- **The tokens of keys with their lists come to a mapping of sequences.** -/
theorem document_fields {fields : List (String × List String)} {budget : Nat}
    (enough : (fields.flatMap fieldTokens).length + 1 < budget) :
    document budget ⟨.blockMappingStart :: fields.flatMap fieldTokens ++
        [.blockEnd, .streamEnd], [], [], [], []⟩ =
      some (.document ⟨.mapping (fields.map fieldNodes), []⟩,
        ⟨[.streamEnd], [], [], [], defaultHandles⟩) := by
  obtain ⟨left, rfl⟩ : ∃ left, budget = left + 1 := ⟨budget - 1, by omega⟩
  have root := @reads_mapping fields (left + 1) [.streamEnd] enough [] [] [] defaultHandles
  have start : ∀ rest, directives (left + 1) false [] ⟨.blockMappingStart :: rest, [], [], [], []⟩ =
      some ((), ⟨.blockMappingStart :: rest, [], [], [], defaultHandles⟩) := by
    intro rest
    rw [directives]
    rfl
  have ends : skipEnds (left + 1) ⟨[.streamEnd], [], [], [], defaultHandles⟩ =
      some ((), ⟨[.streamEnd], [], [], [], defaultHandles⟩) := by
    rw [skipEnds]
    rfl
  have peeked : ∀ rest, peek ⟨.blockMappingStart :: rest, [], [], [], []⟩ =
      some (.blockMappingStart, ⟨.blockMappingStart :: rest, [], [], [], []⟩) := fun _ => rfl
  have last : peek ⟨[.streamEnd], [], [], [], defaultHandles⟩ = some (.streamEnd, _) := rfl
  rw [document, List.cons_append, bind_of_run (peeked _), if_neg (by decide), bind_of_run (start _),
    if_neg (by decide), bind_of_run root]
  refine (bind_of_run ends).trans ((bind_of_run last).trans ?_)
  rw [if_pos rfl]
  rfl

end Readers

end NodeReader

/-! ## Texts -/

open NodeReader

theorem isAllowed_item {text : String} (inline : OneLine text) :
    ∀ c ∈ item text, isAllowed c = true := by
  have marks : isAllowed '-' = true ∧ isAllowed ' ' = true ∧ isAllowed '\n' = true := by decide
  intro c member
  rw [item_eq_line inline] at member
  simp only [List.cons_append, List.mem_cons, List.mem_append, List.not_mem_nil, or_false] at member
  rcases member with rfl | rfl | inside | rfl
  · exact marks.1
  · exact marks.2.1
  · exact isAllowed_scalar inline c inside
  · exact marks.2.2

theorem isAllowed_listing {field : String × List String} (plainly : Plainly field) :
    ∀ c ∈ listing field.1 field.2, isAllowed c = true := by
  have key : ∀ c ∈ field.1.toList, isAllowed c = true := fun c member =>
    (solid_of_isAlpha (plainly.bare.letters c member)).2.2.2
  have brackets : ∀ c ∈ ": []\n".toList, isAllowed c = true := List.all_eq_true.mp (by decide)
  have colon : ∀ c ∈ ":\n".toList, isAllowed c = true := List.all_eq_true.mp (by decide)
  intro c member
  unfold listing at member
  split at member
  · exact (List.mem_append.mp member).elim (key c) (brackets c)
  · rcases List.mem_append.mp member with front | items
    · exact (List.mem_append.mp front).elim (key c) (colon c)
    · obtain ⟨text, among, inside⟩ := List.mem_flatMap.mp items
      exact isAllowed_item (plainly.inline text among) c inside

/-- **Keys with their lists read back**: a mapping of each key to the sequence of its texts. -/
theorem parse_listings {fields : List (String × List String)} (nonempty : fields ≠ [])
    (plainly : ∀ field ∈ fields, Plainly field) :
    parse (fields.flatMap fun field => listing field.1 field.2) =
      some (.document ⟨.mapping (fields.map fieldNodes), []⟩) := by
  have allowed : (fields.flatMap fun field => listing field.1 field.2).all isAllowed = true := by
    refine List.all_eq_true.mpr fun c member => ?_
    obtain ⟨field, among, inside⟩ := List.mem_flatMap.mp member
    exact isAllowed_listing (plainly field among) c inside
  obtain ⟨first, more, rfl⟩ := List.exists_cons_of_ne_nil nonempty
  let tokens := .blockMappingStart :: (first :: more).flatMap fieldTokens ++ [.blockEnd, .streamEnd]
  have read := @document_fields (first :: more) (4 * tokens.length + 4)
    (by simp only [tokens, List.length_append, List.length_cons]; omega)
  rw [parse, allowed, tokens?_listings plainly]
  exact congrArg (Option.map Prod.fst) read

end DependencyAudit.Yaml
