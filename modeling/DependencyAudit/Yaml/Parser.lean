/-
# DependencyAudit.Yaml.Parser -- tokens to a document

`parse` reads the one document of a text.  A text without any content is no
document, which is `Parsed.nothing`; a second document is refused.

Anchors are numbered by the names known before them, so an anchor whose name is
given again shares its number with the next new name.  An alias takes the number
that its name has there; it stands for the last node of the whole document that
got this number, which may follow it or hold it.

Each reader spends one unit of a budget for each node and each item; four times
the number of tokens covers them.
-/
import DependencyAudit.Yaml.Lexer
import DependencyAudit.Yaml.Node

namespace DependencyAudit.Yaml

set_option autoImplicit false

/-- What is left of the tokens, and what has been named so far. -/
structure Reading where
  tokens : List Token
  /-- The numbers of the anchor names. -/
  numbers : List (List Char × Nat)
  /-- The numbers that anchors got, the latest anchor first. -/
  given : List Nat
  /-- The anchored nodes read so far, each with the count of anchors before it. -/
  nodes : List (Nat × Node)
  /-- The tag handles and what they stand for. -/
  handles : List (List Char × List Char)

/-- Reads from the front of the tokens. -/
abbrev NodeReader := StateT Reading Option

namespace NodeReader

def refuse {α : Type} : NodeReader α := fun _ => none

/-- The next token, which stays; a text ends in an end token. -/
def peek : NodeReader Token := do
  return (← get).tokens.headD .streamEnd

/-- Passes over a token. -/
def skip : NodeReader Unit :=
  modify fun reading => { reading with tokens := reading.tokens.drop 1 }

/-! ## Properties -/

/-- The properties in front of a node. -/
structure Properties where
  anchor : Option (List Char)
  tag : Option (List Char × List Char)

/-- Reads an anchor and a tag, in either order. -/
def properties : NodeReader Properties := do
  match ← peek with
  | .anchor name =>
      skip
      match ← peek with
      | .tag handle suffix => skip; return ⟨some name, some (handle, suffix)⟩
      | _ => return ⟨some name, none⟩
  | .tag handle suffix =>
      skip
      match ← peek with
      | .anchor name => skip; return ⟨some name, some (handle, suffix)⟩
      | _ => return ⟨none, some (handle, suffix)⟩
  | _ => return ⟨none, none⟩

/-- The full text of a tag; its handle must have been given a meaning. -/
def fullTag : Option (List Char × List Char) → NodeReader (Option String)
  | none => return none
  | some (handle, suffix) => do
      if handle.isEmpty then return some (String.ofList suffix)
      else match (← get).handles.lookup handle with
        | some meaning => return some (String.ofList (meaning ++ suffix))
        | none => refuse

/-- Gives a name its number.  The answer is the count of anchors before. -/
def openAnchor : Option (List Char) → NodeReader (Option Nat)
  | none => return none
  | some name => do
      let reading ← get
      let number := reading.numbers.length
      set { reading with
        numbers := (name, number) :: reading.numbers.filter fun (other, _) => other ≠ name
        given := number :: reading.given }
      return some reading.given.length

/-- Keeps an anchored node. -/
def closeAnchor (place : Option Nat) (node : Node) : NodeReader Node := do
  match place with
  | some place => modify fun reading => { reading with nodes := (place, node) :: reading.nodes }
  | none => pure ()
  return node

/-- The alias of a name, which must have a number. -/
def aliased (name : List Char) : NodeReader Node := do
  match (← get).numbers.lookup name with
  | some number => return .aliasOf number
  | none => refuse

/-! ## Nodes -/

/-- Where a node stands: in a block, in a block where a sequence needs no
indentation, or inside of flow brackets. -/
inductive Context where
  | block
  | blockValue
  | flow
deriving DecidableEq

def endsBlockItem (token : Token) : Bool :=
  token = .blockEntry || token = .blockEnd

def endsIndentlessItem (token : Token) : Bool :=
  token = .blockEntry || token = .key || token = .value || token = .blockEnd

def endsBlockField (token : Token) : Bool :=
  token = .key || token = .value || token = .blockEnd

def endsFlowItem (token : Token) : Bool :=
  token = .flowEntry || token = .flowSequenceEnd

def endsFlowField (token : Token) : Bool :=
  token = .flowEntry || token = .flowMappingEnd

/-- The node of nothing, unless there is one. -/
def unlessEnd (ends : Token → Bool) (node : NodeReader Node) : NodeReader Node := do
  if ends (← peek) then return .empty else node

mutual

/-- Reads a node. -/
def node : Nat → Context → NodeReader Node
  | 0, _ => refuse
  | budget + 1, context => do
      match ← peek with
      | .aliasOf name => skip; aliased name
      | _ =>
          let given ← properties
          let tag ← fullTag given.tag
          let place ← openAnchor given.anchor
          let token ← peek
          match token, context with
          | .blockEntry, .blockValue => closeAnchor place (.sequence (← indentlessItems budget))
          | .scalar text style, _ =>
              skip
              closeAnchor place (.scalar (String.ofList text) style tag)
          | .flowSequenceStart, _ =>
              skip
              closeAnchor place (.sequence (← flowItems budget true))
          | .flowMappingStart, _ =>
              skip
              closeAnchor place (.mapping (← flowFields budget true))
          | .blockSequenceStart, .block | .blockSequenceStart, .blockValue =>
              skip
              closeAnchor place (.sequence (← blockItems budget))
          | .blockMappingStart, .block | .blockMappingStart, .blockValue =>
              skip
              closeAnchor place (.mapping (← blockFields budget))
          | _, _ =>
              if given.anchor.isSome || given.tag.isSome then
                closeAnchor place (.scalar "" .plain tag)
              else refuse

/-- Reads the items of a block sequence and its end. -/
def blockItems : Nat → NodeReader (List Node)
  | 0 => refuse
  | budget + 1 => do
      match ← peek with
      | .blockEntry =>
          skip
          let item ← unlessEnd endsBlockItem (node budget .block)
          return item :: (← blockItems budget)
      | .blockEnd => skip; return []
      | _ => refuse

/-- Reads the items of a sequence at the indentation of its key. -/
def indentlessItems : Nat → NodeReader (List Node)
  | 0 => refuse
  | budget + 1 => do
      match ← peek with
      | .blockEntry =>
          skip
          let item ← unlessEnd endsIndentlessItem (node budget .block)
          return item :: (← indentlessItems budget)
      | _ => return []

/-- Reads the fields of a block mapping and its end. -/
def blockFields : Nat → NodeReader (List (Node × Node))
  | 0 => refuse
  | budget + 1 => do
      match ← peek with
      | .key =>
          skip
          let key ← unlessEnd endsBlockField (node budget .blockValue)
          let value ← match ← peek with
            | .value =>
                skip
                unlessEnd endsBlockField (node budget .blockValue)
            | _ => pure .empty
          return (key, value) :: (← blockFields budget)
      | .blockEnd => skip; return []
      | _ => refuse

/-- Passes over the comma that every flow item but the first has before it. -/
def flowSeparator : Bool → NodeReader Unit
  | true => pure ()
  | false => do
      match ← peek with
      | .flowEntry => skip
      | _ => refuse

/-- Reads the items of a flow sequence and its end.  A key in it makes a mapping
of one field. -/
def flowItems : Nat → Bool → NodeReader (List Node)
  | 0, _ => refuse
  | budget + 1, first => do
      if (← peek) = .flowSequenceEnd then skip; return []
      else
        flowSeparator first
        match ← peek with
        | .flowSequenceEnd => skip; return []
        | .key =>
            skip
            let field ← flowPair budget
            return .mapping [field] :: (← flowItems budget false)
        | _ =>
            let item ← node budget .flow
            return item :: (← flowItems budget false)

/-- Reads the field after the key mark in a flow sequence.  Where there is no
key, the token that says so is passed over. -/
def flowPair : Nat → NodeReader (Node × Node)
  | 0 => refuse
  | budget + 1 => do
      let token ← peek
      let key ←
        if token = .value || endsFlowItem token then do skip; pure .empty
        else node budget .flow
      match ← peek with
      | .value =>
          skip
          return (key, ← unlessEnd endsFlowItem (node budget .flow))
      | _ => return (key, .empty)

/-- Reads the fields of a flow mapping and its end. -/
def flowFields : Nat → Bool → NodeReader (List (Node × Node))
  | 0, _ => refuse
  | budget + 1, first => do
      if (← peek) = .flowMappingEnd then skip; return []
      else
        flowSeparator first
        match ← peek with
        | .flowMappingEnd => skip; return []
        | .key =>
            skip
            let key ← unlessEnd (fun token => token = .value || endsFlowField token)
              (node budget .flow)
            let value ← match ← peek with
              | .value =>
                  skip
                  unlessEnd endsFlowField (node budget .flow)
              | _ => pure .empty
            return (key, value) :: (← flowFields budget false)
        | _ =>
            let key ← node budget .flow
            return (key, .empty) :: (← flowFields budget false)

end

/-! ## Documents -/

def defaultHandles : List (List Char × List Char) :=
  [(['!'], ['!']), (['!', '!'], "tag:yaml.org,2002:".toList)]

/-- Reads the directives in front of a document: one version at most, and one
meaning for a handle at most.  The flag says that a version was given. -/
def directives : Nat → Bool → List (List Char × List Char) → NodeReader Unit
  | 0, _, _ => refuse
  | budget + 1, versioned, given => do
      match ← peek with
      | .versionDirective major minor =>
          if versioned || major ≠ 1 || (minor ≠ 1 && minor ≠ 2) then refuse
          else
            skip
            directives budget true given
      | .tagDirective handle meaning =>
          if (given.lookup handle).isSome then refuse
          else
            skip
            directives budget versioned ((handle, meaning) :: given)
      | _ =>
          modify fun reading => { reading with
            handles := given ++ defaultHandles.filter fun (handle, _) =>
              (given.lookup handle).isNone }

/-- The document, or that there is none. -/
inductive Parsed where
  | document (tree : Tree)
  | nothing
deriving Inhabited

/-- The nodes that bear numbers, of several for one number the last to begin. -/
def anchored (reading : Reading) : List (Nat × Node) :=
  let latest := reading.given.zip (List.range reading.given.length).reverse
  latest.filterMap fun (number, place) => (reading.nodes.lookup place).map (number, ·)

def isDirective : Token → Bool
  | .versionDirective _ _ | .tagDirective _ _ => true
  | _ => false

/-- Whether an explicit document has no content. -/
def endsContent (token : Token) : Bool :=
  isDirective token || token = .documentStart || token = .documentEnd || token = .streamEnd

/-- Passes over the marks that end a document. -/
def skipEnds : Nat → NodeReader Unit
  | 0 => refuse
  | budget + 1 => do
      if (← peek) = .documentEnd then
        skip
        skipEnds budget

/-- Reads the only document and the end of the text. -/
def document (budget : Nat) : NodeReader Parsed := do
  let token ← peek
  if token = .streamEnd then return .nothing
  else
    let explicit := isDirective token || token = .documentStart
    directives budget false []
    let root ←
      if explicit then do
        if (← peek) = .documentStart then
          skip
          unlessEnd endsContent (node budget .block)
        else refuse
      else node budget .block
    skipEnds budget
    if (← peek) = .streamEnd then return .document ⟨root, anchored (← get)⟩ else refuse

end NodeReader

/-- The document of a text, all characters of which must be allowed. -/
def parse (cs : List Char) : Option NodeReader.Parsed := do
  if !cs.all isAllowed then none
  else
    let tokens ← tokens? cs
    ((NodeReader.document (4 * tokens.length + 4)).run ⟨tokens, [], [], [], []⟩).map Prod.fst

end DependencyAudit.Yaml
