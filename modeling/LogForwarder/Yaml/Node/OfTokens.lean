import LogForwarder.Yaml.Lexer
import LogForwarder.Yaml.Node

/-!
# From tokens to a document

Nodes are read by recursive descent. A node that is left out, as a value after its colon may be, is
an empty scalar; a reference stands for the anchor of its name that was read last.

A text spells any number of documents: `Document.readStream?` reads them all, and `Document.read?`
reads a text with one document, or with none.
-/

namespace LogForwarder.Yaml

/-- What the tag handles of a document stand for. -/
abbrev TagHandles := List (String × String)

/-- The handles that need no directive. -/
def TagHandles.standard : TagHandles := [("!", "!"), ("!!", "tag:yaml.org,2002:")]

/-- A tag in full. -/
def TagHandles.resolve? (handles : TagHandles) (handle suffix : String) : Option String :=
  if handle = "" then some suffix else (handles.lookup handle).map (· ++ suffix)

/-! ## The state of reading -/

/-- The tokens not yet read, and the numbers of the anchors read so far. -/
structure NodeReader where
  tokens : List Token
  anchors : List (String × Nat) := []

/-- A step of reading, which may find that the tokens spell no document. -/
abbrev Read := StateT NodeReader Option

namespace Read

/-- The next token. -/
def peek : Read (Option Token) := do return (← get).tokens.head?

/-- Passes the next token. -/
def advance : Read Unit := modify fun s => { s with tokens := s.tokens.drop 1 }

/-- Passes the next token if it is this one, and says whether it was. -/
def accept (t : Token) : Read Bool := do
  if (← peek) == some t then
    advance
    return true
  else return false

/-- Passes the next token, which has to be this one. -/
def expect (t : Token) : Read Unit := do
  if ← accept t then return () else failure

/-- Whether the next token is one of these. -/
def isAt (ts : List Token) : Read Bool := do return (← peek).any (· ∈ ts)

/-- Numbers an anchor by how many names were anchored before it. -/
def register (name : String) : Read Nat := do
  let anchors := (← get).anchors
  let id := anchors.length
  modify fun s => { s with anchors := (name, id) :: anchors.filter (·.1 ≠ name) }
  return id

/-- The number under which a name was anchored last. -/
def anchorOf (name : String) : Read Nat := do
  match (← get).anchors.lookup name with
  | some id => return id
  | none => failure

/-! ## Properties of a node -/

/-- The anchor that stands next, if one does. -/
def anchor? : Read (Option String) := do
  match ← peek with
  | some (.anchor name) => advance; return some name
  | _ => return none

/-- The tag that stands next, if one does. Its handle has to be known. -/
def tag? (handles : TagHandles) : Read (Option String) := do
  match ← peek with
  | some (.tag handle suffix) =>
    advance
    match handles.resolve? handle suffix with
    | some tag => return some tag
    | none => failure
  | _ => return none

/-- The anchor and the tag of a node, which stand before it in either order. -/
def properties (handles : TagHandles) : Read (Option String × Option String) := do
  match ← anchor? with
  | some name => return (some name, ← tag? handles)
  | none =>
    let tag ← tag? handles
    if tag.isSome then return (← anchor?, tag) else return (none, none)

/-- Numbers the anchor of a node, if it has one, before the node itself is read. -/
def anchoring (name : Option String) (node : Read Node) : Read Node := do
  match name with
  | some name =>
    let id ← register name
    return .anchored id (← node)
  | none => node

/-- A node of which only the properties are there. -/
def leftOut (name tag : Option String) : Read Node :=
  if name.isSome || tag.isSome then return .scalar tag .plain "" else failure

/-! ## Nodes

The first argument bounds the depth of the recursion, by which every function here reads on. -/

mutual

/-- A node. In block context it may be a block collection, and where `indentless` holds a sequence
whose dashes stand no further right than the key. -/
def node (handles : TagHandles) : Nat → (inBlock indentless : Bool) → Read Node
  | 0, _, _ => failure
  | fuel + 1, inBlock, indentless => do
    match ← peek with
    | some (.reference name) => advance; return .reference (← anchorOf name)
    | _ =>
      let (name, tag) ← properties handles
      anchoring name do
        match ← peek with
        | some (.scalar style text) =>
          advance
          return .scalar (tag.filter (· ≠ "!")) style text
        | some .flowSequence => advance; return .sequence tag (← flowItems handles fuel true)
        | some .flowMapping => advance; return .mapping tag (← flowEntries handles fuel true)
        | some .blockEntry =>
          if indentless then return .sequence tag (← indentlessItems handles fuel)
          else leftOut name tag
        | some .blockSequence =>
          if inBlock then advance; return .sequence tag (← blockItems handles fuel)
          else leftOut name tag
        | some .blockMapping =>
          if inBlock then advance; return .mapping tag (← blockEntries handles fuel)
          else leftOut name tag
        | _ => leftOut name tag

/-- A node in block context, or the empty one before some of the tokens. -/
def blockNode (handles : TagHandles) : Nat → Bool → List Token → Read Node
  | 0, _, _ => failure
  | fuel + 1, indentless, ends => do
    if ← isAt ends then return .empty else node handles fuel true indentless

/-- A node in flow context, or the empty one before some of the tokens. -/
def flowNode (handles : TagHandles) : Nat → List Token → Read Node
  | 0, _ => failure
  | fuel + 1, ends => do
    if ← isAt ends then return .empty else node handles fuel false false

/-- The items of a block sequence, to its end. -/
def blockItems (handles : TagHandles) : Nat → Read (List Node)
  | 0 => failure
  | fuel + 1 => do
    if ← accept .blockEnd then return []
    expect .blockEntry
    let item ← blockNode handles fuel false [.blockEntry, .blockEnd]
    return item :: (← blockItems handles fuel)

/-- The items of a sequence that stands under its key. -/
def indentlessItems (handles : TagHandles) : Nat → Read (List Node)
  | 0 => failure
  | fuel + 1 => do
    if ← accept .blockEntry then
      let item ← blockNode handles fuel false [.blockEntry, .key, .value, .blockEnd]
      return item :: (← indentlessItems handles fuel)
    else return []

/-- The entries of a block mapping, to its end. -/
def blockEntries (handles : TagHandles) : Nat → Read (List (Node × Node))
  | 0 => failure
  | fuel + 1 => do
    if ← accept .blockEnd then return []
    expect .key
    let ends := [.key, .value, .blockEnd]
    let key ← blockNode handles fuel true ends
    let value ← if ← accept .value then blockNode handles fuel true ends else pure .empty
    return (key, value) :: (← blockEntries handles fuel)

/-- The items of a flow sequence, to its end. -/
def flowItems (handles : TagHandles) : Nat → (first : Bool) → Read (List Node)
  | 0, _ => failure
  | fuel + 1, first => do
    if ← accept .flowSequenceEnd then return []
    if !first then expect .flowEntry
    if ← accept .key then
      let pair ← flowPair handles fuel
      return .mapping none [pair] :: (← flowItems handles fuel false)
    else if ← accept .flowSequenceEnd then return []
    else
      let item ← node handles fuel false false
      return item :: (← flowItems handles fuel false)

/-- A single pair in a flow sequence, after the token of its key. A key that is left out takes the
token after it along. -/
def flowPair (handles : TagHandles) : Nat → Read (Node × Node)
  | 0 => failure
  | fuel + 1 => do
    let key ←
      if ← isAt [.value, .flowEntry, .flowSequenceEnd] then do
        advance
        pure .empty
      else node handles fuel false false
    let value ←
      if ← accept .value then flowNode handles fuel [.flowEntry, .flowSequenceEnd]
      else pure .empty
    return (key, value)

/-- The entries of a flow mapping, to its end. -/
def flowEntries (handles : TagHandles) : Nat → (first : Bool) → Read (List (Node × Node))
  | 0, _ => failure
  | fuel + 1, first => do
    if ← accept .flowMappingEnd then return []
    if !first then expect .flowEntry
    if ← accept .key then
      let key ← flowNode handles fuel [.value, .flowEntry, .flowMappingEnd]
      let value ←
        if ← accept .value then flowNode handles fuel [.flowEntry, .flowMappingEnd]
        else pure .empty
      return (key, value) :: (← flowEntries handles fuel false)
    else if ← accept .flowMappingEnd then return []
    else
      let key ← node handles fuel false false
      return (key, .empty) :: (← flowEntries handles fuel false)

end

/-! ## Documents -/

/-- The directives of a document: at most one version, which has to be 1.1 or 1.2, and handles each
defined once. -/
def directives : (versioned : Bool) → TagHandles → List Token →
    Option (TagHandles × List Token)
  | versioned, handles, .version major minor :: ts =>
    if versioned || major != 1 || !(minor == 1 || minor == 2) then none
    else directives true handles ts
  | versioned, handles, .handle name expansion :: ts =>
    if (handles.lookup name).isSome then none
    else directives versioned ((name, expansion) :: handles) ts
  | _, handles, ts => some (handles, ts)

end Read

namespace Document

/-- Whether a token stands before the content of a document that has no implicit start. -/
def isExplicitStart : Token → Bool
  | .version .. | .handle .. | .documentStart => true
  | _ => false

/-- The content of a document. -/
def readContent (handles : TagHandles) (ts : List Token) : Option (Node × List Token) := do
  let (node, s) ← (Read.node handles (3 * ts.length + 8) true false).run { tokens := ts }
  return (node, s.tokens)

/-- The content of a document after its start mark, which may be left out. -/
def readExplicit (handles : TagHandles) (ts : List Token) : Option (Node × List Token) :=
  match ts with
  | [] => some (.empty, [])
  | t :: _ =>
    if isExplicitStart t || t == .documentEnd then some (.empty, ts) else readContent handles ts

/-- A document with a start mark. Directives may stand before the mark. -/
def readMarked (ts : List Token) : Option (Node × List Token) := do
  let (handles, ts) ← Read.directives false [] ts
  let .documentStart :: ts := ts | none
  readExplicit (handles ++ TagHandles.standard) ts

/-- The documents after the first. The first argument bounds their number. -/
def readLater : Nat → List Token → Option (List Node)
  | 0, ts => if ts.isEmpty then some [] else none
  | fuel + 1, ts => do
    let ts := ts.dropWhile (· == .documentEnd)
    if ts.isEmpty then return []
    let (node, rest) ← readMarked ts
    return node :: (← readLater fuel rest)

/-- The documents that tokens spell. Only the first may be without a start mark, and no tokens
spell none. -/
def streamOfTokens? (ts : List Token) : Option (List Node) := do
  match ts with
  | [] => return []
  | t :: _ =>
    let (node, rest) ←
      if isExplicitStart t then readMarked ts else readContent TagHandles.standard ts
    return node :: (← readLater rest.length rest)

/-- The documents that a text spells. -/
def readStream? (text : String) : Option (List Node) := (tokens? text).bind streamOfTokens?

/-- The document of a stream, when there is no more than one. -/
def ofStream? : List Node → Option Document
  | [] => some ⟨none⟩
  | [node] => some ⟨some node⟩
  | _ => none

/-- The document that a text spells, when it spells no more than one. -/
def read? (text : String) : Option Document := (readStream? text).bind ofStream?

end Document

end LogForwarder.Yaml
