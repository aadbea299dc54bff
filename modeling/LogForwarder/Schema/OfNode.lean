import LogForwarder.Schema.OfValue
import LogForwarder.Yaml.Node
import LogForwarder.Yaml.Scalar

/-!
# Reading YAML documents by a schema

`Schema.ofNode` reads a node of a document as the schema wants it, and gives the canonical value.
The schema decides what a scalar is: a text takes any scalar as it is written, so that `123` and
`true` are texts where a text is wanted. A mismatch is reported with the path of the node.
-/

namespace LogForwarder

/-- A step from a node to one inside it. -/
inductive PathStep where
  | key (name : String)
  | index (i : Nat)
  /-- A key that is not spelled where it stands. -/
  | unnamed
  deriving DecidableEq, Repr

/-- A mismatch somewhere in a document. -/
structure LocatedMismatch where
  path : List PathStep
  mismatch : Mismatch
  deriving DecidableEq, Repr

namespace LocatedMismatch

/-- A mismatch of the node at hand. -/
def here (m : Mismatch) : LocatedMismatch := ⟨[], m⟩

/-- A mismatch inside a node, as seen from that around it. -/
def under (step : PathStep) (m : LocatedMismatch) : LocatedMismatch :=
  { m with path := step :: m.path }

/-- The text of a path, after that of the steps before it. -/
def pathText : String → List PathStep → String
  | text, [] => text
  | text, step :: steps =>
    let dot := if text = "" then "" else "."
    match step with
    | .key name => pathText (text ++ dot ++ name) steps
    | .index i => pathText (text ++ "[" ++ Numeral.decimal i ++ "]") steps
    | .unnamed => pathText (text ++ dot ++ "?") steps

/-- The message, after the path unless that is empty. -/
def message (m : LocatedMismatch) : String :=
  let text := m.mismatch.message .yaml
  if m.path.isEmpty then text else pathText "" m.path ++ ": " ++ text

end LocatedMismatch

/-- What reading a node gives. -/
abbrev NodeResult (α : Type) := Except LocatedMismatch α

/-- A result inside a node, as seen from that around it. -/
def NodeResult.under {α : Type} (step : PathStep) : NodeResult α → NodeResult α
  | .ok a => .ok a
  | .error m => .error (m.under step)

/-- A mismatch of the node at hand. -/
def NodeResult.refuse {α : Type} (m : Mismatch) : NodeResult α := .error (.here m)

namespace Yaml

/-! ## Scalars that are no texts -/

/-- What the meaning of an unquoted scalar is called where something else is expected. -/
def Meaning.found (text : String) : Meaning → Found
  | .null => .null
  | .bool b => .flag b
  | .int n | .bigInt n => .integer n
  | .float x => .float x
  | .text => .text text

/-- What a scalar is refused as, where something else is expected. -/
def scalarMismatch (tag : Option String) (style : ScalarStyle) (text expected : String) :
    Mismatch :=
  if tag = some boolTag then
    match bool? text with
    | some b => .wrongType (.flag b) expected
    | none => .wrongValue (.text text) "a boolean"
  else if tag = some intTag then
    match integer? text.toList with
    | some n => .wrongType (.integer n) expected
    | none => .wrongValue (.text text) "an integer"
  else if tag = some floatTag then
    match float? text with
    | some x => .wrongType (.float x) expected
    | none => .wrongValue (.text text) "a float"
  else if tag = some nullTag then
    if isNull text then .wrongType .null expected else .wrongValue (.text text) "null"
  else if style = .plain ∧ (tag = none ∨ (localTag? tag).isSome) then
    .wrongType ((meaning text).found text) expected
  else .wrongType (.text text) expected

/-- Whether a scalar may spell something else than a text: it is not quoted, or a literal one with
the tag of what it spells. -/
def maySpell (coreTag : String) (tag : Option String) (style : ScalarStyle) : Bool :=
  style = .plain || (style = .literal && tag == some coreTag)

/-- Whether a scalar is left out altogether. -/
def isLeftOut (style : ScalarStyle) (text : String) : Bool := style = .plain && text = ""

/-- The flag that a scalar spells. -/
def readFlag (tag : Option String) (style : ScalarStyle) (text : String) : Except Mismatch Value :=
  match if maySpell boolTag tag style then bool? text else none with
  | some b => .ok (.bool b)
  | none => .error (scalarMismatch tag style text "a boolean")

/-- The integer of 64 bits that a scalar spells, where one of some kind is expected. -/
def wideInteger? (kind : IntegerKind) (text : String) : Option Int :=
  match kind with
  | .unsigned32 => ((unsigned? text.toList).map Int.ofNat).filter (· < UInt64.size)
  | .signed32 | .signed64 => (integer? text.toList).filter IntegerKind.signed64.holds

/-- The integer that a scalar spells. -/
def readInteger (kind : IntegerKind) (tag : Option String) (style : ScalarStyle) (text : String) :
    Except Mismatch Value :=
  match if maySpell intTag tag style then wideInteger? kind text else none with
  | some n => if kind.holds n then .ok (.int n) else .error (.wrongValue (.integer n) kind.name)
  | none => .error (scalarMismatch tag style text kind.name)

/-- Whether a node stands for a member that is not given. -/
def readsAsNull : Node → Except Mismatch Bool
  | .scalar tag style text =>
    if style ≠ .plain then .ok false
    else if tag = some nullTag then
      if isNull text then .ok true else .error (.wrongValue (.text text) "null")
    else .ok (tag = none && (text = "" || isNull text))
  | _ => .ok false

/-- What a node of the document below `root` stands for. -/
def Node.target (node root : Node) : Node :=
  match node with
  | .reference id => (root.find? id).getD .empty
  | .anchored _ inner => inner
  | other => other

/-- What a mismatch calls a collection. -/
def Node.found : Node → Found
  | .mapping .. => .map
  | _ => .list

/-- How a path names a key. -/
def Node.step : Node → PathStep
  | .scalar _ _ text | .anchored _ (.scalar _ _ text) => .key text
  | _ => .unnamed

/-- The text of a key. -/
def Node.keyText (key root : Node) (expected : String) : Except Mismatch String :=
  match key.target root with
  | .scalar _ _ text => .ok text
  | node => .error (.wrongType node.found expected)

/-- The variant that a node names: as its text, or as its tag, after which nothing may stand. -/
def readVariant (variants : List String) : Node → Except Mismatch Value
  | .scalar tag style text =>
    match localTag? tag with
    | some name =>
      if name ∉ variants then .error (.unknownVariant name variants)
      else if style = .plain ∧ (text = "" ∨ isNull text) then .ok (.str name)
      else .error (.wrongValue (.text text) "null")
    | none => if text ∈ variants then .ok (.str text) else .error (.unknownVariant text variants)
  | .mapping tag _ => ofCollection tag .map
  | .sequence tag _ => ofCollection tag .list
  | node => ofCollection none node.found
where
  /-- A collection names a variant by its tag only, and is never empty. -/
  ofCollection (tag : Option String) (found : Found) : Except Mismatch Value :=
    match localTag? tag with
    | some name =>
      if name ∈ variants then .error (.wrongType found "unit")
      else .error (.unknownVariant name variants)
    | none => .error (.wrongType found "a YAML tag starting with '!'")

end Yaml

/-- A result about the node at hand. -/
def NodeResult.of {α : Type} : Except Mismatch α → NodeResult α
  | .ok a => .ok a
  | .error m => .error (.here m)

namespace Schema

open Yaml (Node)

mutual

/-- The canonical form of what a node of a document spells. -/
def ofNode (root : Node) : Schema → Node → NodeResult Value
  | .text, node | .quantity, node =>
    match node.target root with
    | .scalar _ _ s => .ok (.str s)
    | found => .refuse (.wrongType found.found "a string")
  | .constant only, node =>
    match node.target root with
    | .scalar _ _ s =>
      if s = only then .ok (.str s) else .refuse (.wrongValue (.text s) only)
    | found => .refuse (.wrongType found.found "a string")
  | .flag, node =>
    match node.target root with
    | .scalar tag style s => .of (Yaml.readFlag tag style s)
    | found => .refuse (.wrongType found.found "a boolean")
  | .integer kind, node =>
    match node.target root with
    | .scalar tag style s => .of (Yaml.readInteger kind tag style s)
    | found => .refuse (.wrongType found.found kind.name)
  | .choice variants, node => .of (Yaml.readVariant variants (node.target root))
  | .list item, node =>
    match node.target root with
    | .sequence _ items => do
      let xs ← items.zipIdx.mapM fun (x, i) => (item.ofNode root x).under (.index i)
      return .list xs
    | .scalar tag style s =>
      if Yaml.isLeftOut style s then .ok (.list [])
      else .refuse (Yaml.scalarMismatch tag style s "a sequence")
    | found => .refuse (.wrongType found.found "a sequence")
  | .dict value, node =>
    match node.target root with
    | .mapping _ entries => do
      let ms ← entries.mapM fun (key, x) => do
        let name ← NodeResult.of (key.keyText root "a string")
        return (name, ← (value.ofNode root x).under key.step)
      return .map (Members.ofList ms)
    | .scalar tag style s =>
      if Yaml.isLeftOut style s then .ok (.map [])
      else .refuse (Yaml.scalarMismatch tag style s "a map")
    | found => .refuse (.wrongType found.found "a map")
  | .record info members, node =>
    let settled (given : GivenMembers) : NodeResult Value := do
      return .map (← NodeResult.of (settleMembers (members.map (·.1)) given))
    match node.target root with
    | .mapping _ entries => do
      let given ← entries.foldlM (fun given (key, x) => do
        let name ← NodeResult.of (key.keyText root "field identifier")
        if info.strict && (given.lookup name).isSome then .refuse (.duplicate name)
        match ← (memberOfNode root members name x).under key.step with
        | some member => return member :: given
        | none => return given) []
      settled given
    | .scalar tag style s =>
      if Yaml.isLeftOut style s then settled []
      else .refuse (Yaml.scalarMismatch tag style s info.expected)
    | found => .refuse (.wrongType found.found info.expected)

/-- The canonical form of the node of a member, if the record has a member of that name. -/
def memberOfNode (root : Node) : List (MemberInfo × Schema) → String → Node →
    NodeResult (Option (String × Option Value))
  | [], _, _ => .ok none
  | (info, schema) :: members, name, node =>
    if info.name = name then do
      let isNull ←
        if info.presence.acceptsNull then NodeResult.of (Yaml.readsAsNull (node.target root))
        else pure false
      if isNull then return some (name, none)
      else return some (name, some (← schema.ofNode root node))
    else memberOfNode root members name node

end

/-- The canonical form of what a document spells. One without content spells an empty record. -/
def ofDocument (schema : Schema) (document : Yaml.Document) : NodeResult Value :=
  let root := document.content.getD .empty
  schema.ofNode root root

end Schema

end LogForwarder
