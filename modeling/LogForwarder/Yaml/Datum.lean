import LogForwarder.Yaml.Node
import LogForwarder.Yaml.Scalar

/-!
# Data of a YAML document

What a document spells when nothing is known about it but the rules of YAML: scalars are what their
text or their tag says. Not every document has such data: no key may occur twice in a mapping, an
integer has 64 bits, collections nest no deeper than 128, and references may not multiply a
document beyond a hundred times its size.
-/

namespace LogForwarder.Yaml

/-- What a node spells by the rules of YAML alone. -/
inductive Datum where
  | null
  | bool (b : Bool)
  | int (n : Int)
  | float (x : Binary64)
  | text (s : String)
  | list (items : List Datum)
  | map (entries : List (Datum × Datum))
  /-- Data under a tag that is local to the document. -/
  | tagged (tag : String) (content : Datum)
  deriving Repr, Inhabited

namespace Datum

/-! ## Sameness -/

/-- Whether two floating point numbers are one key: zeros are, and so is what is not a number. -/
def sameFloat (x y : Binary64) : Bool :=
  x == y || (x.isNaN && y.isNaN) || (x.isZero && y.isZero)

mutual

/-- Whether two data are the same key, the order of entries aside. -/
def same : Datum → Datum → Bool
  | .null, .null => true
  | .bool a, .bool b => a == b
  | .int a, .int b => a == b
  | .float a, .float b => sameFloat a b
  | .text a, .text b => a == b
  | .list xs, .list ys => sameItems xs ys
  | .map xs, .map ys => xs.length == ys.length && holdsEntries xs ys
  | .tagged s x, .tagged t y => s == t && same x y
  | _, _ => false

/-- Whether two lists hold the same data in the same order. -/
def sameItems : List Datum → List Datum → Bool
  | [], [] => true
  | x :: xs, y :: ys => same x y && sameItems xs ys
  | _, _ => false

/-- Whether every entry of one mapping is an entry of another. -/
def holdsEntries : List (Datum × Datum) → List (Datum × Datum) → Bool
  | [], _ => true
  | (key, value) :: xs, ys => ys.any (fun y => same key y.1 && same value y.2) && holdsEntries xs ys

end

/-! ## Reading -/

/-- What the meaning of an unquoted scalar spells. -/
def ofMeaning? (s : String) : Meaning → Option Datum
  | .null => some .null
  | .bool b => some (.bool b)
  | .int n => some (.int n)
  | .bigInt _ => none
  | .float x => some (.float x)
  | .text => some (.text s)

/-- What a scalar with a tag of the core schema, or with none, spells. -/
def ofScalar? (tag : Option String) (style : ScalarStyle) (s : String) : Option Datum :=
  match tag with
  | none => if style = .plain then ofMeaning? s (meaning s) else some (.text s)
  | some tag =>
    if tag = boolTag then (bool? s).map .bool
    else if tag = intTag then ((integer? s.toList).filter fits64).map .int
    else if tag = floatTag then (float? s).map .float
    else if tag = nullTag then if isNull s then some .null else none
    else some (.text s)

/-- The data with their local tag, if they have one. -/
def underTag (tag : Option String) (content : Datum) : Option Datum :=
  match localTag? tag with
  | some name => if name = "" then none else some (.tagged name content)
  | none => some content

/-- What a scalar spells. -/
def ofTaggedScalar? (tag : Option String) (style : ScalarStyle) (s : String) : Option Datum := do
  underTag tag (← ofScalar? (if (localTag? tag).isSome then none else tag) style s)

/-- The entries of a mapping in which no key occurs twice. -/
def distinct? : List (Datum × Datum) → Option (List (Datum × Datum))
  | [] => some []
  | (key, value) :: entries => do
    let entries ← distinct? entries
    if entries.any fun e => same key e.1 then none else some ((key, value) :: entries)

/-- The node that holds the content of a node: that under an anchor, or the one that a reference
stands for. The state counts the references that may still be followed. -/
def follow (root : Node) : Node → StateT Nat Option Node
  | .reference id => do
    let left ← get
    if left = 0 then failure
    set (left - 1)
    match root.find? id with
    | some node => pure node
    | none => failure
  | .anchored _ node => pure node
  | node => pure node

/-- What a node of a document spells, with collections nested in it to a depth. -/
def ofNode (root : Node) : Nat → Node → StateT Nat Option Datum
  | 0, node => do
    match ← follow root node with
    | .scalar tag style s => ofTaggedScalar? tag style s
    | _ => failure
  | depth + 1, node => do
    match ← follow root node with
    | .scalar tag style s => ofTaggedScalar? tag style s
    | .sequence tag items => do
      let xs ← items.mapM (ofNode root depth)
      underTag tag (.list xs)
    | .mapping tag entries => do
      let xs ← entries.mapM fun (key, value) => do
        return (← ofNode root depth key, ← ofNode root depth value)
      underTag tag (.map (← distinct? xs))
    | _ => failure

/-- How deep collections may nest. -/
def depthLimit : Nat := 128

/-- The data of a document, null when it has no content. -/
def ofDocument? (document : Document) : Option Datum :=
  match document.content with
  | none => some .null
  | some root => (ofNode root depthLimit root (100 * root.size)).map (·.1)

end Datum

end LogForwarder.Yaml
