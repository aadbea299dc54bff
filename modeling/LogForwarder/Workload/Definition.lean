import LogForwarder.Number.Binary64
import LogForwarder.Workload.Kind

/-!
# Definitions of the kinds

The object that tells the cluster what a kind of workloads is. The schema in it is rendered
from the schema by which the library itself reads the objects, so that the two cannot drift apart.
-/

namespace LogForwarder

namespace Schema

/-- The default of a member, where it has one. -/
def defaultOf : Presence → Members
  | .whenAbsent v | .whenAbsentOrNull v => [("default", v.sorted)]
  | .required | .omittable | .nullable => []

/-- Whether a member may be given as `null`. -/
def nullableOf (p : Presence) : Members :=
  if p.acceptsNull then [("nullable", .bool true)] else []

/-- A bound, which the cluster takes as a floating point number. -/
def bound (n : Nat) : Value := .float (Binary64.ofDecimal false ⟨n, 0⟩)

/-- What the annotations of a member say of its values. -/
def annotationsOf (a : Annotations) : Members :=
  Value.ofMember "description" .str a.description ++
  Value.ofMember "maxLength" (fun n : Nat => .int n) a.maxLength ++
  Value.ofMember "minimum" bound (a.bounds.map (·.1)) ++
  Value.ofMember "maximum" bound (a.bounds.map (·.2)) ++
  if a.listed.isEmpty then [] else [("enum", Value.ofList .str a.listed)]

/-- The names of the members that have to be given, sorted. -/
def requiredOf (infos : List MemberInfo) : Members :=
  let names := (infos.filter (·.presence = .required)).map (·.name)
  if names.isEmpty then []
  else [("required", Value.ofList .str (names.mergeSort (fun a b => decide (a ≤ b))))]

/-- The format of an integer. -/
def formatOf : IntegerKind → String
  | .unsigned32 => "uint32"
  | .signed32 => "int32"
  | .signed64 => "int64"

mutual

/-- What the cluster is told of the values of a schema. -/
def describe : Schema → Members
  | .text | .quantity => [("type", .str "string")]
  | .flag => [("type", .str "boolean")]
  | .integer kind => [("type", .str "integer"), ("format", .str (formatOf kind))]
  | .choice variants => [("type", .str "string"), ("enum", Value.ofList .str variants)]
  | .constant only => [("type", .str "string"), ("enum", .list [.str only])]
  | .list item => [("type", .str "array"), ("items", .map (Members.ofList item.describe))]
  | .dict value =>
    [ ("type", .str "object"),
      ("additionalProperties", .map (Members.ofList value.describe)) ]
  | .record info members =>
    [("type", .str "object")] ++ Value.ofMember "description" .str info.description ++
    [("properties", .map (Members.ofList (describeMembers members)))] ++
    requiredOf (members.map (·.1))

/-- What the cluster is told of the members of a record. -/
def describeMembers : List (MemberInfo × Schema) → Members
  | [] => []
  | (info, schema) :: members =>
    let own := schema.describe ++ defaultOf info.presence ++ nullableOf info.presence ++
      annotationsOf info.annotations
    (info.name, .map (Members.ofList own)) :: describeMembers members

end

end Schema

namespace Workload

/-- The schema of a kind as the cluster is told it. The metadata are known to it. -/
def openApiSchema (σ : Type) [WorkloadKind σ] : Value :=
  let description := "Auto-generated derived type for " ++ WorkloadKind.title σ ++
    "Spec via `CustomResource`"
  .map
    [ ("description", .str description),
      ("properties", .map
        [ ("spec", .map (Members.ofList (WorkloadKind.schema σ).describe)),
          ("status", .map (Members.ofList
            (WorkloadStatus.schema.describe ++ [("nullable", .bool true)]))) ]),
      ("required", .list [.str "spec"]),
      ("title", .str (WorkloadKind.title σ)),
      ("type", .str "object") ]

/-- A column as the cluster is told it. -/
def columnValue (c : PrinterColumn) : Value :=
  .map [("jsonPath", .str c.jsonPath), ("name", .str c.name), ("type", .str c.type)]

/-- The object that defines a kind. -/
def definition (σ : Type) [WorkloadKind σ] : Value :=
  let plural := WorkloadKind.singular σ ++ "s"
  .map
    [ ("apiVersion", .str "apiextensions.k8s.io/v1"),
      ("kind", .str "CustomResourceDefinition"),
      ("metadata", .map [("name", .str (plural ++ "." ++ apiGroup))]),
      ("spec", .map
        [ ("group", .str apiGroup),
          ("names", .map
            [ ("categories", .list []),
              ("kind", .str (WorkloadKind.kind σ)),
              ("plural", .str plural),
              ("shortNames", .list [.str (WorkloadKind.shortName σ)]),
              ("singular", .str (WorkloadKind.singular σ)) ]),
          ("scope", .str (WorkloadKind.scope σ).text),
          ("versions", .list
            [ .map
              [ ("additionalPrinterColumns", Value.ofList columnValue (WorkloadKind.columns σ)),
                ("name", .str latestVersion),
                ("schema", .map [("openAPIV3Schema", openApiSchema σ)]),
                ("served", .bool true),
                ("storage", .bool true),
                ("subresources", .map [("status", .map [])]) ] ]) ]) ]

end Workload

end LogForwarder
