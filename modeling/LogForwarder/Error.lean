import LogForwarder.Cluster.Identifier
import LogForwarder.Cluster.Identity
import LogForwarder.Schema.Mismatch

/-!
# Errors of generation

Why no resources come out. An input error is one of the manifests or objects given; the others
arise only while a built resource is brought into its final form.
-/

namespace LogForwarder

/-- Why no resources come out. -/
inductive GenerationError where
  /-- A document that cannot be read as what it should be. There is no detail when it has no data
  at all. -/
  | unreadable (kind : String) (detail : Option String)
  /-- A field whose content no resource can be generated from. -/
  | invalid (kind field : String) (complaint : Complaint)
  /-- A document or object of another kind. -/
  | otherKind (expected found : String)
  /-- A deployment in which no containers can be found. -/
  | noContainers (object : Identity)
  /-- A container without a well-formed environment. -/
  | noEnvironment (container : String) (object : Identity)
  /-- An object that does not fit the schema of what it should become. -/
  | unfit (target : String) (object : Identity) (mismatch : Mismatch)
  deriving DecidableEq, Repr

namespace GenerationError

/-- Whether the error is one of what was given. -/
def isInputError : GenerationError → Bool
  | unreadable .. | invalid .. | otherKind .. => true
  | noContainers _ | noEnvironment .. | unfit .. => false

/-- What could not be found in an environment. -/
def environmentOf (container : String) : String := "environment from container " ++ container

/-- The message of an error. That of an unreadable document ends before its detail. -/
def message : GenerationError → String
  | unreadable kind _ => "failed to unmarshal yaml into " ++ kind
  | invalid kind field complaint =>
    "error validating " ++ kind ++ " yaml: " ++ field ++ " " ++ complaint.message
  | otherKind expected found => "unable to convert to " ++ expected ++ ": got " ++ found
  | noContainers object =>
    "unable to find container specification for object " ++ object.display
  | noEnvironment container object =>
    "unable to find " ++ environmentOf container ++ " for object " ++ object.display
  | unfit target object mismatch =>
    "unable to convert object " ++ object.display ++ " to " ++ target ++ ": " ++
      mismatch.message .json

end GenerationError

end LogForwarder
