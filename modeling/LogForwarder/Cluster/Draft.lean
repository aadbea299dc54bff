import LogForwarder.Cluster.Identity
import LogForwarder.Value

/-!
# Drafts

Objects of the cluster as they are built: plain values, of which only the parts that name the
object are ever looked at.

A draft is changed in place. `Draft.store` goes down from the root one key after the other, makes a
map where there is nothing yet, and may come upon a value that is no map when it has gone some way
already. A place in a draft is the path of keys that leads to it.
-/

namespace LogForwarder

/-- An object as it is built. -/
abbrev Draft := Value

namespace Draft

/-- The version of an object, empty when it has none. -/
def apiVersion (d : Draft) : String := (d.textAt? ["apiVersion"]).getD ""

/-- The kind of an object, empty when it has none. -/
def kind (d : Draft) : String := (d.textAt? ["kind"]).getD ""

/-- The name of an object, empty when it has none. -/
def name (d : Draft) : String := (d.textAt? ["metadata", "name"]).getD ""

/-- The namespace of an object. -/
def objectNamespace? (d : Draft) : Option String := d.textAt? ["metadata", "namespace"]

/-- What names an object. -/
def identity (d : Draft) : Identity :=
  ⟨(objectNamespace? d).getD "", name d, kind d⟩

/-! ## Stores -/

/-- The members of the map at a place. -/
def membersAt? (d : Draft) (place : List String) : Option Members :=
  (d.get? place).bind Value.members?

/-- The draft with what stands at a place written over. -/
def overwrite (d : Draft) (place : List String) (v : Value) : Draft :=
  (d.set? place v).getD d

/-- One step down a draft: the draft with something under a key of the map at a place, which is an
empty map if there was nothing. There is no step down from anything but a map. -/
def enter? (d : Draft) (place : List String) (key : String) : Option Draft :=
  (membersAt? d place).map fun ms =>
    if (ms.get? key).isSome then d else overwrite d (place ++ [key]) (.map [])

/-- The way down from a place: the draft with the maps that were made on the way, and whether it
ends at a map. -/
def walk (d : Draft) (place : List String) : List String → Draft × Bool
  | [] => (d, (membersAt? d place).isSome)
  | key :: keys =>
    match enter? d place key with
    | some d => walk d (place ++ [key]) keys
    | none => (d, false)

/-- The draft with the value at a path of keys set, and whether it could be. -/
def store (d : Draft) (path : List String) (v : Value) : Draft × Bool :=
  if path = [] then (v, true)
  else
    match walk d [] path.dropLast with
    | (d, true) => (overwrite d path v, true)
    | (d, false) => (d, false)

end Draft

end LogForwarder
