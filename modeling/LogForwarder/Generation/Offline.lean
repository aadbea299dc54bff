import LogForwarder.Generation.Collection
import LogForwarder.Generation.Forwarder
import LogForwarder.Workload.Manifest
import LogForwarder.Workload.Validation

/-!
# Generation from manifests

Resources generated offline, from the texts of manifests. The manifests are read and checked before
anything is built, that of the forwarder before that of its collection.
-/

namespace LogForwarder

namespace Collection

/-- The collection that a manifest spells, checked. -/
def ofManifest (manifest : String) : Except GenerationError Collection := do
  let c ← Manifest.parse CollectionSpec manifest
  Collection.validate c
  return c

/-- The resources of the collection that a manifest spells. -/
def generateOffline (manifest : String) : Generation (List Resource) := do
  let c ← Generation.ofExcept (ofManifest manifest)
  generate c none

end Collection

namespace Forwarder

/-- The forwarder that a manifest spells and its collection, both checked. -/
def ofManifests (workload : String) (collection : Option String) :
    Except GenerationError (Forwarder × Option Collection) := do
  let p ← Manifest.parse ForwarderSpec workload
  Forwarder.validate p
  match collection with
  | none => return (p, none)
  | some manifest => return (p, some (← Collection.ofManifest manifest))

/-- The resources of the forwarder that a manifest spells. -/
def generateOffline (workload : String) (collection : Option String) :
    Generation (List Resource) := do
  let (p, c) ← Generation.ofExcept (ofManifests workload collection)
  generate p c none

end Forwarder

end LogForwarder
