import LogForwarder.Generation.Metrics

/-!
# Registration of metrics

Counters are shown by a registry, each under a name that can be taken only once. The programs
register nothing: they are gone before anyone could look.
-/

namespace LogForwarder

/-- The names under which the counters of generation are shown. -/
def Metrics.names : List String :=
  [ "ocm_log_forwarder_generations_total",
    "ocm_log_forwarder_generation_errors_total",
    "ocm_log_forwarder_generation_duration_seconds",
    "ocm_log_forwarder_resources_generated_total",
    "ocm_log_forwarder_mutation_failures_total" ]

/-- What shows counters, by the names that are taken. -/
structure Registry where
  names : List String := []
  deriving DecidableEq, Repr

/-- Why a counter is not registered. -/
inductive RegistrationError where
  /-- Its name is taken. -/
  | duplicate
  deriving DecidableEq, Repr

/-- The message of a registration error. -/
def RegistrationError.message : RegistrationError → String
  | duplicate => "Duplicate metrics collector registration attempted"

namespace Registry

/-- The registry with one more name. -/
def add (r : Registry) (name : String) : Except RegistrationError Registry :=
  if name ∈ r.names then .error .duplicate else .ok ⟨r.names ++ [name]⟩

/-- The registry with the counters of generation. -/
def addMetrics (r : Registry) : Except RegistrationError Registry := Metrics.names.foldlM add r

end Registry

end LogForwarder
