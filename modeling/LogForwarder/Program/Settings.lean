/-!
# Settings

What the environment of the program says about its log. Manifests come from files only, and no
setting changes what is generated from them.
-/

namespace LogForwarder

/-- The settings of the program. -/
structure Settings where
  logLevel : String := "INFO"
  logFormat : String := "text"
  logColor : Bool := false
  deriving DecidableEq, Repr

namespace Settings

/-- Whether a text says yes. -/
def isYes (s : String) : Bool := s.toLower ∈ ["true", "1", "yes", "on"]

/-- The settings that variables of the environment give; what they leave out has its default. -/
def ofVariables (lookup : String → Option String) : Settings where
  logLevel := (lookup "LOG_LEVEL").getD "INFO"
  logFormat := (lookup "LOG_FORMAT").getD "text"
  logColor := ((lookup "LOG_ENABLE_COLOR").map isYes).getD false

/-- Whether log lines are written as JSON. -/
def jsonLogs (s : Settings) : Bool := s.logFormat.toLower == "json"

end Settings

end LogForwarder
