import NearestWins.Config
import NearestWins.Failure
import NearestWins.Toml.Reader

/-!
# Reading configurations

A configuration is read from a file that the user names, else from one that the environment names;
without either the defaults hold.
-/

namespace NearestWins.Config

/-- Reads the text of a configuration. -/
def parse (reader : TomlReader) (text : String) : Except Problem Config :=
  (reader.decode schema {} text).mapError .invalidToml

/-- The environment variable that may name a configuration file. -/
def environmentVariable : String := "DEPMGR_CONFIG"

/-- Loads the configuration of a path, given how texts are read; without a path the defaults. -/
def load (reader : TomlReader) (readText : String → Except ReadFailure String)
    (path : Option String) : Logged (Except Failure Config) :=
  match path with
  | none => pure (.ok {})
  | some path => do
    Logged.report (.loadingConfig path)
    match readText path with
    | .error failure =>
      pure (.error ((Failure.ofProblem (.unreadable failure)).within
        s!"Failed to read management config from {path}"))
    | .ok text =>
      pure ((parse reader text).mapError fun problem =>
        (Failure.ofProblem problem).within s!"Failed to parse management config from {path}")

end NearestWins.Config
