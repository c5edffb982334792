import NearestWins.Dependency

/-!
# Scope handlers and policies

A dependency in system scope is never fetched: it names a file on the local disk through a property
of its artifact. A scope handler says which scope labels are system scopes and which property holds
the path. Nothing else in the library attaches a meaning to a label or to a property name, and any
handler will do. A scope policy names one of the handlers that a configuration can choose.
-/

namespace NearestWins

/-- The one system scope of the legacy policy. -/
def systemScope : String := "system"

/-- The property in which the legacy policy keeps local paths. -/
def localPathProperty : String := "localPath"

/-- Which scope labels are system scopes, and where local paths are kept. -/
structure ScopeHandler where
  /-- Whether a label is a system scope. -/
  isSystem : String → Bool
  /-- The property that holds local paths. -/
  pathProperty : String

namespace ScopeHandler

/-- The label `system` alone, paths under `localPath`. -/
def legacy : ScopeHandler where
  isSystem scope := scope = systemScope
  pathProperty := localPathProperty

/-- A set of labels, paths under a property of choice. -/
def labelSet (labels : Std.ExtTreeSet String) (pathProperty : String) : ScopeHandler where
  isSystem := labels.contains
  pathProperty := pathProperty

variable (handler : ScopeHandler)

/-- Whether a dependency is in system scope. -/
def isSystemDependency (d : Dependency) : Bool :=
  handler.isSystem d.scope

/-- Whether a node is in system scope; the root never is. -/
def isSystemNode (node : Node) : Bool :=
  node.dependency.any handler.isSystemDependency

/-- The local path that an artifact declares. -/
def localPath (a : Artifact) : Option String :=
  a.property handler.pathProperty

/-- Records a local path among properties. -/
def setLocalPath (path : String) (properties : Properties) : Properties :=
  properties.insert handler.pathProperty path

/-- Removes the local path from properties. -/
def dropLocalPath (properties : Properties) : Properties :=
  properties.erase handler.pathProperty

end ScopeHandler

/-- The handlers that a configuration can choose. -/
inductive ScopePolicy
  /-- The label `system` alone, paths under `localPath`. -/
  | legacy
  /-- A set of labels, paths under a property of choice. -/
  | labelSet (labels : Std.ExtTreeSet String) (pathProperty : String)
deriving DecidableEq

namespace ScopePolicy

/-- The handler that a policy names. -/
def handler : ScopePolicy → ScopeHandler
  | .legacy => .legacy
  | .labelSet labels property => .labelSet labels property

instance : Coe ScopePolicy ScopeHandler := ⟨handler⟩

end ScopePolicy

end NearestWins
