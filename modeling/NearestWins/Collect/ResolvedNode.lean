import NearestWins.Management.Override

/-!
# Resolved nodes

The outcome of expanding a tree: each surviving node with its dependency after management, what was
declared before where management changed it, and its surviving children.
-/

namespace NearestWins

/-- A node after management. -/
structure ResolvedNode where
  /-- The dependency after management. -/
  dependency : Dependency
  /-- The declared version, where management changed it. -/
  premanagedVersion : Option String := none
  /-- The declared scope, where management changed it. -/
  premanagedScope : Option String := none
  /-- The depth of the snapshot that managed the node. -/
  depth : Nat
  /-- Which fields management overrode. -/
  managed : ManagedFields := {}
  /-- Whether the dependency is in system scope after management. -/
  system : Bool
  /-- The surviving children. -/
  children : List ResolvedNode := []
deriving BEq

mutual

/-- The number of nodes of a resolved tree. -/
def ResolvedNode.size : ResolvedNode → Nat
  | ⟨_, _, _, _, _, _, children⟩ => 1 + ResolvedNode.total children

/-- The number of nodes of a resolved forest. -/
def ResolvedNode.total : List ResolvedNode → Nat
  | [] => 0
  | node :: rest => node.size + ResolvedNode.total rest

end

mutual

/-- The nodes of a resolved tree, each before those below it. -/
def ResolvedNode.walk : ResolvedNode → List ResolvedNode
  | node@⟨_, _, _, _, _, _, children⟩ => node :: ResolvedNode.walkAll children

/-- The nodes of a resolved forest, each before those below it. -/
def ResolvedNode.walkAll : List ResolvedNode → List ResolvedNode
  | [] => []
  | node :: rest => node.walk ++ ResolvedNode.walkAll rest

end

end NearestWins
