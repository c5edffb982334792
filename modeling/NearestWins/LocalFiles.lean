import NearestWins.Collect.ResolvedNode
import NearestWins.Logged
import NearestWins.ScopePolicy

/-!
# Local files

A dependency in system scope must name a local file. `verifyLocalFiles` goes through a resolved
forest, each node before those below it, and stops at the first system-scoped node that names no
path or a path at which there is no regular file.
-/

namespace NearestWins

/-- Verifies the local files of nodes in order and counts them. -/
def verifyEach (policy : ScopeHandler) (isFile : String → Bool) :
    List ResolvedNode → Logged (Except Problem Nat)
  | [] => pure (.ok 0)
  | node :: rest =>
    let artifact := node.dependency.artifact
    match policy.localPath artifact with
    | none => pure (.error (.localPathMissing artifact.coordinate))
    | some path =>
      if isFile path then do
        Logged.report (.verified path artifact)
        let verified ← verifyEach policy isFile rest
        pure (verified.map (· + 1))
      else pure (.error (.localFileMissing artifact.coordinate path))

/-- Verifies the local files of all system-scoped nodes of a forest and counts them. -/
def verifyLocalFiles (policy : ScopeHandler) (isFile : String → Bool)
    (forest : List ResolvedNode) : Logged (Except Problem Nat) :=
  verifyEach policy isFile ((ResolvedNode.walkAll forest).filter (·.system))

end NearestWins
