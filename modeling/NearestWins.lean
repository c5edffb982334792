import NearestWins.Collect.Forest
import NearestWins.FileTree
import NearestWins.Json.Reader
import NearestWins.Main
import NearestWins.Shorthand
import NearestWins.Proofs.NearestDeclaration
import NearestWins.Proofs.Traversal
import NearestWins.Proofs.RootPath
import NearestWins.Proofs.Counterpart
import NearestWins.Proofs.Walk
import NearestWins.Proofs.SystemFiles
import NearestWins.Proofs.Settled
import NearestWins.Proofs.DerivationLimit
import NearestWins.Proofs.Widening
import NearestWins.Proofs.ExclusionGrowth
import NearestWins.Proofs.CoarseKeys
import NearestWins.Proofs.PruningInputs
import NearestWins.Proofs.Subtree
import NearestWins.Proofs.Renaming
import NearestWins.Proofs.SchemeChanges
import NearestWins.Proofs.DeclarationOrder
import NearestWins.Proofs.ApplicationFrame
import NearestWins.Proofs.JsonForm
import NearestWins.Proofs.FailureContexts
import NearestWins.Proofs.ManagementReport
import NearestWins.Proofs.Outline
import NearestWins.Proofs.TreeFileReading
import NearestWins.Proofs.TreeFileFaults
import NearestWins.Proofs.CoordinateText
import NearestWins.Proofs.ExclusionText
import NearestWins.Proofs.Decisions
import NearestWins.Proofs.WorkQueue
import NearestWins.Proofs.Visits
import NearestWins.Proofs.RecordedCalls
import NearestWins.Proofs.AdmittedCount
