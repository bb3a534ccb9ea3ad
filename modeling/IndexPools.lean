import IndexPools.Codec
import IndexPools.Engine.Pass
import IndexPools.Main
import IndexPools.Manifest
import IndexPools.Settings
import IndexPools.SharedTables
import IndexPools.Proofs.Backing
import IndexPools.Proofs.Chain
import IndexPools.Proofs.Deadlines
import IndexPools.Proofs.Holding
import IndexPools.Proofs.Loaded
import IndexPools.Proofs.Lookup
import IndexPools.Proofs.Mirror
import IndexPools.Proofs.Placing
import IndexPools.Proofs.PlainTable
import IndexPools.Proofs.Run
import IndexPools.Proofs.Standing
import IndexPools.Proofs.Undercut
import IndexPools.Proofs.Visit
import IndexPools.Proofs.Answers
import IndexPools.Proofs.Sole
import IndexPools.Proofs.History
import IndexPools.Proofs.Tenure
import IndexPools.Proofs.Deletion
import IndexPools.Proofs.Waits
import IndexPools.Proofs.Isolation
import IndexPools.Proofs.Convergence
import IndexPools.Proofs.Handles
import IndexPools.Proofs.Naming
import IndexPools.Proofs.Occupancy
import IndexPools.Proofs.Pacing
import IndexPools.Proofs.Identity
import IndexPools.Proofs.Failures
import IndexPools.Proofs.Without
import IndexPools.Proofs.Leaving
import IndexPools.Proofs.Refusals
import IndexPools.Proofs.Rekeying
import IndexPools.Proofs.Arrival
import IndexPools.Proofs.Levels
import IndexPools.Proofs.Retries
import IndexPools.Proofs.Faults
import IndexPools.Proofs.Loading
import IndexPools.Proofs.Tally
import IndexPools.Proofs.Naming
