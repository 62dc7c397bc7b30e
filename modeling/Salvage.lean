import Salvage.Main
import Salvage.Proofs.Batch.Budget
import Salvage.Proofs.Batch.Conservation
import Salvage.Proofs.Content.Exactness
import Salvage.Proofs.Item
import Salvage.Proofs.Name
import Salvage.Proofs.Objects.Deletion
import Salvage.Proofs.Provider.Attribution
import Salvage.Proofs.Provider.Records
import Salvage.Proofs.Records.Throttling
import Salvage.Proofs.Settings.Credentials
import Salvage.Proofs.Statement
import Salvage.Proofs.Tables.Chain
import Salvage.Proofs.Tables.Search
import Salvage.Proofs.Transaction.Guarded
import Salvage.Proofs.Transaction.Savepoints
import Salvage.Proofs.Workspace.Acknowledgement
import Salvage.Proofs.Workspace.Changelog
import Salvage.Proofs.Workspace.Convergence
import Salvage.Proofs.Workspace.Events
import Salvage.Proofs.Workspace.Refusal
import Salvage.Proofs.Workspace.RollUp
import Salvage.Proofs.Workspace.RoundTrip
import Salvage.Proofs.Workspace.Siblings
import Salvage.Proofs.Workspace.Subtree
import Salvage.Proofs.Workspace.Traversal
import Salvage.Proofs.Workspace.Wire
import Salvage.Provider.Objects
import Salvage.Provider.Wire
import Salvage.Rehearsal
