import VersionedColumns.Main
import VersionedColumns.Proofs.Grid
import VersionedColumns.Proofs.Grid.Slots
import VersionedColumns.Proofs.Index.Walk
import VersionedColumns.Proofs.PendingChanges
import VersionedColumns.Proofs.Index.Standing
import VersionedColumns.Proofs.Index.View
import VersionedColumns.Proofs.Index.Runs
import VersionedColumns.Proofs.Index.Places
import VersionedColumns.Proofs.Index.Successors
import VersionedColumns.Proofs.Index.Groups
import VersionedColumns.Proofs.Table.Sound
import VersionedColumns.Proofs.Table.Steps
import VersionedColumns.Proofs.Table.Runs
import VersionedColumns.Proofs.Table.Transaction
import VersionedColumns.Proofs.Table.TypedStorage
import VersionedColumns.Proofs.Snapshots
import VersionedColumns.Proofs.Table.Refinement
import VersionedColumns.Proofs.PendingChanges.Balance
import VersionedColumns.Proofs.PendingChanges.Settling
import VersionedColumns.Proofs.PendingChanges.Histories
import VersionedColumns.Proofs.Table.RowCounts
import VersionedColumns.Proofs.Table.Isolation
import VersionedColumns.Proofs.Index.Mirror
import VersionedColumns.Proofs.Table.Mirroring
import VersionedColumns.Proofs.Index.Lookup
import VersionedColumns.Proofs.Index.Entries
import VersionedColumns.Proofs.Table.Searchable
import VersionedColumns.Proofs.Table.Lookup
import VersionedColumns.Proofs.Table.PointReads
import VersionedColumns.Proofs.Table.Origins
import VersionedColumns.Proofs.Table.Coherence
import VersionedColumns.Proofs.Table.Rollback
import VersionedColumns.Proofs.Table.Commit
import VersionedColumns.Proofs.Table.Modes
import VersionedColumns.Proofs.Table.Refusals
import VersionedColumns.Proofs.Catalog.History
import VersionedColumns.Proofs.Catalog.Answers
import VersionedColumns.Proofs.Table.MemoryUse
import VersionedColumns.Proofs.Table.Accounts
import VersionedColumns.Proofs.Table.OneSession
import VersionedColumns.Proofs.SampleRun
import VersionedColumns.Proofs.Table.Directory
import VersionedColumns.Proofs.Text.Numerals
import VersionedColumns.Proofs.Value.Numbers
