import SourceFilter.BuildTool
import SourceFilter.Classifier
import SourceFilter.Main
import SourceFilter.Proofs.SlotTable.Ring
import SourceFilter.Proofs.SlotTable.Search
import SourceFilter.Proofs.SlotTable.Placement
import SourceFilter.Proofs.SlotTable.Removal
import SourceFilter.Proofs.SlotTable.Filing
import SourceFilter.Proofs.Run
import SourceFilter.Proofs.SlotTable.Dictionary
import SourceFilter.Proofs.Enforcement
import SourceFilter.Proofs.Bookkeeping
import SourceFilter.Proofs.Session
import SourceFilter.Proofs.Snapshot
import SourceFilter.Proofs.Advance
import SourceFilter.Proofs.Convergence
import SourceFilter.Proofs.Reference
import SourceFilter.Proofs.Refinement
import SourceFilter.Proofs.LongestMatch
import SourceFilter.Proofs.SlotTable.UsedRun
import SourceFilter.Proofs.SlotTable.Cleanup
import SourceFilter.Proofs.SlotTable.Tombstones
import SourceFilter.Proofs.Spacing
import SourceFilter.Proofs.Reloads
import SourceFilter.Proofs.Mixture
import SourceFilter.Proofs.Effects
import SourceFilter.Proofs.Midway
import SourceFilter.Proofs.Retry
import SourceFilter.Proofs.Reporting
import SourceFilter.Proofs.Accounting
import SourceFilter.Proofs.Kernel.Enforcement
import SourceFilter.Proofs.Backends
import SourceFilter.Proofs.Isolation
import SourceFilter.Proofs.RateBound
import SourceFilter.Proofs.ConfigText
import SourceFilter.Proofs.Binding
import SourceFilter.Proofs.Vigil
import SourceFilter.Proofs.LastGood
import SourceFilter.Proofs.Generation
import SourceFilter.Proofs.SlotTable.Mixing
import SourceFilter.Proofs.RoundTrip
import SourceFilter.Proofs.SlotTable.Lending
import SourceFilter.Proofs.SlotTable.Sweep
import SourceFilter.Proofs.Edits
import SourceFilter.Proofs.Ranking
import SourceFilter.Proofs.StatisticsTable
