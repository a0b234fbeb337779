import Floodgate.Main
import Floodgate.Source.Memory
import Floodgate.Stats.Cursor
import Floodgate.Proofs.Handles
import Floodgate.Proofs.Rule.Equality
import Floodgate.Proofs.Rule.Indices
import Floodgate.Proofs.Rule.PlainSet
import Floodgate.Proofs.Breaker.Run
import Floodgate.Proofs.Breaker.Probes
import Floodgate.Proofs.Admission.Rules
import Floodgate.Proofs.Admission.Units
import Floodgate.Proofs.Admission.Conservation
import Floodgate.Proofs.Admission.Awaited
import Floodgate.Proofs.Admission.Continuity
import Floodgate.Proofs.Admission.ProbePeriods
import Floodgate.Proofs.Breaker.LateBook
import Floodgate.Proofs.Stats.Slots
import Floodgate.Proofs.Stats.Aggregate
import Floodgate.Proofs.Stats.Views
import Floodgate.Proofs.Stats.Log
import Floodgate.Proofs.Stats.Totals
import Floodgate.Proofs.Stats.Footprint
import Floodgate.Proofs.Breaker.Monitor
import Floodgate.Proofs.Breaker.Reopening
import Floodgate.Proofs.Limiter.Budget
import Floodgate.Proofs.Json.Members
import Floodgate.Proofs.Rule.Documents
import Floodgate.Proofs.Rule.Batch
import Floodgate.Proofs.Source.Diff
import Floodgate.Proofs.Source.Reload
import Floodgate.Proofs.Admission.Footprint
import Floodgate.Proofs.Admission.Isolation
import Floodgate.Proofs.Stats.Eviction
import Floodgate.Proofs.Admission.Eviction
import Floodgate.Proofs.Resource.Canonical
import Floodgate.Proofs.Resource.Order
import Floodgate.Proofs.Admission.Precedence
import Floodgate.Proofs.Admission.Denials
import Floodgate.Proofs.Stats.Merge
import Floodgate.Proofs.Rule.Thresholds
import Floodgate.Proofs.Rule.Notices
import Floodgate.Proofs.Rule.Order
import Floodgate.Proofs.Rule.Sanity
import Floodgate.Proofs.Rule.Targets
import Floodgate.Proofs.Breaker.Rejections
import Floodgate.Proofs.Breaker.PresentSlot
import Floodgate.Proofs.Breaker.Delivery
import Floodgate.Proofs.Breaker.Sightings
import Floodgate.Proofs.Breaker.PackedPhase
import Floodgate.Proofs.Stats.Succession
import Floodgate.Proofs.Stats.Retention
import Floodgate.Proofs.Stats.LastSeen
import Floodgate.Proofs.Source.Patch
import Floodgate.Proofs.Source.Keys
import Floodgate.Proofs.Stats.WordRange
import Floodgate.Proofs.Stats.Reporting
import Floodgate.Proofs.Stats.Holders
import Floodgate.Proofs.Stats.Figures
import Floodgate.Proofs.Admission.Figures
import Floodgate.Proofs.DryRun
import Floodgate.Proofs.Admission.Overflow
import Floodgate.Proofs.Stats.Overflow
