import CompositeIndex.Main
import CompositeIndex.Refresh.Rehearsal
import CompositeIndex.Tag.Json
import CompositeIndex.Warehouse.Pool
import CompositeIndex.Proofs.Warehouse.Lookup
import CompositeIndex.Proofs.Warehouse.History
import CompositeIndex.Proofs.Warehouse.Integrity
import CompositeIndex.Proofs.Warehouse.LastValue
import CompositeIndex.Proofs.Store.Latest
import CompositeIndex.Proofs.Store.Agreement
import CompositeIndex.Proofs.Store.Interchange
import CompositeIndex.Proofs.Refresh.Steady
import CompositeIndex.Proofs.Refresh.Uninterrupted
import CompositeIndex.Proofs.Warehouse.Attachments
import CompositeIndex.Proofs.Index.Specification
import CompositeIndex.Proofs.Refresh.Accounts
import CompositeIndex.Proofs.Command.ExitCode
import CompositeIndex.Proofs.Refresh.Lowered
import CompositeIndex.Proofs.Refresh.Interruption
import CompositeIndex.Proofs.Catalog.Discovery
import CompositeIndex.Proofs.Refresh.Listings
import CompositeIndex.Proofs.Index.EffectiveDivisor
import CompositeIndex.Proofs.Refresh.Laws
import CompositeIndex.Proofs.Refresh.Transitions
import CompositeIndex.Proofs.Refresh.Isolation
import CompositeIndex.Proofs.Refresh.PassBound
import CompositeIndex.Proofs.Seed.Computable
import CompositeIndex.Proofs.Seed.Effect
import CompositeIndex.Proofs.Time.Bounds
import CompositeIndex.Proofs.Time.Intervals
import CompositeIndex.Proofs.Refresh.Ending
import CompositeIndex.Proofs.Command.Settings
import CompositeIndex.Proofs.Output.Framing
import CompositeIndex.Proofs.Index.Staleness
import CompositeIndex.Proofs.Warehouse.Replacement
import CompositeIndex.Proofs.Warehouse.TagListings
import CompositeIndex.Proofs.Warehouse.Batches
import CompositeIndex.Proofs.Seed.Failure
import CompositeIndex.Proofs.Seed.Timeline
import CompositeIndex.Proofs.Seed.Walks
import CompositeIndex.Proofs.Decimal.Rounding
import CompositeIndex.Proofs.Decimal.Overflow
import CompositeIndex.Proofs.Index.Finiteness
import CompositeIndex.Proofs.Time.Years
import CompositeIndex.Proofs.Refresh.Reach
import CompositeIndex.Proofs.Warehouse.Connections
import CompositeIndex.Proofs.Command.DefaultStore
import CompositeIndex.Proofs.Catalog.Groups
import CompositeIndex.Proofs.Tag.Grammar
import CompositeIndex.Proofs.Index.Override
import CompositeIndex.Proofs.Warehouse.Reopening
import CompositeIndex.Proofs.Index.ConfigJson
