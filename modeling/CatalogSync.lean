import CatalogSync.Changes
import CatalogSync.Collections.SortedMap
import CatalogSync.CommandLine.Arguments
import CatalogSync.CommandLine.Failure
import CatalogSync.CommandLine.Run
import CatalogSync.CommandLine.RunName
import CatalogSync.CommandLine.Shell
import CatalogSync.Consumer.Cancellation
import CatalogSync.Consumer.Command
import CatalogSync.Consumer.Error
import CatalogSync.Consumer.Handler
import CatalogSync.Consumer.Lines
import CatalogSync.Consumer.Loop
import CatalogSync.Consumer.Queue
import CatalogSync.Consumer.Scripted
import CatalogSync.Consumer.Settings
import CatalogSync.Consumer.Source
import CatalogSync.Decimal.Shortest
import CatalogSync.Diff
import CatalogSync.Duration
import CatalogSync.Entity.Basic
import CatalogSync.Entity.Codec
import CatalogSync.Entity.Sample
import CatalogSync.Event
import CatalogSync.Guard
import CatalogSync.Http.Address
import CatalogSync.Http.Canned
import CatalogSync.Http.Endpoint
import CatalogSync.Http.Message
import CatalogSync.Http.Wire
import CatalogSync.Json.Basic
import CatalogSync.Json.Codec
import CatalogSync.Json.Number
import CatalogSync.Json.Printer
import CatalogSync.Json.Quoted
import CatalogSync.Json.Shape
import CatalogSync.Json.Tree
import CatalogSync.Main
import CatalogSync.Order.Basic
import CatalogSync.Order.Components
import CatalogSync.Order.Events
import CatalogSync.Order.Sequence
import CatalogSync.Plan
import CatalogSync.Policy
import CatalogSync.Proofs.Order.Components
import CatalogSync.Provenance
import CatalogSync.Reconcile.Error
import CatalogSync.Reconcile.Report
import CatalogSync.Reconcile.Run
import CatalogSync.Settings
import CatalogSync.Store.Basic
import CatalogSync.Store.Catalog
import CatalogSync.Store.Error
import CatalogSync.Store.Local
import CatalogSync.Store.Scripted
import CatalogSync.Text.Blank
import CatalogSync.Text.Percent
import CatalogSync.Text.Quoted
import CatalogSync.Text.Unshown
import CatalogSync.Text.Utf8
import CatalogSync.Validation
import CatalogSync.Proofs.Order.Sequence
import CatalogSync.Proofs.Order.Dependencies
import CatalogSync.Proofs.Dialogue
import CatalogSync.Proofs.Changes
import CatalogSync.Proofs.Reconcile.Course
import CatalogSync.Proofs.Reconcile.Deletions
import CatalogSync.Proofs.Store.Contents
import CatalogSync.Proofs.Store.Cascade
import CatalogSync.Proofs.Reconcile.Kept
import CatalogSync.Proofs.Reconcile.Dangling
import CatalogSync.Proofs.Reconcile.Accounts
import CatalogSync.Proofs.Reconcile.Settled
import CatalogSync.Proofs.Reconcile.Refused
import CatalogSync.Proofs.Reconcile.Outcome
import CatalogSync.Proofs.Reconcile.Repeated
import CatalogSync.Proofs.Reconcile.Reordered
import CatalogSync.Proofs.Plan
import CatalogSync.Proofs.Consumer.Course
import CatalogSync.Proofs.Consumer.Trace
import CatalogSync.Proofs.Consumer.Undisturbed
import CatalogSync.Proofs.Store.Frozen
import CatalogSync.Proofs.Reconcile.Modes
import CatalogSync.Proofs.Http.RoundTrips
import CatalogSync.Proofs.Store.Batches
import CatalogSync.Proofs.Consumer.Protocol
import CatalogSync.Proofs.Order.Selection
import CatalogSync.Proofs.Order.Cycles
import CatalogSync.Proofs.Codec.Records
import CatalogSync.Proofs.Order.Renumbered
import CatalogSync.Proofs.Order.Edges
import CatalogSync.Proofs.Store.Closure
import CatalogSync.Proofs.Store.LastWrite
import CatalogSync.Proofs.Text.Percent
import CatalogSync.Proofs.Store.BatchDeletes
import CatalogSync.Proofs.Http.Addresses
import CatalogSync.Proofs.Store.Schemas
import CatalogSync.Proofs.Store.Requests
import CatalogSync.Proofs.Consumer.Lines
import CatalogSync.Proofs.Validation
import CatalogSync.Proofs.Partition
import CatalogSync.Proofs.Order.InPlace
import CatalogSync.Proofs.RefPlan
import CatalogSync.Proofs.Consumer.Drained
import CatalogSync.Proofs.Store.Related
import CatalogSync.Proofs.Consumer.Delivery
import CatalogSync.Proofs.Order.Shapes
import CatalogSync.Proofs.Reconcile.FromNothing
