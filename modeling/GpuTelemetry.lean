import GpuTelemetry.Backend
import GpuTelemetry.Cache.Basic
import GpuTelemetry.Cache.Entry
import GpuTelemetry.Cache.Policy
import GpuTelemetry.Cache.Report
import GpuTelemetry.CommandLine.Options
import GpuTelemetry.CommandLine.Report
import GpuTelemetry.CommandLine.Tool
import GpuTelemetry.Decimal.Binary64
import GpuTelemetry.Decimal.Layout
import GpuTelemetry.Decimal.Reader
import GpuTelemetry.Decimal.Shortest
import GpuTelemetry.Filter
import GpuTelemetry.Inventory
import GpuTelemetry.Job.Basic
import GpuTelemetry.Job.Crew
import GpuTelemetry.Main
import GpuTelemetry.Monitor.Background
import GpuTelemetry.Monitor.Basic
import GpuTelemetry.Monitor.Operations
import GpuTelemetry.Monitor.Shared
import GpuTelemetry.Monitor.Statistics
import GpuTelemetry.Monitor.Ticket
import GpuTelemetry.Monitor.Views
import GpuTelemetry.Notice
import GpuTelemetry.Os.Identity
import GpuTelemetry.Os.Release
import GpuTelemetry.Proofs.Cache.Eviction
import GpuTelemetry.Proofs.Cache.Freshness
import GpuTelemetry.Proofs.Cache.History
import GpuTelemetry.Proofs.Cache.Inclusion
import GpuTelemetry.Proofs.Cache.Storing
import GpuTelemetry.Proofs.Cache.Totals
import GpuTelemetry.Proofs.CommandLine.Grouping
import GpuTelemetry.Proofs.CommandLine.Number
import GpuTelemetry.Proofs.CommandLine.Query
import GpuTelemetry.Proofs.Decimal.Exact
import GpuTelemetry.Proofs.Decimal.Figure
import GpuTelemetry.Proofs.Decimal.Layout
import GpuTelemetry.Proofs.Decimal.Numeral
import GpuTelemetry.Proofs.Decimal.Order
import GpuTelemetry.Proofs.Decimal.Shortest
import GpuTelemetry.Proofs.Filter
import GpuTelemetry.Proofs.Inventory
import GpuTelemetry.Proofs.Inventory.Generation
import GpuTelemetry.Proofs.Job.Crew
import GpuTelemetry.Proofs.Job.Marked
import GpuTelemetry.Proofs.Job.Protocol
import GpuTelemetry.Proofs.Job.Run
import GpuTelemetry.Proofs.Job.Settled
import GpuTelemetry.Proofs.Json.Balance
import GpuTelemetry.Proofs.Json.Grammar
import GpuTelemetry.Proofs.Json.Strings
import GpuTelemetry.Proofs.Latest
import GpuTelemetry.Proofs.Monitor.Background
import GpuTelemetry.Proofs.Monitor.Detection
import GpuTelemetry.Proofs.Monitor.Interleaving
import GpuTelemetry.Proofs.Monitor.Lateness
import GpuTelemetry.Proofs.Monitor.Load
import GpuTelemetry.Proofs.Monitor.Marks
import GpuTelemetry.Proofs.Monitor.Provenance
import GpuTelemetry.Proofs.Monitor.Publication
import GpuTelemetry.Proofs.Monitor.Range
import GpuTelemetry.Proofs.Monitor.Refresh
import GpuTelemetry.Proofs.Monitor.Sequential
import GpuTelemetry.Proofs.Monitor.Slots
import GpuTelemetry.Proofs.Monitor.Ticket
import GpuTelemetry.Proofs.Monitor.Transparency
import GpuTelemetry.Proofs.Monitor.Views
import GpuTelemetry.Proofs.Monitor.Visit
import GpuTelemetry.Proofs.Os.Json
import GpuTelemetry.Proofs.Os.Release
import GpuTelemetry.Proofs.Reading.Identity
import GpuTelemetry.Proofs.Reading.Json
import GpuTelemetry.Proofs.Reading.Plausible
import GpuTelemetry.Proofs.Registry
import GpuTelemetry.Proofs.Registry.Isolation
import GpuTelemetry.Proofs.Registry.Listing
import GpuTelemetry.Proofs.Registry.Watched
import GpuTelemetry.Proofs.Settings
import GpuTelemetry.Proofs.Smi.Lines
import GpuTelemetry.Proofs.Smi.Output
import GpuTelemetry.Proofs.Smi.Units
import GpuTelemetry.Proofs.Source
import GpuTelemetry.Proofs.Sysfs.Amd
import GpuTelemetry.Proofs.Sysfs.Attribute
import GpuTelemetry.Proofs.Sysfs.Card
import GpuTelemetry.Proofs.Sysfs.ClockTable
import GpuTelemetry.Proofs.Sysfs.Isolation
import GpuTelemetry.Proofs.Sysfs.Tree
import GpuTelemetry.Proofs.Text.Fields
import GpuTelemetry.Proofs.Text.Line
import GpuTelemetry.Proofs.Text.Numeral
import GpuTelemetry.Proofs.Text.Pieces
import GpuTelemetry.Proofs.Text.Spelling
import GpuTelemetry.Quantity
import GpuTelemetry.Reading.Basic
import GpuTelemetry.Reading.Summary
import GpuTelemetry.Registry
import GpuTelemetry.Settings
import GpuTelemetry.Smi.Command
import GpuTelemetry.Smi.Table
import GpuTelemetry.Source
import GpuTelemetry.Status
import GpuTelemetry.Sysfs.Amd
import GpuTelemetry.Sysfs.Attribute
import GpuTelemetry.Sysfs.Card
import GpuTelemetry.Sysfs.ClockTable
import GpuTelemetry.Sysfs.Intel
import GpuTelemetry.Sysfs.Tree
import GpuTelemetry.Text.Basic
import GpuTelemetry.Text.Numeral
import GpuTelemetry.Text.Quoted
import GpuTelemetry.Vendor
