import EdgeFields.Assoc
import EdgeFields.Catalogue
import EdgeFields.Definition
import EdgeFields.Document
import EdgeFields.EdgeEvent
import EdgeFields.Entity
import EdgeFields.Fault
import EdgeFields.FieldKey
import EdgeFields.Filter.Active
import EdgeFields.Filter.Clause
import EdgeFields.Filter.Search
import EdgeFields.Gateway
import EdgeFields.Hooks
import EdgeFields.Hooks.Rule
import EdgeFields.Index.Batch
import EdgeFields.Index.Client
import EdgeFields.Index.Failure
import EdgeFields.Index.Memory
import EdgeFields.Index.Script
import EdgeFields.Index.Writer
import EdgeFields.Json.Compact
import EdgeFields.Number.Binary64
import EdgeFields.Number.FloatText
import EdgeFields.Number.Quantity
import EdgeFields.Number.Shortest
import EdgeFields.Operation
import EdgeFields.Proofs.ActiveFilters
import EdgeFields.Proofs.Agreement
import EdgeFields.Proofs.Atomicity
import EdgeFields.Proofs.Attempts
import EdgeFields.Proofs.BothEnds
import EdgeFields.Proofs.BulkLines
import EdgeFields.Proofs.BulkReport
import EdgeFields.Proofs.CleanTexts
import EdgeFields.Proofs.Collisions
import EdgeFields.Proofs.ComposedFilters
import EdgeFields.Proofs.Convergence
import EdgeFields.Proofs.Decimals
import EdgeFields.Proofs.DeclarationForms
import EdgeFields.Proofs.Declared
import EdgeFields.Proofs.Delivery
import EdgeFields.Proofs.Dispatch
import EdgeFields.Proofs.EdgeHistory
import EdgeFields.Proofs.EdgeOperations
import EdgeFields.Proofs.Equality
import EdgeFields.Proofs.FieldChange
import EdgeFields.Proofs.FieldReport
import EdgeFields.Proofs.FilterClauses
import EdgeFields.Proofs.FilterFaults
import EdgeFields.Proofs.FilterMeaning
import EdgeFields.Proofs.FilteredSearch
import EdgeFields.Proofs.FirstPages
import EdgeFields.Proofs.FullIndex
import EdgeFields.Proofs.Idempotence
import EdgeFields.Proofs.Incremental
import EdgeFields.Proofs.IndexReading
import EdgeFields.Proofs.Interleaving
import EdgeFields.Proofs.JsonTexts
import EdgeFields.Proofs.KeptDefinitions
import EdgeFields.Proofs.Links
import EdgeFields.Proofs.Loaded
import EdgeFields.Proofs.MalformedDeclarations
import EdgeFields.Proofs.Outcome
import EdgeFields.Proofs.Overwriting
import EdgeFields.Proofs.Pages
import EdgeFields.Proofs.RelatedSearch
import EdgeFields.Proofs.Replacements
import EdgeFields.Proofs.Replay
import EdgeFields.Proofs.RequestTexts
import EdgeFields.Proofs.ResolvedFilters
import EdgeFields.Proofs.Resync
import EdgeFields.Proofs.Snapshots
import EdgeFields.Proofs.Spellings
import EdgeFields.Proofs.Texts
import EdgeFields.Proofs.WrittenFields
import EdgeFields.RelatedFields
import EdgeFields.Report
import EdgeFields.Schema
import EdgeFields.Session
import EdgeFields.Settings
import EdgeFields.Store
import EdgeFields.Text.Blank
import EdgeFields.Text.Case
import EdgeFields.Text.CaseTable
import EdgeFields.Text.Clean
import EdgeFields.Text.Digit
import EdgeFields.Text.Integer
import EdgeFields.Text.Printable
import EdgeFields.Text.Quoted
import EdgeFields.Value.Basic
import EdgeFields.Value.Key
import EdgeFields.Value.Read
import EdgeFields.Value.Same
import EdgeFields.Value.Text
