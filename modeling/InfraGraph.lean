import InfraGraph.Adapter.Options
import InfraGraph.Adapter.Standard
import InfraGraph.Catalogue
import InfraGraph.Digest
import InfraGraph.Failure.Arguments
import InfraGraph.Graph.Merge
import InfraGraph.Graph.Record
import InfraGraph.Logging.Sinks
import InfraGraph.Number.Numeral
import InfraGraph.Plan
import InfraGraph.Proofs.Graph.Merge
import InfraGraph.Proofs.Graph.Resolution
import InfraGraph.Proofs.Plan.Agreement
import InfraGraph.Proofs.Text.Quoted
import InfraGraph.Proofs.Operation
import InfraGraph.Proofs.Graph.Diagnosis
import InfraGraph.Proofs.Record
import InfraGraph.Proofs.Graph.Likeness
import InfraGraph.Proofs.Graph.Record
import InfraGraph.Proofs.Version
import InfraGraph.Proofs.Graph.Acceptance
import InfraGraph.Proofs.Graph.Sources
import InfraGraph.Proofs.Graph.Component
import InfraGraph.Proofs.Graph.Union
import InfraGraph.Proofs.Order.Presentation
import InfraGraph.Proofs.Graph.Parts
import InfraGraph.Proofs.Adapter.Registry
import InfraGraph.Proofs.Adapter.Transform
import InfraGraph.Proofs.Graph.Presentation
import InfraGraph.Proofs.Graph.Growth
import InfraGraph.Proofs.Script
import InfraGraph.Proofs.Settings
import InfraGraph.Proofs.Graph.Rounds
import InfraGraph.Proofs.Value.Hashable
import InfraGraph.Proofs.Graph.Keys
import InfraGraph.Proofs.Graph.Construction
import InfraGraph.Proofs.Text.Integer
import InfraGraph.Proofs.Version.Faithful
