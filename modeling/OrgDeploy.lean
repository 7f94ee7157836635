import OrgDeploy.Decimal.Shortest
import OrgDeploy.Json.Number
import OrgDeploy.Json.Value
import OrgDeploy.Json.Write
import OrgDeploy.Json.Fault
import OrgDeploy.Json.Scan
import OrgDeploy.Json.Document
import OrgDeploy.Json.Decode
import OrgDeploy.Text.Unicode
import OrgDeploy.Time
import OrgDeploy.Digest.Sha256
import OrgDeploy.Template.Binding
import OrgDeploy.Template.Unit
import OrgDeploy.Template.Basic
import OrgDeploy.Organization.Entity
import OrgDeploy.Organization.Target
import OrgDeploy.Organization.Basic
import OrgDeploy.Render.Artifact
import OrgDeploy.State.Basic
import OrgDeploy.Resolve
import OrgDeploy.Render.Placeholder
import OrgDeploy.Render.Parameter
import OrgDeploy.Render.Basic
import OrgDeploy.Workflow.Task
import OrgDeploy.Workflow.Graph
import OrgDeploy.Workflow.Run
import OrgDeploy.Fs.Path
import OrgDeploy.Fs.Tree
import OrgDeploy.Deploy.Backend
import OrgDeploy.Deploy.Plugin
import OrgDeploy.State.Store
import OrgDeploy.Plan.Basic
import OrgDeploy.Engine.Basic
import OrgDeploy.Engine.Ops
import OrgDeploy.Cli.Similar
import OrgDeploy.Cli.Spec
import OrgDeploy.Cli.Help
import OrgDeploy.Cli.Refusal
import OrgDeploy.Cli.Parse
import OrgDeploy.Cli.Commands
import OrgDeploy.Cli.Report
import OrgDeploy.Cli.Run
import OrgDeploy.Cli.Snapshot
import OrgDeploy.Main
import OrgDeploy.Proofs.Graph.Built
import OrgDeploy.Proofs.Run.Progress
import OrgDeploy.Proofs.Run.Sound
import OrgDeploy.Proofs.Run.Safety
import OrgDeploy.Proofs.Graph.Cycle
import OrgDeploy.Proofs.Plan.Assemble
import OrgDeploy.Proofs.Plan.Unit
import OrgDeploy.Proofs.Render.Imports
import OrgDeploy.Proofs.Resolve.Targets
import OrgDeploy.Proofs.Plan.Template
import OrgDeploy.Proofs.Run.Effects
import OrgDeploy.Proofs.Engine.Commit
import OrgDeploy.Proofs.Run.Cascade
import OrgDeploy.Proofs.Run.Outcome
import OrgDeploy.Proofs.Run.Admission
import OrgDeploy.Proofs.Run.Serial
import OrgDeploy.Proofs.State.Bind
import OrgDeploy.Proofs.Resolve.Accounts
import OrgDeploy.Proofs.Render.CurrentAccount
import OrgDeploy.Proofs.State.Commute
import OrgDeploy.Proofs.State.Exchange
import OrgDeploy.Proofs.Engine.Serial
import OrgDeploy.Proofs.Engine.Reachable
import OrgDeploy.Proofs.Render.Static
import OrgDeploy.Proofs.Render.Frame
import OrgDeploy.Proofs.Fs.Tree
import OrgDeploy.Proofs.Engine.PluginDelete
import OrgDeploy.Proofs.Json.ReadBack
import OrgDeploy.Proofs.Json.Formats
import OrgDeploy.Proofs.Plan.Links
import OrgDeploy.Proofs.Plan.Diff
import OrgDeploy.Proofs.Resolve.Semantics
import OrgDeploy.Proofs.State.Records
import OrgDeploy.Proofs.Render.Sub
import OrgDeploy.Proofs.Run.Hash
import OrgDeploy.Proofs.Graph.Reported
import OrgDeploy.Proofs.Graph.Validation
import OrgDeploy.Proofs.Render.Coercion
import OrgDeploy.Proofs.Engine.ContentHash
import OrgDeploy.Proofs.Deploy.Confinement
import OrgDeploy.Proofs.Organization.Invariant
import OrgDeploy.Proofs.Engine.Rerun
import OrgDeploy.Proofs.Engine.Settled
import OrgDeploy.Proofs.Engine.Converge
