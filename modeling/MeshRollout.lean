import MeshRollout.Address
import MeshRollout.ApiServer.Exchange
import MeshRollout.ApiServer.Objects
import MeshRollout.ApiServer.Routes
import MeshRollout.ApiServer.Session
import MeshRollout.ApiServer.StatusCode
import MeshRollout.Cluster.MemoryStore
import MeshRollout.Cluster.Program
import MeshRollout.Cluster.Rehearsal
import MeshRollout.Command.Arguments
import MeshRollout.Command.Line
import MeshRollout.Command.Preview
import MeshRollout.Command.Settings
import MeshRollout.Desired.Alignment
import MeshRollout.Desired.Convergence
import MeshRollout.Desired.Download
import MeshRollout.Desired.Manifest
import MeshRollout.Desired.Notice
import MeshRollout.Dict
import MeshRollout.Failure
import MeshRollout.Json.Fault
import MeshRollout.Json.Number
import MeshRollout.Json.Printer
import MeshRollout.Json.Quoted
import MeshRollout.Json.Reader
import MeshRollout.Json.Span
import MeshRollout.Main
import MeshRollout.Mesh.DestinationRule
import MeshRollout.Mesh.EnvoyFilter
import MeshRollout.Mesh.Gateway
import MeshRollout.Mesh.Meta
import MeshRollout.Mesh.VirtualService
import MeshRollout.Name
import MeshRollout.Number.Binary64
import MeshRollout.Number.Numeral
import MeshRollout.Number.Shortest
import MeshRollout.Object.Basic
import MeshRollout.Object.Meta
import MeshRollout.Owner
import MeshRollout.Proofs.Dict
import MeshRollout.Proofs.Name
import MeshRollout.Proofs.Service.Valid
import MeshRollout.Proofs.Traffic.FirstMatch
import MeshRollout.Proofs.Traffic.Tagged
import MeshRollout.Resource
import MeshRollout.Rollout.Outcome
import MeshRollout.Rollout.Reconciliation
import MeshRollout.Rollout.Sweep
import MeshRollout.Route.Basic
import MeshRollout.Route.Schema
import MeshRollout.Route.Status
import MeshRollout.Service.Basic
import MeshRollout.Service.Flaw
import MeshRollout.Shape.Fields
import MeshRollout.Shape.Mismatch
import MeshRollout.Shape.Reading
import MeshRollout.Text.Alphanumeric
import MeshRollout.Text.Blank
import MeshRollout.Text.CharClass
import MeshRollout.Text.Hidden
import MeshRollout.Text.LowerCase
import MeshRollout.Text.Quoted
import MeshRollout.Text.Split
import MeshRollout.Time.Calendar
import MeshRollout.Time.Duration
import MeshRollout.Time.Instant
import MeshRollout.Traffic.Bundle
import MeshRollout.Traffic.Rules
import MeshRollout.Traffic.Script
import MeshRollout.Traffic.Tagging
import MeshRollout.Value
import MeshRollout.Yaml.Composition
import MeshRollout.Yaml.Document
import MeshRollout.Yaml.Lexer
import MeshRollout.Yaml.Lexing
import MeshRollout.Yaml.Node
import MeshRollout.Yaml.Printer
import MeshRollout.Yaml.Scalar
import MeshRollout.Yaml.Token
import MeshRollout.Yaml.Writing
import MeshRollout.Proofs.Rollout.Produced
import MeshRollout.Proofs.Rollout.Identities
import MeshRollout.Proofs.Cluster.Answers
import MeshRollout.Proofs.Cluster.Rules
import MeshRollout.Proofs.Cluster.Uses
import MeshRollout.Proofs.Mesh.Plain
import MeshRollout.Proofs.Owner
import MeshRollout.Proofs.Rollout.Custody
import MeshRollout.Proofs.Rollout.Settled
import MeshRollout.Proofs.Cluster.Versions
import MeshRollout.Proofs.Cluster.Turns
import MeshRollout.Proofs.Cluster.Quiet
import MeshRollout.Proofs.Desired.Agreement
import MeshRollout.Proofs.Desired.LostUpdate
import MeshRollout.Proofs.Desired.Passes
import MeshRollout.Proofs.Desired.Converged
import MeshRollout.Proofs.Rollout.Overlap
import MeshRollout.Proofs.Yaml.Pieces
import MeshRollout.Proofs.ApiServer.Finalizers
import MeshRollout.Proofs.Cluster.Leads
import MeshRollout.Proofs.Rollout.Rejection
import MeshRollout.Proofs.Traffic.Subsets
import MeshRollout.Proofs.Traffic.Consistency
import MeshRollout.Proofs.Traffic.Script
import MeshRollout.Proofs.Rollout.Dangling
import MeshRollout.Proofs.Rollout.Departure
import MeshRollout.Proofs.Rollout.WriteOrder
import MeshRollout.Proofs.Cluster.Interruption
import MeshRollout.Proofs.Cluster.Steady
import MeshRollout.Proofs.Cluster.Contents
import MeshRollout.Proofs.Rollout.SweepEnd
import MeshRollout.Proofs.Rollout.Resumption
import MeshRollout.Proofs.Rollout.Stopping
import MeshRollout.Proofs.Delivery
import MeshRollout.Proofs.Rollout.Refusal
import MeshRollout.Proofs.Desired.Stability
import MeshRollout.Proofs.Desired.Isolation
import MeshRollout.Proofs.Desired.Notices
import MeshRollout.Proofs.Rollout.Account
import MeshRollout.Proofs.Rollout.History
import MeshRollout.Proofs.Address
import MeshRollout.Proofs.Mesh.Legible
import MeshRollout.Proofs.Rollout.DryRun
import MeshRollout.Proofs.Rollout.Rendering
import MeshRollout.Proofs.Traffic.Forwarding
import MeshRollout.Proofs.Traffic.Priority
import MeshRollout.Proofs.Service.WellFormed
import MeshRollout.Proofs.Mesh.Injective
import MeshRollout.Proofs.Rollout.SweepReport
import MeshRollout.Proofs.Service.Spelling
import MeshRollout.Proofs.Time.Normal
import MeshRollout.Proofs.Traffic.Stickiness
import MeshRollout.Proofs.Yaml.Conversion
import MeshRollout.Proofs.Yaml.Splitting
import MeshRollout.Proofs.Cluster.Numbering
import MeshRollout.Proofs.Desired.Identity
import MeshRollout.Proofs.Desired.Partition
import MeshRollout.Proofs.Desired.Ledger
