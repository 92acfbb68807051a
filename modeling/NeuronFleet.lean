import NeuronFleet.Number.Binary
import NeuronFleet.Number.Arith
import NeuronFleet.Number.Single
import NeuronFleet.Number.Double
import NeuronFleet.Number.Shortest
import NeuronFleet.Number.Layout
import NeuronFleet.Number.Reading
import NeuronFleet.Text.CharSet
import NeuronFleet.Text.Printable
import NeuronFleet.Text.Escape
import NeuronFleet.Text.Case
import NeuronFleet.Text.Blank
import NeuronFleet.Json.Basic
import NeuronFleet.Schema
import NeuronFleet.Json.Read
import NeuronFleet.Error
import NeuronFleet.Identity
import NeuronFleet.Weights.Row
import NeuronFleet.Weights.Matrix
import NeuronFleet.Metagraph.State
import NeuronFleet.Metagraph.Link
import NeuronFleet.Axon
import NeuronFleet.Sync
import NeuronFleet.Script.Sync
import NeuronFleet.Report
import NeuronFleet.Yaml.Scanner
import NeuronFleet.Yaml.Parser
import NeuronFleet.Yaml.Document
import NeuronFleet.Yaml.Decode
import NeuronFleet.Yaml.Emit
import NeuronFleet.Config.Fleet
import NeuronFleet.Config.Document
import NeuronFleet.Yaml.Tree.Scanner
import NeuronFleet.Yaml.Tree.Parser
import NeuronFleet.Yaml.Tree
import NeuronFleet.Settings.Problem
import NeuronFleet.Settings.Value
import NeuronFleet.Settings.Read
import NeuronFleet.Config.Load
import NeuronFleet.Text.Duration
import NeuronFleet.Metagraph.Store
import NeuronFleet.Schedule
import NeuronFleet.Checkpoint
import NeuronFleet.Random.ChaCha
import NeuronFleet.Random.Uniform
import NeuronFleet.Corpus
import NeuronFleet.Params
import NeuronFleet.Model
import NeuronFleet.Neuron
import NeuronFleet.Serve
import NeuronFleet.Script.Neuron
import NeuronFleet.Report.Run
import NeuronFleet.Metrics
import NeuronFleet.Supervision.Slot
import NeuronFleet.Supervision.Pool
import NeuronFleet.Supervision.Launcher
import NeuronFleet.FileTree
import NeuronFleet.Workspace
import NeuronFleet.Workers
import NeuronFleet.Cli
import NeuronFleet.Main
import NeuronFleet.Proofs.Number.Rounding
import NeuronFleet.Proofs.Number.Single
import NeuronFleet.Proofs.Number.Order
import NeuronFleet.Proofs.Number.Signed
import NeuronFleet.Proofs.Weights.Normalize
import NeuronFleet.Proofs.Metagraph.Shape
import NeuronFleet.Proofs.Metagraph.Changes
import NeuronFleet.Proofs.Weights.SquareView
import NeuronFleet.Proofs.Metagraph.Mirror
import NeuronFleet.Proofs.Metagraph.Interleaving
import NeuronFleet.Proofs.Sync.RunningRow
import NeuronFleet.Proofs.Sync.Cadence
import NeuronFleet.Proofs.Sync.Retry
import NeuronFleet.Proofs.Neuron.Tally
import NeuronFleet.Proofs.Neuron.Run
import NeuronFleet.Proofs.Supervision.FaultSlot
import NeuronFleet.Proofs.Supervision.Delivery
import NeuronFleet.Proofs.Supervision.Check
import NeuronFleet.Proofs.Supervision.RunOutcome
import NeuronFleet.Proofs.Supervision.Gauge
import NeuronFleet.Proofs.Supervision.Launching
import NeuronFleet.Proofs.Config.FanOut
import NeuronFleet.Proofs.Config.SharedLists
import NeuronFleet.Proofs.Json.Reading
import NeuronFleet.Proofs.Json.ReadBack
import NeuronFleet.Proofs.Params.Opening
import NeuronFleet.Proofs.Model.Training
import NeuronFleet.Proofs.Report.ReadBack
import NeuronFleet.Proofs.Report.Stream
import NeuronFleet.Proofs.Axon.Ranking
import NeuronFleet.Proofs.Checkpoint.BestLoss
import NeuronFleet.Proofs.Schedule.Multiplier
import NeuronFleet.Proofs.Params.RoundTrip
import NeuronFleet.Proofs.Metagraph.Document
import NeuronFleet.Proofs.Corpus.Runs
