import ReplicaDiff.Config.Json
import ReplicaDiff.Config.Shown
import ReplicaDiff.Main
import ReplicaDiff.Proofs.Batch.Send
import ReplicaDiff.Proofs.CommandLine.CheckConfig
import ReplicaDiff.Proofs.Retry.Execution
import ReplicaDiff.Proofs.Run.Again
import ReplicaDiff.Proofs.Run.Budget
import ReplicaDiff.Proofs.Run.Inputs
import ReplicaDiff.Proofs.Run.Losses
import ReplicaDiff.Proofs.Run.Snapshots
import ReplicaDiff.Proofs.Tally.Interleaving
import ReplicaDiff.Store.Layers
import ReplicaDiff.Proofs.Partition.Batches
import ReplicaDiff.Proofs.FileTree.Stations
import ReplicaDiff.Proofs.Output.Independence
import ReplicaDiff.Proofs.World.Answered
import ReplicaDiff.Proofs.Worker.Account
import ReplicaDiff.Proofs.Partition.Shares
import ReplicaDiff.Proofs.Retry.Backoff
import ReplicaDiff.Proofs.Config.Json
import ReplicaDiff.Proofs.Worker.Counting
import ReplicaDiff.Proofs.Run.Progress
import ReplicaDiff.Proofs.Comparison
import ReplicaDiff.Proofs.DiffSet.Records
import ReplicaDiff.Proofs.Document.Json
import ReplicaDiff.Proofs.Config.Partial
import ReplicaDiff.Proofs.KeyList.Loading
import ReplicaDiff.Proofs.CommandLine.Precedence
import ReplicaDiff.Proofs.CommandLine.Passwords
import ReplicaDiff.Proofs.Run.Counters
import ReplicaDiff.Proofs.Batch.Recording
