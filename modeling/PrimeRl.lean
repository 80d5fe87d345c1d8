import PrimeRl.Support.Machine
import PrimeRl.Support.OrderedDict
import PrimeRl.Support.Buckets
import PrimeRl.Support.FirstFit
import PrimeRl.Support.Blocks
import PrimeRl.Support.Future
import PrimeRl.Support.Pool
import PrimeRl.Support.Stages
import PrimeRl.Support.LossyFifo
import PrimeRl.Utils.Sequence
import PrimeRl.Transport.Types
import PrimeRl.Value.Types
import PrimeRl.Value.Replay
import PrimeRl.Value.ReplayRuns
import PrimeRl.Value.Coordinator
import PrimeRl.Value.Cadence
import PrimeRl.Value.Batch
import PrimeRl.Value.Trainer
import PrimeRl.Value.TrainLoop
import PrimeRl.Value.Colocated
import PrimeRl.Value.ColocatedRuns
import PrimeRl.Value.Transport
import PrimeRl.Value.TransportRuns
import PrimeRl.Value.Math
import PrimeRl.Value.Inference
import PrimeRl.Value.Service
import PrimeRl.Value.ServiceAccounting
import PrimeRl.Value.ServiceRuns
import PrimeRl.Value.Trajectory
import PrimeRl.Value.Gae
import PrimeRl.Value.Credit
import PrimeRl.Value.Scatter
import PrimeRl.Orchestrator.MessageGraph
import PrimeRl.Orchestrator.Episodes
import PrimeRl.Orchestrator.Trajectories
import PrimeRl.Orchestrator.TrainingLayout
import PrimeRl.Orchestrator.ValueContext
import PrimeRl.Value.StitchedCredit
import PrimeRl.Value.CriticStates
import PrimeRl.Orchestrator.TrainSink
import PrimeRl.Orchestrator.Dispatcher
import PrimeRl.Orchestrator.DispatcherBooks
import PrimeRl.Orchestrator.DispatcherCoroutines
import PrimeRl.Orchestrator.DispatcherScheduling
import PrimeRl.Orchestrator.DispatcherRuns
import PrimeRl.Trainer.Partition
import PrimeRl.Trainer.Batch
import PrimeRl.Trainer.Bins
import PrimeRl.Trainer.Rows
import PrimeRl.Trainer.PackedRows
import PrimeRl.Trainer.BatchGrid
import PrimeRl.Trainer.PrepareBatch
import PrimeRl.Support.Iteration
import PrimeRl.Support.SlotTable
import PrimeRl.Trainer.Runs
import PrimeRl.Trainer.RunSlots
import PrimeRl.Trainer.RunFleet
import PrimeRl.Trainer.RunHistories
import PrimeRl.Support.StepQueue
import PrimeRl.Trainer.Packer
import PrimeRl.Trainer.PackerSelection
import PrimeRl.Trainer.PackerProgress
import PrimeRl.Trainer.PackerRuns
import PrimeRl.Trainer.PackerHistories
import PrimeRl.Support.Owners
import PrimeRl.Trainer.Lora
import PrimeRl.Trainer.LoraShards
import PrimeRl.Trainer.LoraRows
import PrimeRl.Trainer.GridOrigins
import PrimeRl.Trainer.PackerAdapters
import PrimeRl.Orchestrator.Sink
import PrimeRl.Support.Gather
import PrimeRl.Orchestrator.SinkGroups
import PrimeRl.Orchestrator.SinkBatches
import PrimeRl.Orchestrator.SinkRuns
import PrimeRl.Support.Collective
import PrimeRl.Trainer.MultiCkpt
import PrimeRl.Trainer.MultiCkptBarriers
import PrimeRl.Trainer.CkptSessions
import PrimeRl.Transport.Receivers
import PrimeRl.Transport.SocketReceiver
import PrimeRl.Transport.ReceiverRuns
import PrimeRl.Transport.SocketRuns
import PrimeRl.Transport.FileReceiver
import PrimeRl.Transport.FileRuns
import PrimeRl.Orchestrator.EvalSource
import PrimeRl.Orchestrator.EvalSink
import PrimeRl.Orchestrator.EvalCounts
import PrimeRl.Orchestrator.EvalRuns
import PrimeRl.Orchestrator.EvalEpochs
import PrimeRl.Orchestrator.DispatcherBound
import PrimeRl.Utils.Elastic
import PrimeRl.Utils.ElasticRuns
import PrimeRl.Support.Generator
import PrimeRl.Trainer.SftData
import PrimeRl.Trainer.SftStream
import PrimeRl.Trainer.Loss
import PrimeRl.Trainer.LossTokens
import PrimeRl.Trainer.LossRows
import PrimeRl.Trainer.LossGrid
import PrimeRl.Orchestrator.Tether
import PrimeRl.Value.GaeClosedForm
import PrimeRl.Orchestrator.TetherFit
import PrimeRl.Orchestrator.TetherScoring
import PrimeRl.Orchestrator.TetherBranches
import PrimeRl.Orchestrator.TetherGroups
import PrimeRl.Orchestrator.TetherPositions
import PrimeRl.Value.TokenStreams
import PrimeRl.Orchestrator.TetherCredit
import PrimeRl.Support.NumberedQueue
import PrimeRl.Value.ServiceQueue
import PrimeRl.Value.ServiceBatches
import PrimeRl.Value.ServiceOrder
import PrimeRl.Support.SignedWord
import PrimeRl.Trainer.PartitionWords
import PrimeRl.Trainer.PartitionScores
import PrimeRl.Orchestrator.Projection
import PrimeRl.Orchestrator.ProjectionPrefix
import PrimeRl.Support.LittleEndian
import PrimeRl.Transport.Provenance
import PrimeRl.Trainer.VersionGrid
import PrimeRl.Utils.Cp
import PrimeRl.Utils.SequenceShards
import PrimeRl.Support.MessagePack
import PrimeRl.Value.TargetProjection
import PrimeRl.Value.RequestBody
import PrimeRl.Support.PartialSum
import PrimeRl.Value.Loss
import PrimeRl.Value.PackedBatch
import PrimeRl.Value.BatchLoss
import PrimeRl.Trainer.SampleValidation
import PrimeRl.Support.Spans
import PrimeRl.Trainer.ImageTruncation
import PrimeRl.Support.Moments
import PrimeRl.Trainer.TensorSummaries
import PrimeRl.Trainer.SummaryRuns
import PrimeRl.Trainer.WeightCache
import PrimeRl.Trainer.WeightCacheRuns
import PrimeRl.Inference.WeightTransfer
import PrimeRl.Inference.ExpertSlots
import PrimeRl.Inference.KernelLoading
import PrimeRl.Models.Mrope
import PrimeRl.Models.MropePacked
import PrimeRl.Models.Ulysses
import PrimeRl.Models.UlyssesAttention
import PrimeRl.Orchestrator.Echo
import PrimeRl.Orchestrator.LossRouting
import PrimeRl.Orchestrator.RoutedSamples
import PrimeRl.Support.Tiles
import PrimeRl.Models.LmHead
import PrimeRl.Support.Softmax
import PrimeRl.Models.LmHeadForward
import PrimeRl.Models.LmHeadGradient
import PrimeRl.Orchestrator.TetherState
import PrimeRl.Orchestrator.TetherRestore
import PrimeRl.Orchestrator.TetherWindows
import PrimeRl.Orchestrator.TetherPositionWindows
import PrimeRl.Pipeline.PolicyUpdates
import PrimeRl.Pipeline.PolicySteps
import PrimeRl.Pipeline.PolicyOrder
import PrimeRl.Pipeline.Rendezvous
import PrimeRl.Pipeline.PolicyCompletion
import PrimeRl.Pipeline.PolicyDirectories
import PrimeRl.Models.MixtureOfExperts
import PrimeRl.Models.ExpertMixture
import PrimeRl.Trainer.SftStack
import PrimeRl.Trainer.SftStackBuckets
import PrimeRl.Trainer.SftStackRuns
import PrimeRl.Pipeline.WeightWire
import PrimeRl.Orchestrator.GroupContext
import PrimeRl.Orchestrator.GroupContextSecrecy
import PrimeRl.Support.JsonReading
import PrimeRl.Orchestrator.GroupContextEscape
