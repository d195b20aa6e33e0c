import DonutServer.Lib.Effect
import DonutServer.Lib.OrderedDict
import DonutServer.Lib.Remembered
import DonutServer.Lib.PyText
import DonutServer.Lib.Glob
import DonutServer.Lib.Result
import DonutServer.Lib.Recency
import DonutServer.Lib.System
import DonutServer.Lib.Measure
import DonutServer.Lib.AtomicFile
import DonutServer.Lib.Fair
import DonutServer.Lib.FifoLock
import DonutServer.Lib.Event
import DonutServer.Lib.BigEndian
import DonutServer.Lib.Buffer
import DonutServer.Lib.Plane
import DonutServer.Protocol
import DonutServer.Wire.Pack
import DonutServer.Wire.RoundTrip
import DonutServer.Wire.Hostile
import DonutServer.Wire.InPlace
import DonutServer.Wire.Limits
import DonutServer.Commands
import DonutServer.Coordinator.Stack
import DonutServer.Coordinator.Config
import DonutServer.Coordinator.Calibs
import DonutServer.Coordinator.Globals
import DonutServer.Coordinator.Prepare
import DonutServer.Coordinator.Caches
import DonutServer.Coordinator.Job
import DonutServer.Coordinator.Isolation
import DonutServer.Coordinator.Recertify
import DonutServer.Coordinator.Loop
import DonutServer.Coordinator.Reshard
import DonutServer.Coordinator.ShardCache
import DonutServer.Coordinator.ShardHistory
import DonutServer.Coordinator.Activation
import DonutServer.Coordinator.PreparedLru
import DonutServer.Coordinator.CrossCheck
import DonutServer.Producer.Afw
import DonutServer.Producer.Assemble
import DonutServer.Producer.OneFile
import DonutServer.Producer.Parallel
import DonutServer.Producer.Slots
import DonutServer.Producer.Layout
import DonutServer.Producer.Blob
import DonutServer.Producer.Source
import DonutServer.Producer.Agree
import DonutServer.Producer.Deliver
import DonutServer.Flight.State
import DonutServer.Flight.Step
import DonutServer.Flight.Moves
import DonutServer.Flight.Serial
import DonutServer.Flight.Threads
import DonutServer.Flight.FrontEnd
import DonutServer.Flight.Lifecycle
import DonutServer.Flight.Primed
import DonutServer.Flight.Pairing
import DonutServer.Flight.Snapshot
import DonutServer.Flight.ServedConfig
import DonutServer.Flight.Calls
import DonutServer.Flight.Callers
import DonutServer.Flight.Attended
import DonutServer.Flight.Answered
import DonutServer.Flight.Serves
import DonutServer.Flight.Reading
import DonutServer.Flight.AwaitReply
import DonutServer.Flight.BringUp
import DonutServer.PlotQueue
import DonutServer.Plots.Drain
import DonutServer.Plots.Conserve
import DonutServer.Plots.Errors
import DonutServer.Plots.Drains
import DonutServer.Plots.Loss
import DonutServer.Plots.Retries
import DonutServer.SensorFiles
import DonutServer.Producer.Resolve
import DonutServer.Producer.Replay
import DonutServer.Server.State
import DonutServer.Server.Step
import DonutServer.Server.Moves
import DonutServer.Server.Stranded
import DonutServer.Server.Links
import DonutServer.Server.Routing
import DonutServer.Server.OneRun
import DonutServer.Server.Hook
import DonutServer.Server.Hostile
import DonutServer.Server.Awaited
import DonutServer.Server.Block
import DonutServer.Server.JobLife
import DonutServer.Server.Select
import DonutServer.Trigger.Settle
import DonutServer.Trigger.Watched
import DonutServer.Producer.Complete
import DonutServer.Lib.Lines
import DonutServer.Lib.CodePoints
import DonutServer.Lib.Significant
import DonutServer.Lib.Greatest
import DonutServer.Lib.Json
import DonutServer.Dashboard.LogTail
import DonutServer.Dashboard.JobSlice
import DonutServer.Dashboard.TableView
import DonutServer.Dashboard.Paging
import DonutServer.Dashboard.Conveyed
import DonutServer.StampFiles
import DonutServer.Plots.Backfill
import DonutServer.Plots.Manifest
import DonutServer.Overrides.Parse
import DonutServer.Overrides.Bound
import DonutServer.Overrides.Outcomes
import DonutServer.Lib.Lockstep
import DonutServer.Lib.Trace
import DonutServer.Coordinator.OverrideKey
import DonutServer.Coordinator.Twins
import DonutServer.Coordinator.Replaced
import DonutServer.Coordinator.Deferred
import DonutServer.Coordinator.Handover
import DonutServer.Coordinator.Handled
import DonutServer.Coordinator.OwnWrites
import DonutServer.Plots.Depot
import DonutServer.Plots.Whole
import DonutServer.Plots.Standing
import DonutServer.Plots.Works
import DonutServer.Plots.Coupled
import DonutServer.Plots.Drawn
import DonutServer.Coordinator.Plain
import DonutServer.Coordinator.Cacheless
import DonutServer.Server.Incoming
import DonutServer.Server.Ledger
import DonutServer.Server.Done
