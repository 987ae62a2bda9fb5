import S4BXI.Nic.Runs
import S4BXI.Safety.AtMostOnce
import S4BXI.Safety.Effects
import S4BXI.Matching.NonOvertaking
import S4BXI.Api.Counter
import S4BXI.Api.PollReturns
import S4BXI.Api.EventQueues
import S4BXI.Api.Interfaces
import S4BXI.Api.EventPolls
import S4BXI.E2e.Timeouts
import S4BXI.Flow.Commands
import S4BXI.Flow.Releases
import S4BXI.Acks.Calls
import S4BXI.Acks.Agreement
import S4BXI.Acks.Completion
import S4BXI.Acks.Successes
import S4BXI.Flow.Repayments
import S4BXI.Flow.Order
import S4BXI.Lifetime.Leaks
import S4BXI.Lifetime.Uses
import S4BXI.Matching.Reports
import S4BXI.Memory.PartialExact
import S4BXI.Memory.AtomicOp
import S4BXI.Memory.Bounds
import S4BXI.Matching.Overflows
import S4BXI.Matching.Unlinking
import S4BXI.Memory.AutoUnlink
import S4BXI.Memory.Payloads
import S4BXI.Memory.Reductions
import S4BXI.App.Privatization
import S4BXI.App.Sampling
import S4BXI.Mpi.Requests
