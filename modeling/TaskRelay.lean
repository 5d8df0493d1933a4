import TaskRelay.Text.Blank
import TaskRelay.Text.UpperCase
import TaskRelay.Text.Quoted
import TaskRelay.TaskList.Wire
import TaskRelay.Context
import TaskRelay.Retry
import TaskRelay.Pipeline
import TaskRelay.Registry
import TaskRelay.Engine.Assembly
import TaskRelay.Upsert
import TaskRelay.Parallel.Run
import TaskRelay.Ulid
import TaskRelay.JobEvent
import TaskRelay.Collection
import TaskRelay.Lease
import TaskRelay.Site
import TaskRelay.Worker.Server
import TaskRelay.Worker.Drain
import TaskRelay.Scenario
import TaskRelay.Step.Script
import TaskRelay.Demo
import TaskRelay.Config.Load
import TaskRelay.Json.View
import TaskRelay.Config.Encode
import TaskRelay.CommandLine.Options
import TaskRelay.CommandLine.Work
import TaskRelay.Main
import TaskRelay.Proofs.Json.Lexing
import TaskRelay.Proofs.Json.RoundTrip
import TaskRelay.Proofs.Json.General
import TaskRelay.Proofs.Headers
import TaskRelay.Proofs.Phase
import TaskRelay.Proofs.Retry
import TaskRelay.Proofs.TaskList.Keys
import TaskRelay.Proofs.TaskList.Lookup
import TaskRelay.Proofs.TaskList.Wire
import TaskRelay.Proofs.TaskList.Readers
import TaskRelay.Proofs.TaskList.Priority
import TaskRelay.Proofs.TaskList.Merging
import TaskRelay.Proofs.TaskList.Resuming
import TaskRelay.Proofs.Collection
import TaskRelay.Proofs.Lease
import TaskRelay.Proofs.Site.Frame
import TaskRelay.Proofs.Site.Posting
import TaskRelay.Proofs.Worker.Turn
import TaskRelay.Proofs.Worker.Drain
import TaskRelay.Proofs.Worker.Ticker
import TaskRelay.Proofs.Engine.Iteration
import TaskRelay.Proofs.Run.Plain
import TaskRelay.Proofs.Run.Rounds
import TaskRelay.Proofs.Run.Wire
import TaskRelay.Proofs.Run.Calls
import TaskRelay.Proofs.Run.Books
import TaskRelay.Proofs.Run.Protocol
import TaskRelay.Proofs.Run.Budget
import TaskRelay.Proofs.Run.Schedule
import TaskRelay.Proofs.Crew.Basic
import TaskRelay.Proofs.Crew.Exclusion
import TaskRelay.Proofs.Crew.Draining
import TaskRelay.Proofs.Crew.Gathering
import TaskRelay.Proofs.Crew.Lapse
import TaskRelay.Proofs.Crew.Custody
import TaskRelay.Proofs.Crew.Clearing
import TaskRelay.Proofs.Crew.Leftover
import TaskRelay.Proofs.Batch
import TaskRelay.Proofs.Isolation
import TaskRelay.Proofs.Context
import TaskRelay.Proofs.Run.Correlation
import TaskRelay.Proofs.Run.FollowUp
import TaskRelay.Proofs.Run.Visibility
import TaskRelay.Proofs.Crew.Starting
import TaskRelay.Proofs.Parallel.Course
import TaskRelay.Proofs.Parallel.Turns
import TaskRelay.Proofs.Parallel.Workload
import TaskRelay.Proofs.TaskList.Sorting
import TaskRelay.Proofs.Run.Iteration
import TaskRelay.Proofs.Run.Relay
import TaskRelay.Proofs.Run.Session
import TaskRelay.Proofs.Demo
import TaskRelay.Proofs.Site.Alike
import TaskRelay.Proofs.Site.Journal
import TaskRelay.Proofs.Worker.Alike
import TaskRelay.Proofs.Crew.Apart
import TaskRelay.Proofs.Channel.Ledger
import TaskRelay.Proofs.Lease.History
import TaskRelay.Proofs.Scenario.Publishing
import TaskRelay.Proofs.Scenario.Collecting
import TaskRelay.Proofs.Parallel.Panel
import TaskRelay.Proofs.Parallel.Causes
import TaskRelay.Proofs.Config.Environment
import TaskRelay.Proofs.JobEvent
import TaskRelay.Proofs.Ulid
import TaskRelay.Proofs.TaskList.Repeats
import TaskRelay.Proofs.TaskList.Acceptance
import TaskRelay.Proofs.Channel.Loss
