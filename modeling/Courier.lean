import Courier.Ambient
import Courier.Bench.Crowd
import Courier.Bench.Drain
import Courier.Bench.Exchange
import Courier.Bench.Hosting
import Courier.Bench.Reception
import Courier.Bench.Rehearsal
import Courier.Bench.Relay
import Courier.Bench.Script
import Courier.Bench.Shift
import Courier.Cancellation
import Courier.Config
import Courier.Controller
import Courier.Fault
import Courier.Gate
import Courier.Handling.Context
import Courier.Handling.Program
import Courier.Handling.Site
import Courier.Handling.Stages
import Courier.Host.Lifecycle
import Courier.Lease
import Courier.Message
import Courier.Payload.Description
import Courier.Payload.Format
import Courier.Payload.Json.Parser
import Courier.Payload.Json.Printer
import Courier.Payload.Node
import Courier.Payload.Pack.Parser
import Courier.Payload.Pack.Printer
import Courier.Payload.Schema
import Courier.Payload.Value
import Courier.Plant.Double
import Courier.Plant.Run
import Courier.Plant.State
import Courier.Plant.Step
import Courier.Queue
import Courier.Receiver.Build
import Courier.Receiver.Station
import Courier.Registry
import Courier.Saga.Store
import Courier.Saga.Typed
import Courier.Services
import Courier.Settings
import Courier.Singleton.Phase
import Courier.Telemetry
import Courier.Text.Decimal
import Courier.Text.Invisible
import Courier.Text.Preview
import Courier.Text.Quoted
import Courier.Text.Utf8
import Courier.Time.Backoff
import Courier.Time.Clock
import Courier.Time.Duration
import Courier.View.Basic
import Courier.View.Bench
import Courier.View.Handling
import Courier.View.Plant
import Courier.View.Settings
import Courier.View.Store
import Courier.Proofs.Gate
import Courier.Proofs.Handling.Admission
import Courier.Proofs.Handling.Bookkeeping
import Courier.Proofs.Handling.Contained
import Courier.Proofs.Handling.Footprint
import Courier.Proofs.Handling.Passage
import Courier.Proofs.Handling.Plain
import Courier.Proofs.Handling.Reasons
import Courier.Proofs.Handling.Seats
import Courier.Proofs.Host.Dealings
import Courier.Proofs.Lease
import Courier.Proofs.Lease.Standing
import Courier.Proofs.Payload.Pack
import Courier.Proofs.Payload.RoundTrip
import Courier.Proofs.Payload.Values
import Courier.Proofs.Places
import Courier.Proofs.Plant.Rosters
import Courier.Proofs.Plant.Succession
import Courier.Proofs.Plant.Upkeep
import Courier.Proofs.Plant.Works
import Courier.Proofs.Queue.Accounts
import Courier.Proofs.Queue.Fates
import Courier.Proofs.Queue.Fence
import Courier.Proofs.Queue.Traffic
import Courier.Proofs.Receiver.Books
import Courier.Proofs.Receiver.Closing
import Courier.Proofs.Receiver.Custody
import Courier.Proofs.Receiver.Deeds
import Courier.Proofs.Receiver.Duty
import Courier.Proofs.Receiver.Loops
import Courier.Proofs.Receiver.Poison
import Courier.Proofs.Receiver.Pressure
import Courier.Proofs.Receiver.Seating
import Courier.Proofs.Receiver.Turns
import Courier.Proofs.Saga.Chain
import Courier.Proofs.Saga.Lives
import Courier.Proofs.Singleton.Exclusion
import Courier.Proofs.Singleton.Fleet
import Courier.Proofs.Singleton.Member
import Courier.Proofs.Singleton.Moves
import Courier.Proofs.Singleton.Outlived
import Courier.Proofs.Singleton.Pace
import Courier.Proofs.Singleton.Rounds
import Courier.Proofs.Singleton.Steps
import Courier.Proofs.Singleton.Tenure
import Courier.Proofs.Text.Utf8
import Courier.Proofs.Host.Opening
import Courier.Proofs.Host.Closing
import Courier.Proofs.Text.Decimal
import Courier.Proofs.Payload.Json.Tokens
import Courier.Proofs.Payload.Json.Trees
import Courier.Proofs.Payload.Sameness
import Courier.Proofs.Payload.Canonical
import Courier.Proofs.Payload.Fields
import Courier.Proofs.Gate.Roll
import Courier.Proofs.Payload.Tolerance
import Courier.Proofs.Gate.Schedules
import Courier.Proofs.Gate.Fairness
import Courier.Proofs.Gate.Reports
import Courier.Proofs.Handling.Refusal
import Courier.Proofs.Receiver.Stopping
import Courier.Proofs.Handling.Contest
import Courier.Proofs.Queue.Order
import Courier.Proofs.Queue.Observation
import Courier.Proofs.Queue.Bustle
import Courier.Proofs.Queue.Wakeups
import Courier.Proofs.Queue.Rest
import Courier.Proofs.Saga.Failures
import Courier.Proofs.Queue.Failures
import Courier.Proofs.Handling.Layers
import Courier.Proofs.Singleton.Retries
import Courier.Proofs.Singleton.Renewal
import Courier.Proofs.Host.Draining
import Courier.Proofs.Host.Health
import Courier.Proofs.Plant.Keepers
import Courier.Proofs.Singleton.Cancelled
import Courier.Proofs.Host.Attempts
import Courier.Proofs.Registry
import Courier.Proofs.Services
import Courier.Proofs.Receiver.Capacity
import Courier.Proofs.Receiver.Tallies
import Courier.Proofs.Text.Preview
