import StreamRelay.Main
import StreamRelay.Proofs.Host.Standing
import StreamRelay.Proofs.Relay.Parts
import StreamRelay.Proofs.Host.Streams
import StreamRelay.Proofs.Relay.Forwarding
import StreamRelay.Proofs.Host.Lasting
import StreamRelay.Proofs.Relay.Ground
import StreamRelay.Proofs.Relay.Coherence
import StreamRelay.Proofs.Relay.Upkeep
import StreamRelay.Proofs.Relay.Service
import StreamRelay.Proofs.Relay.Creation
import StreamRelay.Proofs.Relay.Reachable
import StreamRelay.Proofs.Relay.Fidelity
import StreamRelay.Proofs.Relay.Descriptors
import StreamRelay.Proofs.Host.Workload
import StreamRelay.Proofs.Relay.Shutdown
import StreamRelay.Proofs.Console.Recognition
import StreamRelay.Proofs.Recorder.Appending
import StreamRelay.Proofs.Relay.Tally
import StreamRelay.Proofs.Relay.Counting
import StreamRelay.Proofs.Relay.Pace
import StreamRelay.Proofs.Relay.Listening
import StreamRelay.Proofs.Relay.Resuming
import StreamRelay.Proofs.Relay.Arrivals
import StreamRelay.Proofs.Relay.Retrying
import StreamRelay.Proofs.Setup.Steps
import StreamRelay.Proofs.Setup.Failing
import StreamRelay.Proofs.Relay.Making
import StreamRelay.Proofs.Wire.Draining
import StreamRelay.Proofs.Wire.Agreement
import StreamRelay.Proofs.Crew.Hands
import StreamRelay.Proofs.Crew.Working
import StreamRelay.Proofs.Crew.Turns
import StreamRelay.Proofs.Crew.Ledger
import StreamRelay.Proofs.Crew.Staff
import StreamRelay.Proofs.Crew.Serial
import StreamRelay.Proofs.Crew.Spending
import StreamRelay.Proofs.Crew.Opening
import StreamRelay.Proofs.Crew.Fates
import StreamRelay.Proofs.Crew.Accounting
import StreamRelay.Proofs.Crew.Serving
import StreamRelay.Proofs.Host.Fittings
import StreamRelay.Proofs.Commands.Signals
import StreamRelay.Proofs.Commands.Jobs
import StreamRelay.Proofs.Commands.Statuses
import StreamRelay.Proofs.Relay.Enlisting
import StreamRelay.Proofs.Relay.Manners
import StreamRelay.Proofs.Relay.Releasing
import StreamRelay.Proofs.Commands.Forwarding
import StreamRelay.Proofs.Commands.Recording
import StreamRelay.Proofs.Crew.Parting
import StreamRelay.Proofs.Crew.Joining
import StreamRelay.Proofs.Recorder.Journal
import StreamRelay.Proofs.Relay.Rearming
import StreamRelay.Proofs.Relay.Answers
import StreamRelay.Proofs.Relay.Interruptions
import StreamRelay.Proofs.Relay.Acceptance
import StreamRelay.Proofs.Twins
import StreamRelay.Proofs.Host.Masked
import StreamRelay.Proofs.Relay.Ebbing
import StreamRelay.Proofs.Relay.Stopping
import StreamRelay.Proofs.Wire.Passage
import StreamRelay.Proofs.Relay.Reordering
import StreamRelay.Proofs.Host.Indistinct
import StreamRelay.Proofs.Delivery.Sending
import StreamRelay.Proofs.Numeral.Literal
import StreamRelay.Proofs.CommandLine.Readings
import StreamRelay.Proofs.CommandLine.Numbers
import StreamRelay.Proofs.Relay.Unaware
import StreamRelay.Proofs.Relay.Unheard
import StreamRelay.Proofs.Console.Attending
import StreamRelay.Proofs.Console.Losing
