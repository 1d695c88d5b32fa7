import Replication.Cancellation
import Replication.Consumer.Rehearsal
import Replication.Election.Electorate
import Replication.Election.Timestamps
import Replication.Feeder.Rehearsal
import Replication.Log.Archive
import Replication.Queue.Completion
import Replication.Queue.Workers
import Replication.Scan.Cluster
import Replication.Service.Connector
import Replication.Service.Exchange
import Replication.Proofs.Link.Pipes
import Replication.Proofs.Service.Handshakes
import Replication.Election.Contest
import Replication.Election.Calls
import Replication.Election.Exchanges
import Replication.Election.Schedule
import Replication.Proofs.Computations
import Replication.Proofs.Election.Agreement
import Replication.Proofs.Election.Records
import Replication.Proofs.Election.Obedience
import Replication.Proofs.Election.Victories
import Replication.Proofs.Election.Uncontended
import Replication.Proofs.Scan.Batches
import Replication.Proofs.Scan.Exactness
import Replication.Proofs.Scan.Remigration
import Replication.Proofs.Scan.Lagging
import Replication.Proofs.Scan.Ending
import Replication.Proofs.Scan.Slicing
import Replication.Consumer.Life
import Replication.Consumer.Division
import Replication.Proofs.Consumer.Draining
import Replication.Proofs.Consumer.ReplyOrder
import Replication.Proofs.Consumer.Shutdowns
import Replication.Proofs.Consumer.Steadiness
import Replication.Proofs.Feeder.Account
import Replication.Proofs.Feeder.Loops
import Replication.Proofs.Feeder.Shipping
import Replication.Proofs.Feeder.Exactness
import Replication.Proofs.Serving.Lasting
import Replication.Proofs.Serving.Greetings
import Replication.Proofs.Log.Cleaning
import Replication.Proofs.Replay.GroupCommit
import Replication.Proofs.Replay.Grouping
import Replication.Proofs.Replay.Watermarks
import Replication.Proofs.Serving.Replicating
import Replication.Proofs.Stream.RoundTrip
import Replication.Proofs.Stream.Alignment
import Replication.Proofs.Wire.Sequences
import Replication.Proofs.Octets.Spellings
import Replication.Proofs.Election.WireOrder
import Replication.Election.Reading
import Replication.Proofs.Election.Choices
import Replication.Proofs.Election.Grammar
import Replication.Election.Tenure
import Replication.Proofs.Election.Counting
import Replication.Proofs.Consumer.Retries
import Replication.Proofs.Consumer.Sendability
import Replication.Proofs.Serving.Acknowledging
import Replication.Proofs.Stream.Sizes
import Replication.Proofs.Replay.Refusals
import Replication.Proofs.Log.Fetching
import Replication.Proofs.Log.Ownership
import Replication.Proofs.Log.Openings
import Replication.Election.Drawing
import Replication.Proofs.Election.Stamps
import Replication.Proofs.Parameters.Admission
import Replication.Scan.Walk
import Replication.Proofs.Scan.Coverage
