import StorageBus.CardCycle
import StorageBus.Parcel.Item
import StorageBus.Proofs.Delivery
import StorageBus.Proofs.Endpoint.Contention
import StorageBus.Proofs.FanOut
import StorageBus.Scenario.Play
import StorageBus.SocketPath
import StorageBus.Proofs.Roster.Guarded
import StorageBus.Proofs.Roster.Ledger
import StorageBus.Proofs.Codec.RoundTrip
import StorageBus.Proofs.Codec.Delimiting
import StorageBus.Proofs.Pruning
import StorageBus.Proofs.Codec.Items
import StorageBus.Proofs.Codec.Form
import StorageBus.Proofs.Codec.Grammar
import StorageBus.Proofs.Codec.Evolution
import StorageBus.Proofs.Codec.Wrapping
import StorageBus.Proofs.Reception
import StorageBus.Proofs.Stream.Handover
import StorageBus.Proofs.Broadcast.Replacement
import StorageBus.Proofs.Endpoint.Traffic
import StorageBus.Proofs.Subscription
import StorageBus.Proofs.Broadcast.Isolation
import StorageBus.Proofs.Endpoint.Estate
import StorageBus.Proofs.Registration
import StorageBus.Proofs.Endpoint.Obituaries
import StorageBus.Proofs.SocketPath.Distinct
import StorageBus.Proofs.SocketPath.Length
import StorageBus.Proofs.Broadcast.Attendance
import StorageBus.Proofs.CardCycle
