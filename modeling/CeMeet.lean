import CeMeet.Admission
import CeMeet.Admit.Basic
import CeMeet.Admit.Chains
import CeMeet.Admit.Flood
import CeMeet.Admit.Independence
import CeMeet.Admit.Limits
import CeMeet.Admit.Preimage
import CeMeet.Admit.RateLimiter
import CeMeet.Admit.Sessions
import CeMeet.Caps
import CeMeet.Client.Basic
import CeMeet.Client.Bounds
import CeMeet.Client.Delivery
import CeMeet.Client.Ending
import CeMeet.Client.Freshness
import CeMeet.Client.Handover
import CeMeet.Client.Ingest
import CeMeet.Client.LoopAgreement
import CeMeet.Client.LoopFreshness
import CeMeet.Client.Loops
import CeMeet.Client.Outbound
import CeMeet.Client.Reanchoring
import CeMeet.Client.Refusals
import CeMeet.Commands
import CeMeet.Control
import CeMeet.Crypto
import CeMeet.Decoding
import CeMeet.Foundation.Channels
import CeMeet.Foundation.Disk
import CeMeet.Foundation.Encoding
import CeMeet.Foundation.Files
import CeMeet.Foundation.First
import CeMeet.Foundation.FixedWindow
import CeMeet.Foundation.Gossip
import CeMeet.Foundation.Indexed
import CeMeet.Foundation.Json
import CeMeet.Foundation.JsonReader
import CeMeet.Foundation.JsonRecord
import CeMeet.Foundation.LastWrite
import CeMeet.Foundation.Ledger
import CeMeet.Foundation.Mesh
import CeMeet.Foundation.Mirror
import CeMeet.Foundation.Provenance
import CeMeet.Foundation.Register
import CeMeet.Foundation.Replacement
import CeMeet.Foundation.Saving
import CeMeet.Foundation.Separator
import CeMeet.Foundation.SideNote
import CeMeet.Foundation.TieBreak
import CeMeet.Foundation.Transducer
import CeMeet.Foundation.Word
import CeMeet.Host
import CeMeet.HostAvailability
import CeMeet.HostFlood
import CeMeet.HostIndependence
import CeMeet.HostLoop
import CeMeet.Join
import CeMeet.Meeting.Basic
import CeMeet.Meeting.Effects
import CeMeet.Meeting.Handover
import CeMeet.Meeting.Lag
import CeMeet.Meeting.Memory
import CeMeet.Meeting.Outages
import CeMeet.Meeting.Participant
import CeMeet.Meeting.PowerFailures
import CeMeet.Meeting.Restarts
import CeMeet.Meeting.Rooms
import CeMeet.Meeting.Roster
import CeMeet.Order.Ascent
import CeMeet.Order.Backlog
import CeMeet.Order.Basic
import CeMeet.Order.Conservation
import CeMeet.Order.Holes
import CeMeet.Order.Inbox
import CeMeet.Order.Independence
import CeMeet.Order.Progress
import CeMeet.Order.Prompt
import CeMeet.Order.Reordering
import CeMeet.Order.Router
import CeMeet.Proto
import CeMeet.Rejoining
import CeMeet.Relay
import CeMeet.Revocation
import CeMeet.Room.Basic
import CeMeet.Room.Capacity
import CeMeet.Room.ChangeLog
import CeMeet.Room.Convergence
import CeMeet.Room.Counter
import CeMeet.Room.Durability
import CeMeet.Room.Ending
import CeMeet.Room.Isolation
import CeMeet.Room.Locality
import CeMeet.Room.MediaMerge
import CeMeet.Room.MediaRegister
import CeMeet.Room.MediaState
import CeMeet.Room.Merge
import CeMeet.Room.Monotone
import CeMeet.Room.Names
import CeMeet.Room.Operation
import CeMeet.Room.Persistence
import CeMeet.Room.Presence
import CeMeet.Room.Recovery
import CeMeet.Room.Refreshing
import CeMeet.Room.Replicas
import CeMeet.Room.Semilattice
import CeMeet.Room.Steps
import CeMeet.Room.Survival
import CeMeet.Room.Sweeping
import CeMeet.Room.Testimony
import CeMeet.Turn
import CeMeet.Wire
