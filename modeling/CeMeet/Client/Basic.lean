import CeMeet.Order.Basic
import CeMeet.Room.Basic

/-!
# The signaling client

A participant's client for one room: its roster, one reorder buffer per peer,
and the freshness window for directed signals.  The transport is outside the
model: publishing yields the topic and the frame handed to it, and a received
frame arrives with its authenticated sender.  Readings of the clock are
arguments.
-/

namespace CeMeet

/-- What is handed to the transport: a topic and a frame. -/
abbrev Publication := String × Bytes

/-- A participant's client for one room. -/
structure MeetClient where
  /-- The roster. -/
  room : Room
  /-- The reorder buffers of the peers. -/
  router : SignalRouter
  /-- The freshness window for directed signals; zero disables it. -/
  freshnessSecs : UInt64

namespace MeetClient

/-- A client for a room. -/
def new (roomId me : String) : MeetClient :=
  { room := .new roomId me, router := .new, freshnessSecs := 0 }

/-- Change the freshness window. -/
def withFreshness (client : MeetClient) (secs : UInt64) : MeetClient :=
  { client with freshnessSecs := secs }

/-- A client rebuilt from a snapshot; its reorder buffers are fresh. -/
def restore (snapshot : RoomSnapshot) : MeetClient :=
  { room := .restore snapshot, router := .new, freshnessSecs := 0 }

/-- Adopt the sequence floor of a resume token. -/
def adoptResume (client : MeetClient) (tok : ResumeToken) :
    UInt64 × MeetClient :=
  let (next, room) := client.room.resumeOutboundFrom tok.seqFloor
  (next, { client with room })

/-! ## Sending -/

/-- Publish an envelope on the room's topic, unless a field exceeds its
bound. -/
def publish (serde : SerdeJson) (client : MeetClient) (env : SignalEnvelope) :
    Except String Publication :=
  match env.signal.validate with
  | .error e => .error s!"refusing to publish invalid signal: {e}"
  | .ok () =>
      match env.toBytes serde with
      | .error e => .error e
      | .ok bytes => .ok (roomTopic client.room.roomId, bytes)

/-- Allocate the next sequence number, and publish the envelope built with it.
There is no result when the counter overflows. -/
def publishNext (serde : SerdeJson) (client : MeetClient)
    (build : UInt64 → SignalEnvelope) :
    Option (Except String Publication × MeetClient) :=
  match client.room.nextOutboundSeq with
  | none => none
  | some (seq, room) =>
      let client := { client with room }
      some (client.publish serde (build seq), client)

/-- Publish a signal to the whole room. -/
def broadcast (serde : SerdeJson) (client : MeetClient) (signal : Signal)
    (now : UInt64) : Option (Except String Publication × MeetClient) :=
  client.publishNext serde fun seq =>
    .broadcast client.room.roomId seq now signal

/-- Publish a join. -/
def announceJoin (serde : SerdeJson) (client : MeetClient)
    (displayName : Option String) (now : UInt64) :
    Option (Except String Publication × MeetClient) :=
  client.publishNext serde fun seq =>
    .broadcast client.room.roomId seq now (.join displayName)

/-- Publish a leave. -/
def announceLeave (serde : SerdeJson) (client : MeetClient) (now : UInt64) :
    Option (Except String Publication × MeetClient) :=
  client.publishNext serde fun seq =>
    .broadcast client.room.roomId seq now .leave

/-- Publish a keepalive. -/
def keepalive (serde : SerdeJson) (client : MeetClient) (now : UInt64) :
    Option (Except String Publication × MeetClient) :=
  client.publishNext serde fun seq =>
    .broadcast client.room.roomId seq now .keepalive

/-- Send a signal to one peer. -/
def signalPeer (serde : SerdeJson) (client : MeetClient) (recipient : String)
    (signal : Signal) (now : UInt64) :
    Option (Except String Publication × MeetClient) :=
  client.publishNext serde fun seq =>
    .directed client.room.roomId recipient seq now signal

/-- Publish the microphone and camera state. -/
def setMedia (serde : SerdeJson) (client : MeetClient)
    (audioMuted videoMuted : Bool) (now : UInt64) :
    Option (Except String Publication × MeetClient) :=
  client.broadcast serde (.media audioMuted videoMuted) now

/-- Publish the start or the stop of a screen share. -/
def setScreenShare (serde : SerdeJson) (client : MeetClient) (active : Bool)
    (now : UInt64) : Option (Except String Publication × MeetClient) :=
  client.broadcast serde (.screenShare active) now

/-- Publish a raised or lowered hand. -/
def raiseHand (serde : SerdeJson) (client : MeetClient) (raised : Bool)
    (now : UInt64) : Option (Except String Publication × MeetClient) :=
  client.broadcast serde (.raiseHand raised) now

/-- Publish a reaction. -/
def react (serde : SerdeJson) (client : MeetClient) (emoji : String)
    (now : UInt64) : Option (Except String Publication × MeetClient) :=
  client.broadcast serde (.reaction emoji) now

/-- Publish a chat line. -/
def chat (serde : SerdeJson) (client : MeetClient) (body : String)
    (now : UInt64) : Option (Except String Publication × MeetClient) :=
  client.broadcast serde (.chat body) now

/-- Publish that the call is being recorded, or no longer. -/
def announceRecording (serde : SerdeJson) (client : MeetClient)
    (active : Bool) (now : UInt64) :
    Option (Except String Publication × MeetClient) :=
  client.broadcast serde (.recording active) now

/-- Send a moderation signal to one peer. -/
def signalDirected (serde : SerdeJson) (client : MeetClient)
    (recipient : String) (signal : Signal) (now : UInt64) :
    Option (Except String Publication × MeetClient) :=
  client.signalPeer serde recipient signal now

/-- Ask a peer to leave. -/
def kick (serde : SerdeJson) (client : MeetClient) (target : String)
    (reason : Option String) (now : UInt64) :
    Option (Except String Publication × MeetClient) :=
  client.signalDirected serde target (.kick reason) now

/-- Ask a peer to mute, or to unmute. -/
def forceMute (serde : SerdeJson) (client : MeetClient) (target : String)
    (audioMuted : Bool) (now : UInt64) :
    Option (Except String Publication × MeetClient) :=
  client.signalDirected serde target (.forceMute audioMuted) now

/-- Publish the end of the room. -/
def endRoom (serde : SerdeJson) (client : MeetClient)
    (reason : Option String) (now : UInt64) :
    Option (Except String Publication × MeetClient) :=
  client.broadcast serde (.endRoom reason) now

/-! ## Receiving -/

/-- Apply a received frame to the roster. -/
def applyMessage (serde : SerdeJson) (client : MeetClient) (sender : String)
    (payload : Bytes) : Option Effect × MeetClient :=
  match SignalEnvelope.fromBytes serde payload with
  | .error _ => (none, client)
  | .ok env =>
      match client.room.apply (env.withSender sender) with
      | (.noChange, room) => (none, { client with room })
      | (effect, room) => (some effect, { client with room })

/-- Apply an envelope to the roster, and offer a directed signal for us to the
reorder buffer of its sender. -/
def route (client : MeetClient) (env : SignalEnvelope) :
    List SignalEnvelope × MeetClient :=
  match client.room.apply env with
  | (.directed env, room) =>
      if env.addressedTo room.me then
        let (released, router) := client.router.offer env
        (released, { client with room, router })
      else
        ([], { client with room })
  | (_, room) => ([], { client with room })

/-- Ingest a received frame: drop it if it is malformed or a directed signal
that is not fresh, and route it otherwise. -/
def ingestOrdered (serde : SerdeJson) (client : MeetClient) (now : UInt64)
    (sender : String) (payload : Bytes) : List SignalEnvelope × MeetClient :=
  match SignalEnvelope.fromBytes serde payload with
  | .error _ => ([], client)
  | .ok parsed =>
      let env := parsed.withSender sender
      if client.freshnessSecs ≠ 0 ∧ ¬env.signal.isBroadcast ∧
          ¬env.isFresh now client.freshnessSecs then
        ([], client)
      else
        client.route env

/-- Skip a peer's reorder buffer ahead. -/
def skipPeerTo (client : MeetClient) (peer : String) (seq : UInt64) :
    List SignalEnvelope × MeetClient :=
  let (released, router) := client.router.skipPeerTo peer seq
  (released, { client with router })

/-! ## Admission requests -/

/-- The request that presents a capability chain. -/
def requestAdmission (client : MeetClient) (caps : String)
    (displayName : Option String) : AdmitReq :=
  { roomId := client.room.roomId, caps, displayName, resume := none }

/-- The request that presents a resume token. -/
def requestResume (client : MeetClient) (resume : ResumeToken)
    (displayName : Option String) : AdmitReq :=
  { roomId := client.room.roomId
    caps := ""
    displayName
    resume := some resume }

end MeetClient

end CeMeet
