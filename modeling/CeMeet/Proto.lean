import CeMeet.Foundation.Word
import Mathlib.Data.List.Nodup

/-!
# The wire protocol

The typed messages of a room topic and of the admission channel: a signal, the
addressed and sequence-numbered envelope around it, and the request, response
and resume token of an admission.  JSON serialization is a parameter of the
model; only the bounds that the receiving side enforces around it are
computed here.
-/

namespace CeMeet

/-- A serialized frame. -/
abbrev Bytes := List UInt8

/-- The bytes of a string. -/
def asBytes (text : String) : Bytes :=
  text.toUTF8.data.toList

theorem asBytes_inj {left right : String} :
    asBytes left = asBytes right ↔ left = right := by
  refine ⟨fun same => ?_, fun same => by rw [same]⟩
  exact String.toByteArray_inj.mp (ByteArray.ext (Array.toList_inj.mp same))

/-- Prefix of every room topic. -/
def topicPrefix : String := "meet/room/"

/-- The channel of requests for admission. -/
def topicAdmit : String := "meet/admit"

/-- Ability to be admitted to a gated room. -/
def abilityJoin : String := "meet:join"

/-- Largest accepted frame, in bytes. -/
def maxEnvelopeBytes : Nat := 64 * 1024

/-- Largest accepted SDP blob. -/
def maxSdpLen : Nat := 32 * 1024

/-- Largest accepted ICE candidate line. -/
def maxCandidateLen : Nat := 1024

/-- Largest accepted media-stream identifier. -/
def maxMidLen : Nat := 256

/-- Largest accepted display name. -/
def maxNameLen : Nat := 128

/-- Largest accepted chat line. -/
def maxChatLen : Nat := 4 * 1024

/-- Largest accepted reaction token. -/
def maxReactionLen : Nat := 64

/-- Largest accepted moderation reason. -/
def maxReasonLen : Nat := 512

/-- The pubsub topic of a room. -/
def roomTopic (roomId : String) : String :=
  topicPrefix ++ roomId

/-- What one participant tells another, or the room. -/
inductive Signal
  | join (displayName : Option String)
  | leave
  | keepalive
  | offer (sdp : String)
  | answer (sdp : String)
  | iceCandidate
      (candidate : String)
      (sdpMid : Option String)
      (sdpMLineIndex : Option UInt32)
  | iceEnd
  | media (audioMuted videoMuted : Bool)
  | screenShare (active : Bool)
  | raiseHand (raised : Bool)
  | reaction (emoji : String)
  | chat (body : String)
  | recording (active : Bool)
  | kick (reason : Option String)
  | forceMute (audioMuted : Bool)
  | endRoom (reason : Option String)
  deriving DecidableEq, Repr

namespace Signal

/-- Whether a signal is for the whole room rather than for one peer. -/
def isBroadcast : Signal → Bool
  | .join _ | .leave | .keepalive | .media .. | .screenShare _ | .raiseHand _
  | .reaction _ | .chat _ | .recording _ | .endRoom _ => true
  | .offer _ | .answer _ | .iceCandidate .. | .iceEnd | .kick _
  | .forceMute _ => false

/-- The bound on one string field. -/
def check (field text : String) (max : Nat) : Except String Unit :=
  if text.utf8ByteSize > max then
    .error s!"{field} exceeds {max} bytes ({text.utf8ByteSize} bytes)"
  else
    .ok ()

/-- The bound on a string field that may be absent. -/
def checkOption (field : String) (text : Option String) (max : Nat) :
    Except String Unit :=
  match text with
  | some text => check field text max
  | none => .ok ()

/-- Check every string field of a signal against its bound. -/
def validate : Signal → Except String Unit
  | .join displayName => checkOption "display_name" displayName maxNameLen
  | .offer sdp | .answer sdp => check "sdp" sdp maxSdpLen
  | .iceCandidate candidate sdpMid _ => do
      check "candidate" candidate maxCandidateLen
      checkOption "sdp_mid" sdpMid maxMidLen
  | .reaction emoji => check "reaction" emoji maxReactionLen
  | .chat body => check "chat" body maxChatLen
  | .kick reason | .endRoom reason => checkOption "reason" reason maxReasonLen
  | .leave | .keepalive | .iceEnd | .media .. | .screenShare _ | .raiseHand _
  | .recording _ | .forceMute _ => .ok ()

end Signal

/-- An addressed, sequence-numbered signal.  The fields `sender` and
`recipient` are the source's `from` and `to`; the sender is empty on the wire
and stamped by the receiver. -/
structure SignalEnvelope where
  /-- The room the envelope belongs to. -/
  roomId : String
  /-- The authenticated sender. -/
  sender : String
  /-- The recipient, or `none` for the whole room. -/
  recipient : Option String
  /-- The sender's sequence number. -/
  seq : UInt64
  /-- The sender's clock, in unix seconds. -/
  sentAt : UInt64
  /-- The payload. -/
  signal : Signal
  deriving DecidableEq, Repr

/-- The JSON serializer for envelopes.  Both directions may fail; a frame that
was written reads back as the envelope it was written from. -/
structure SerdeJson where
  /-- Write an envelope. -/
  toVec : SignalEnvelope → Except String Bytes
  /-- Read an envelope from arbitrary bytes. -/
  fromSlice : Bytes → Except String SignalEnvelope
  /-- Reading inverts writing. -/
  fromSlice_toVec : ∀ env bytes,
    toVec env = .ok bytes → fromSlice bytes = .ok env

namespace SerdeJson

/-- The serializer restricted to a table of envelopes and their frames. -/
def ofTable
    (table : List (SignalEnvelope × Bytes))
    (distinct : (table.map Prod.snd).Nodup) : SerdeJson where
  toVec env :=
    match table.find? fun row => row.1 = env with
    | some row => .ok row.2
    | none => .error "not in the table"
  fromSlice bytes :=
    match table.find? fun row => row.2 = bytes with
    | some row => .ok row.1
    | none => .error "not in the table"
  fromSlice_toVec := by
    intro env bytes written
    split at written
    next row found =>
      cases written
      have rowMember := List.mem_of_find?_eq_some found
      have rowEnv : row.1 = env := by
        simpa using List.find?_some found
      split
      next other otherFound =>
        have otherBytes : other.2 = row.2 := by
          simpa using List.find?_some otherFound
        have same := List.inj_on_of_nodup_map distinct
          (List.mem_of_find?_eq_some otherFound) rowMember otherBytes
        rw [same, rowEnv]
      next missing =>
        rw [List.find?_eq_none] at missing
        exact absurd (decide_eq_true rfl) (missing row rowMember)
    next => cases written

/-- A frame of the table reads as its envelope. -/
theorem fromSlice_ofTable
    {table : List (SignalEnvelope × Bytes)}
    {distinct : (table.map Prod.snd).Nodup}
    {row : SignalEnvelope × Bytes}
    (member : row ∈ table) :
    (ofTable table distinct).fromSlice row.2 = .ok row.1 := by
  unfold ofTable
  dsimp only
  split
  next other found =>
    have sameFrame : other.2 = row.2 := by
      simpa using List.find?_some found
    rw [List.inj_on_of_nodup_map distinct (List.mem_of_find?_eq_some found)
      member sameFrame]
  next missing =>
    rw [List.find?_eq_none] at missing
    exact absurd (decide_eq_true rfl) (missing row member)

/-- An envelope of the table is written as its frame. -/
theorem toVec_ofTable
    {table : List (SignalEnvelope × Bytes)}
    {distinct : (table.map Prod.snd).Nodup}
    (functional : (table.map Prod.fst).Nodup)
    {row : SignalEnvelope × Bytes}
    (member : row ∈ table) :
    (ofTable table distinct).toVec row.1 = .ok row.2 := by
  unfold ofTable
  dsimp only
  split
  next other found =>
    have sameEnvelope : other.1 = row.1 := by
      simpa using List.find?_some found
    rw [List.inj_on_of_nodup_map functional (List.mem_of_find?_eq_some found)
      member sameEnvelope]
  next missing =>
    rw [List.find?_eq_none] at missing
    exact absurd (decide_eq_true rfl) (missing row member)

end SerdeJson

namespace SignalEnvelope

/-- Build an envelope for the whole room. -/
def broadcast (roomId : String) (seq sentAt : UInt64) (signal : Signal) :
    SignalEnvelope :=
  { roomId, sender := "", recipient := none, seq, sentAt, signal }

/-- Build an envelope for one peer. -/
def directed
    (roomId recipient : String)
    (seq sentAt : UInt64)
    (signal : Signal) : SignalEnvelope :=
  { roomId, sender := "", recipient := some recipient, seq, sentAt, signal }

/-- Serialize an envelope for the transport. -/
def toBytes (serde : SerdeJson) (env : SignalEnvelope) : Except String Bytes :=
  (serde.toVec env).mapError fun e => s!"serialize ce-meet envelope: {e}"

/-- Parse a received frame: bound its size, read it, bound its fields. -/
def fromBytes (serde : SerdeJson) (bytes : Bytes) :
    Except String SignalEnvelope :=
  if bytes.length > maxEnvelopeBytes then
    .error s!"ce-meet envelope too large: {bytes.length} bytes (max {maxEnvelopeBytes})"
  else
    match serde.fromSlice bytes with
    | .error e => .error s!"malformed ce-meet signal envelope: {e}"
    | .ok env =>
        match env.signal.validate with
        | .error reason => .error s!"invalid ce-meet signal: {reason}"
        | .ok () => .ok env

/-- Tolerated lead of a sender's clock. -/
def clockSkewSlack : UInt64 := 120

/-- Whether an envelope is recent enough to act on.  A window of zero disables
the check. -/
def isFresh (env : SignalEnvelope) (now maxAgeSecs : UInt64) : Bool :=
  if maxAgeSecs = 0 then true
  else if env.sentAt > now.saturatingAdd clockSkewSlack then false
  else now.saturatingSub env.sentAt ≤ maxAgeSecs

/-- Stamp the sender reported by the transport. -/
def withSender (env : SignalEnvelope) (sender : String) : SignalEnvelope :=
  { env with sender }

/-- Whether an envelope is for the whole room or for `me`. -/
def addressedTo (env : SignalEnvelope) (me : String) : Bool :=
  match env.recipient with
  | none => true
  | some recipient => recipient == me

@[simp] theorem withSender_sender (env : SignalEnvelope) (sender : String) :
    (env.withSender sender).sender = sender := rfl

@[simp] theorem withSender_roomId (env : SignalEnvelope) (sender : String) :
    (env.withSender sender).roomId = env.roomId := rfl

@[simp] theorem withSender_recipient (env : SignalEnvelope) (sender : String) :
    (env.withSender sender).recipient = env.recipient := rfl

@[simp] theorem withSender_seq (env : SignalEnvelope) (sender : String) :
    (env.withSender sender).seq = env.seq := rfl

@[simp] theorem withSender_sentAt (env : SignalEnvelope) (sender : String) :
    (env.withSender sender).sentAt = env.sentAt := rfl

@[simp] theorem withSender_signal (env : SignalEnvelope) (sender : String) :
    (env.withSender sender).signal = env.signal := rfl

/-- The frames that parse, and what they parse to. -/
theorem fromBytes_eq_ok_iff
    {serde : SerdeJson} {bytes : Bytes} {env : SignalEnvelope} :
    fromBytes serde bytes = .ok env ↔
      bytes.length ≤ maxEnvelopeBytes ∧ serde.fromSlice bytes = .ok env ∧
        env.signal.validate = .ok () := by
  unfold fromBytes
  split
  case isTrue large => simp [Nat.not_le.mpr large]
  case isFalse small =>
    split
    next message unreadable => simp [unreadable]
    next parsed read =>
      rw [read]
      split
      next reason refused =>
        constructor
        · rintro ⟨⟩
        · rintro ⟨_, same, accepted⟩
          cases same
          rw [refused] at accepted
          cases accepted
      next accepted =>
        constructor
        · intro same
          cases same
          exact ⟨Nat.not_lt.mp small, rfl, accepted⟩
        · exact fun facts => facts.2.1

end SignalEnvelope

/-- A token with which an admitted participant reconnects by identity. -/
structure ResumeToken where
  /-- The room the token is valid for. -/
  roomId : String
  /-- The participant the token was issued to. -/
  nodeId : String
  /-- Unix seconds after which the token no longer resumes. -/
  expiresAt : UInt64
  /-- The participant's outbound sequence floor. -/
  seqFloor : UInt64
  /-- The host's authentication code over the other fields. -/
  mac : String
  deriving DecidableEq, Repr

/-- An entry of the list of ICE servers handed to an admitted participant. -/
structure IceServer where
  /-- The server's URLs. -/
  urls : List String
  /-- The TURN username, absent for plain STUN. -/
  username : Option String
  /-- The TURN password, absent for plain STUN. -/
  credential : Option String
  deriving DecidableEq, Repr

/-- A request for admission to a room. -/
structure AdmitReq where
  /-- The room to be joined. -/
  roomId : String
  /-- The presented capability chain, in hexadecimal. -/
  caps : String
  /-- The name to show in the roster. -/
  displayName : Option String
  /-- A token from an earlier admission. -/
  resume : Option ResumeToken
  deriving DecidableEq, Repr

/-- The host's reply to a request for admission. -/
structure AdmitResp where
  /-- Whether the requester was admitted. -/
  admitted : Bool := false
  /-- Why the requester was not admitted. -/
  reason : Option String := none
  /-- The ICE servers to configure. -/
  iceServers : List IceServer := []
  /-- The token for a later reconnect. -/
  resume : Option ResumeToken := none
  deriving DecidableEq, Repr

/-- An app message as the node delivers it. -/
structure AppMessage (Token : Type) where
  /-- The topic it was sent on. -/
  topic : String
  /-- The authenticated sender. -/
  sender : String
  /-- The payload, unless it does not decode. -/
  payload : Except String Bytes
  /-- The handle of a request that awaits a reply. -/
  replyToken : Option Token

end CeMeet
