import CeMeet.Foundation.JsonReader
import CeMeet.Foundation.JsonRecord
import CeMeet.Room.Persistence

/-!
# Decoding

What a peer reads from the JSON value of an envelope, of a message of the
admission channel or of a snapshot.  Every value that is written reads back as
what it was written from; a frame that is received reads back as the envelope
it was written from exactly if the envelope's signal is within its bounds and
the frame is no longer than the largest accepted frame.
-/

namespace CeMeet

open Json

/-- An optional field reads back if nothing that is written is null. -/
theorem asOption_optionJson
    {α : Type} {write : α → Json} {read : Json → Except String α}
    (roundTrip : ∀ value, read (write value) = .ok value)
    (notNull : ∀ value, write value ≠ .null)
    (value : Option α) :
    asOption read (optionJson write value) = .ok value := by
  cases value with
  | none => rfl
  | some value =>
      rw [optionJson, asOption, roundTrip value]
      · rfl
      · exact notNull value

@[simp] theorem asOption_optionJson_string (text : Option String) :
    asOption asString (optionJson .string text) = .ok text :=
  asOption_optionJson asString_string (fun _ => nofun) text

@[simp] theorem asOption_optionJson_index (index : Option UInt32) :
    asOption asU32 (optionJson (fun index => .number index.toNat) index) =
      .ok index :=
  asOption_optionJson asU32_toNat (fun _ => nofun) index

/-! ## Envelopes -/

namespace Signal

/-- Read a signal: its kind, and then the fields of its kind. -/
def fromJson (value : Json) : Except String Signal := do
  let fields ← value.asObject
  match ← required "kind" asString fields with
  | "join" =>
      return .join (← defaulted "display_name" (asOption asString) none fields)
  | "leave" => return .leave
  | "keepalive" => return .keepalive
  | "offer" => return .offer (← required "sdp" asString fields)
  | "answer" => return .answer (← required "sdp" asString fields)
  | "ice_candidate" =>
      return .iceCandidate (← required "candidate" asString fields)
        (← defaulted "sdp_mid" (asOption asString) none fields)
        (← defaulted "sdp_m_line_index" (asOption asU32) none fields)
  | "ice_end" => return .iceEnd
  | "media" =>
      return .media (← required "audio_muted" asBool fields)
        (← required "video_muted" asBool fields)
  | "screen_share" => return .screenShare (← required "active" asBool fields)
  | "raise_hand" => return .raiseHand (← required "raised" asBool fields)
  | "reaction" => return .reaction (← required "emoji" asString fields)
  | "chat" => return .chat (← required "body" asString fields)
  | "recording" => return .recording (← required "active" asBool fields)
  | "kick" =>
      return .kick (← defaulted "reason" (asOption asString) none fields)
  | "force_mute" => return .forceMute (← required "audio_muted" asBool fields)
  | "end_room" =>
      return .endRoom (← defaulted "reason" (asOption asString) none fields)
  | kind => .error s!"unknown variant `{kind}`"

@[simp] theorem fromJson_toJson (signal : Signal) :
    fromJson signal.toJson = .ok signal := by
  cases signal <;>
    simp [fromJson, toJson, wireKind, wireFields, required, defaulted]

end Signal

namespace SignalEnvelope

/-- Read an envelope. -/
def fromJson (value : Json) : Except String SignalEnvelope := do
  let fields ← value.asObject
  let roomId ← required "room_id" asString fields
  let sender ← defaulted "from" asString "" fields
  let recipient ← defaulted "to" (asOption asString) none fields
  let seq ← required "seq" asU64 fields
  let sentAt ← required "sent_at" asU64 fields
  let signal ← required "signal" Signal.fromJson fields
  return { roomId, sender, recipient, seq, sentAt, signal }

theorem fromJson_toJson (env : SignalEnvelope) :
    fromJson env.toJson = .ok env := by
  simp [fromJson, toJson, required, defaulted]

end SignalEnvelope

/-- The serializer that writes the text of an envelope's value and reads an
envelope from the value of a text, given a parser of texts. -/
def SerdeJson.ofText
    (parse : Bytes → Except String Json)
    (reads : ∀ env : SignalEnvelope,
      parse env.toJson.render = .ok env.toJson) : SerdeJson where
  toVec env := .ok env.toJson.render
  fromSlice bytes := parse bytes >>= SignalEnvelope.fromJson
  fromSlice_toVec := by
    rintro env _ ⟨⟩
    rw [reads env]
    exact env.fromJson_toJson

/-- The frame of an envelope reads back as the envelope exactly if the signal is
within its bounds and the frame is not too large. -/
theorem SignalEnvelope.fromBytes_render_iff
    {parse : Bytes → Except String Json}
    (reads : ∀ env : SignalEnvelope,
      parse env.toJson.render = .ok env.toJson)
    (env : SignalEnvelope) :
    fromBytes (.ofText parse reads) env.toJson.render = .ok env ↔
      env.signal.validate = .ok () ∧
        env.toJson.render.length ≤ maxEnvelopeBytes := by
  have read := (SerdeJson.ofText parse reads).fromSlice_toVec env _ rfl
  rw [fromBytes_eq_ok_iff]
  constructor
  · exact fun accepted => ⟨accepted.2.2, accepted.1⟩
  · exact fun within => ⟨within.2, read, within.1⟩

/-! ## Admission -/

namespace ResumeToken

/-- Read a resume token. -/
def fromJson (value : Json) : Except String ResumeToken := do
  let fields ← value.asObject
  let roomId ← required "room_id" asString fields
  let nodeId ← required "node_id" asString fields
  let expiresAt ← required "expires_at" asU64 fields
  let seqFloor ← defaulted "seq_floor" asU64 0 fields
  let mac ← required "mac" asString fields
  return { roomId, nodeId, expiresAt, seqFloor, mac }

theorem fromJson_toJson (tok : ResumeToken) :
    fromJson tok.toJson = .ok tok := by
  simp [fromJson, toJson, required, defaulted]

@[simp] theorem asOption_optionJson (tok : Option ResumeToken) :
    asOption fromJson (optionJson toJson tok) = .ok tok :=
  CeMeet.asOption_optionJson fromJson_toJson (fun _ => nofun) tok

end ResumeToken

namespace AdmitReq

/-- Read a request for admission. -/
def fromJson (value : Json) : Except String AdmitReq := do
  let fields ← value.asObject
  let roomId ← required "room_id" asString fields
  let caps ← required "caps" asString fields
  let displayName ← defaulted "display_name" (asOption asString) none fields
  let resume ← defaulted "resume" (asOption ResumeToken.fromJson) none fields
  return { roomId, caps, displayName, resume }

theorem fromJson_toJson (req : AdmitReq) : fromJson req.toJson = .ok req := by
  simp [fromJson, toJson, required, defaulted]

end AdmitReq

namespace IceServer

/-- Read an ICE server. -/
def fromJson (value : Json) : Except String IceServer := do
  let fields ← value.asObject
  let urls ← required "urls" (asList asString) fields
  let username ← defaulted "username" (asOption asString) none fields
  let credential ← defaulted "credential" (asOption asString) none fields
  return { urls, username, credential }

theorem fromJson_toJson (server : IceServer) :
    fromJson server.toJson = .ok server := by
  obtain ⟨urls, username, credential⟩ := server
  have readUrls := asList_map asString_string urls
  cases username <;> cases credential <;>
    simp [fromJson, toJson, required, defaulted, presentField, readUrls,
      asOption, Except.map]

end IceServer

namespace AdmitResp

/-- Read a reply. -/
def fromJson (value : Json) : Except String AdmitResp := do
  let fields ← value.asObject
  let admitted ← required "admitted" asBool fields
  let reason ← defaulted "reason" (asOption asString) none fields
  let iceServers ← defaulted "ice_servers" (asList IceServer.fromJson) [] fields
  let resume ← defaulted "resume" (asOption ResumeToken.fromJson) none fields
  return { admitted, reason, iceServers, resume }

theorem fromJson_toJson (resp : AdmitResp) :
    fromJson resp.toJson = .ok resp := by
  have readServers := asList_map IceServer.fromJson_toJson resp.iceServers
  simp [fromJson, toJson, required, defaulted, readServers]

end AdmitResp

/-! ## Snapshots -/

namespace Member

/-- Read a member record. -/
def fromJson (value : Json) : Except String Member := do
  let fields ← value.asObject
  let nodeId ← required "node_id" asString fields
  let displayName ← defaulted "display_name" (asOption asString) none fields
  let present ← required "present" asBool fields
  let lastSeq ← required "last_seq" asU64 fields
  let lastSeen ← required "last_seen" asU64 fields
  let audioMuted ← defaulted "audio_muted" asBool false fields
  let videoMuted ← defaulted "video_muted" asBool false fields
  let sharing ← defaulted "sharing" asBool false fields
  let handRaised ← defaulted "hand_raised" asBool false fields
  let mediaSeq ← defaulted "media_seq" asU64 0 fields
  let shareSeq ← defaulted "share_seq" asU64 0 fields
  let handSeq ← defaulted "hand_seq" asU64 0 fields
  return {
    nodeId, displayName, present, lastSeq, lastSeen
    audioMuted, videoMuted, sharing, handRaised
    mediaSeq, shareSeq, handSeq }

theorem fromJson_toJson (m : Member) : fromJson m.toJson = .ok m := by
  simp [fromJson, toJson, required, defaulted]

end Member

namespace RoomSnapshot

/-- Read a snapshot. -/
def fromJson (value : Json) : Except String RoomSnapshot := do
  let fields ← value.asObject
  let roomId ← required "room_id" asString fields
  let me ← required "me" asString fields
  let nextSeq ← required "next_seq" asU64 fields
  let members ← required "members" (asList Member.fromJson) fields
  return { roomId, me, nextSeq, members }

theorem fromJson_toJson (snap : RoomSnapshot) :
    fromJson snap.toJson = .ok snap := by
  have readMembers := asList_map Member.fromJson_toJson snap.members
  simp [fromJson, toJson, required, readMembers]

/-- Parse a saved snapshot. -/
def fromBytes (parse : Bytes → Except String Json) (bytes : Bytes) :
    Except String RoomSnapshot :=
  (parse bytes >>= fromJson).mapError
    fun e => s!"malformed ce-meet room snapshot: {e}"

/-- A saved snapshot is loaded as it was. -/
theorem fromBytes_toBytes
    {parse : Bytes → Except String Json} {snap : RoomSnapshot}
    (reads : parse snap.toBytes = .ok snap.toJson) :
    fromBytes parse snap.toBytes = .ok snap := by
  rw [fromBytes, reads, ok_bind, fromJson_toJson]
  rfl

end RoomSnapshot

/-! ## All formats -/

/-- The serializer of compact texts. -/
def SerdeJson.compact : SerdeJson :=
  .ofText Json.read fun env => Json.read_render env.toJson

/-- Every value of every format reads back as what it was written from.  A frame
reads back exactly if its signal is within its bounds and it is not too large,
and no frame reads as an envelope with a signal beyond its bounds. -/
theorem formats_round_trip
    (parse : Bytes → Except String Json)
    (reads : ∀ env : SignalEnvelope,
      parse env.toJson.render = .ok env.toJson) :
    let serde := SerdeJson.ofText parse reads
    (∀ env : SignalEnvelope, SignalEnvelope.fromJson env.toJson = .ok env) ∧
      (∀ req : AdmitReq, AdmitReq.fromJson req.toJson = .ok req) ∧
      (∀ resp : AdmitResp, AdmitResp.fromJson resp.toJson = .ok resp) ∧
      (∀ snap : RoomSnapshot, RoomSnapshot.fromJson snap.toJson = .ok snap) ∧
      (∀ env : SignalEnvelope,
        env.toBytes serde = .ok env.toJson.render ∧
          (SignalEnvelope.fromBytes serde env.toJson.render = .ok env ↔
            env.signal.validate = .ok () ∧
              env.toJson.render.length ≤ maxEnvelopeBytes)) ∧
      ∀ bytes env, SignalEnvelope.fromBytes serde bytes = .ok env →
        env.signal.validate = .ok () := by
  intro serde
  refine ⟨SignalEnvelope.fromJson_toJson, AdmitReq.fromJson_toJson,
    AdmitResp.fromJson_toJson, RoomSnapshot.fromJson_toJson, fun env => ?_,
    fun bytes env received => ?_⟩
  · exact ⟨rfl, env.fromBytes_render_iff reads⟩
  · exact (SignalEnvelope.fromBytes_eq_ok_iff.mp received).2.2

theorem formats_round_trip_chat :
    let env := SignalEnvelope.broadcast "r" 1 2 (.chat "hi")
    SignalEnvelope.fromBytes .compact env.toJson.render = .ok env := by
  intro env
  have frames := (formats_round_trip Json.read
    fun env => Json.read_render env.toJson).2.2.2.2.1 env
  have fits : env.toJson.render.length ≤ maxEnvelopeBytes := by
    rw [SignalEnvelope.length_render_toJson]
    decide
  exact frames.2.mpr ⟨rfl, fits⟩

end CeMeet
