import CeMeet.Foundation.Json
import CeMeet.Proto

/-!
# The wire format

The JSON values of an envelope and of the reply to a request for admission, and
the number of bytes of an envelope's frame.  The bounds on the fields of a
signal do not bound the frame: escapes lengthen a string, and the envelope's own
strings are not bounded.
-/

namespace CeMeet

/-- The value of an optional field. -/
def optionJson {α : Type} (toJson : α → Json) : Option α → Json
  | none => .null
  | some value => toJson value

/-- The number of bytes of an optional field. -/
def optionSize {α : Type} (size : α → Nat) : Option α → Nat
  | none => 4
  | some value => size value

theorem size_optionJson {α : Type} {toJson : α → Json} {size : α → Nat}
    (sized : ∀ value, (toJson value).size = size value)
    (value : Option α) :
    (optionJson toJson value).size = optionSize size value := by
  cases value with
  | none => rfl
  | some value => exact sized value

theorem size_optionJson_string (text : Option String) :
    (optionJson .string text).size = optionSize Json.quotedSize text :=
  size_optionJson (fun _ => rfl) text

theorem size_optionJson_index (index : Option UInt32) :
    (optionJson (fun index => .number index.toNat) index).size =
      optionSize (fun index => Json.decimalSize index.toNat) index :=
  size_optionJson (fun _ => rfl) index

namespace Signal

/-- The name of a kind of signal on the wire. -/
def wireKind : Signal → String
  | .join _ => "join"
  | .leave => "leave"
  | .keepalive => "keepalive"
  | .offer _ => "offer"
  | .answer _ => "answer"
  | .iceCandidate .. => "ice_candidate"
  | .iceEnd => "ice_end"
  | .media .. => "media"
  | .screenShare _ => "screen_share"
  | .raiseHand _ => "raise_hand"
  | .reaction _ => "reaction"
  | .chat _ => "chat"
  | .recording _ => "recording"
  | .kick _ => "kick"
  | .forceMute _ => "force_mute"
  | .endRoom _ => "end_room"

/-- The fields of a signal on the wire, after its kind. -/
def wireFields : Signal → List (String × Json)
  | .join displayName => [("display_name", optionJson .string displayName)]
  | .offer sdp | .answer sdp => [("sdp", .string sdp)]
  | .iceCandidate candidate sdpMid sdpMLineIndex =>
      [("candidate", .string candidate),
        ("sdp_mid", optionJson .string sdpMid),
        ("sdp_m_line_index",
          optionJson (fun index => .number index.toNat) sdpMLineIndex)]
  | .media audioMuted videoMuted =>
      [("audio_muted", .bool audioMuted), ("video_muted", .bool videoMuted)]
  | .screenShare active | .recording active => [("active", .bool active)]
  | .raiseHand raised => [("raised", .bool raised)]
  | .reaction emoji => [("emoji", .string emoji)]
  | .chat body => [("body", .string body)]
  | .kick reason | .endRoom reason => [("reason", optionJson .string reason)]
  | .forceMute audioMuted => [("audio_muted", .bool audioMuted)]
  | .leave | .keepalive | .iceEnd => []

/-- The JSON value of a signal. -/
def toJson (signal : Signal) : Json :=
  .object (("kind", .string signal.wireKind) :: signal.wireFields)

/-- The number of bytes of a flag. -/
def flagSize (flag : Bool) : Nat :=
  if flag then 4 else 5

/-- The number of bytes of a signal on the wire. -/
def wireSize : Signal → Nat
  | .join displayName => 31 + optionSize Json.quotedSize displayName
  | .leave => 16
  | .keepalive => 20
  | .offer sdp => 23 + Json.quotedSize sdp
  | .answer sdp => 24 + Json.quotedSize sdp
  | .iceCandidate candidate sdpMid sdpMLineIndex =>
      68 + Json.quotedSize candidate + optionSize Json.quotedSize sdpMid +
        optionSize (fun index => Json.decimalSize index.toNat) sdpMLineIndex
  | .iceEnd => 18
  | .media audioMuted videoMuted =>
      46 + flagSize audioMuted + flagSize videoMuted
  | .screenShare active => 33 + flagSize active
  | .raiseHand raised => 31 + flagSize raised
  | .reaction emoji => 28 + Json.quotedSize emoji
  | .chat body => 23 + Json.quotedSize body
  | .recording active => 30 + flagSize active
  | .kick reason => 25 + optionSize Json.quotedSize reason
  | .forceMute audioMuted => 36 + flagSize audioMuted
  | .endRoom reason => 29 + optionSize Json.quotedSize reason

theorem quotedSize_kinds :
    Json.quotedSize "kind" = 6 ∧ Json.quotedSize "join" = 6 ∧
      Json.quotedSize "leave" = 7 ∧ Json.quotedSize "keepalive" = 11 ∧
      Json.quotedSize "offer" = 7 ∧ Json.quotedSize "answer" = 8 ∧
      Json.quotedSize "ice_candidate" = 15 ∧ Json.quotedSize "ice_end" = 9 ∧
      Json.quotedSize "media" = 7 ∧ Json.quotedSize "screen_share" = 14 ∧
      Json.quotedSize "raise_hand" = 12 ∧ Json.quotedSize "reaction" = 10 ∧
      Json.quotedSize "chat" = 6 ∧ Json.quotedSize "recording" = 11 ∧
      Json.quotedSize "kick" = 6 ∧ Json.quotedSize "force_mute" = 12 ∧
      Json.quotedSize "end_room" = 10 := by
  decide

theorem quotedSize_fields :
    Json.quotedSize "display_name" = 14 ∧ Json.quotedSize "sdp" = 5 ∧
      Json.quotedSize "candidate" = 11 ∧ Json.quotedSize "sdp_mid" = 9 ∧
      Json.quotedSize "sdp_m_line_index" = 18 ∧
      Json.quotedSize "audio_muted" = 13 ∧
      Json.quotedSize "video_muted" = 13 ∧ Json.quotedSize "active" = 8 ∧
      Json.quotedSize "raised" = 8 ∧ Json.quotedSize "emoji" = 7 ∧
      Json.quotedSize "body" = 6 ∧ Json.quotedSize "reason" = 8 := by
  decide

theorem size_toJson (signal : Signal) :
    signal.toJson.size = signal.wireSize := by
  cases signal <;>
    simp only [toJson, wireKind, wireFields, wireSize, flagSize, Json.size,
      Json.sizeFields, size_optionJson_string, size_optionJson_index,
      quotedSize_kinds, quotedSize_fields, List.length_cons,
      List.length_nil] <;>
    omega

end Signal

namespace SignalEnvelope

/-- The JSON value of an envelope. -/
def toJson (env : SignalEnvelope) : Json :=
  .object
    [("room_id", .string env.roomId),
      ("from", .string env.sender),
      ("to", optionJson .string env.recipient),
      ("seq", .number env.seq.toNat),
      ("sent_at", .number env.sentAt.toNat),
      ("signal", env.signal.toJson)]

/-- The number of bytes of the frame of an envelope. -/
def wireSize (env : SignalEnvelope) : Nat :=
  54 + Json.quotedSize env.roomId + Json.quotedSize env.sender +
    optionSize Json.quotedSize env.recipient +
    Json.decimalSize env.seq.toNat + Json.decimalSize env.sentAt.toNat +
    env.signal.wireSize

theorem quotedSize_names :
    Json.quotedSize "room_id" = 9 ∧ Json.quotedSize "from" = 6 ∧
      Json.quotedSize "to" = 4 ∧ Json.quotedSize "seq" = 5 ∧
      Json.quotedSize "sent_at" = 9 ∧ Json.quotedSize "signal" = 8 := by
  decide

theorem size_toJson (env : SignalEnvelope) :
    env.toJson.size = env.wireSize := by
  simp only [toJson, wireSize, Json.size, Json.sizeFields,
    size_optionJson_string, Signal.size_toJson, quotedSize_names, List.length_cons, List.length_nil]
  omega

/-- The size of an envelope is the length of its frame. -/
theorem length_render_toJson (env : SignalEnvelope) :
    env.toJson.render.length = env.wireSize := by
  rw [Json.length_render, size_toJson]

end SignalEnvelope

namespace SerdeJson

/-- The serializer restricted to one envelope. -/
def ofEnvelope (env : SignalEnvelope) : SerdeJson :=
  .ofTable [(env, env.toJson.render)] (List.nodup_singleton _)

theorem toVec_ofEnvelope (env : SignalEnvelope) :
    (ofEnvelope env).toVec env = .ok env.toJson.render := by
  simp [ofEnvelope, ofTable]

theorem fromBytes_ofEnvelope
    {env : SignalEnvelope}
    (fits : env.wireSize ≤ maxEnvelopeBytes)
    (valid : env.signal.validate = .ok ()) :
    SignalEnvelope.fromBytes (ofEnvelope env) env.toJson.render = .ok env :=
  SignalEnvelope.fromBytes_eq_ok_iff.mpr
    ⟨env.length_render_toJson.le.trans fits,
      (ofEnvelope env).fromSlice_toVec _ _ (toVec_ofEnvelope env), valid⟩

end SerdeJson

/-! ## Admission -/

/-- The JSON value of a resume token. -/
def ResumeToken.toJson (tok : ResumeToken) : Json :=
  .object
    [("room_id", .string tok.roomId),
      ("node_id", .string tok.nodeId),
      ("expires_at", .number tok.expiresAt.toNat),
      ("seq_floor", .number tok.seqFloor.toNat),
      ("mac", .string tok.mac)]

/-- The JSON value of a request for admission. -/
def AdmitReq.toJson (req : AdmitReq) : Json :=
  .object
    [("room_id", .string req.roomId),
      ("caps", .string req.caps),
      ("display_name", optionJson .string req.displayName),
      ("resume", optionJson ResumeToken.toJson req.resume)]

/-- A field that is left out when it is absent. -/
def presentField (name : String) (text : Option String) :
    List (String × Json) :=
  text.toList.map fun text => (name, .string text)

/-- The JSON value of an ICE server. -/
def IceServer.toJson (server : IceServer) : Json :=
  .object
    (("urls", .array (server.urls.map .string)) ::
      (presentField "username" server.username ++
        presentField "credential" server.credential))

/-- The JSON value of a reply. -/
def AdmitResp.toJson (resp : AdmitResp) : Json :=
  .object
    [("admitted", .bool resp.admitted),
      ("reason", optionJson .string resp.reason),
      ("ice_servers", .array (resp.iceServers.map IceServer.toJson)),
      ("resume", optionJson ResumeToken.toJson resp.resume)]

end CeMeet
