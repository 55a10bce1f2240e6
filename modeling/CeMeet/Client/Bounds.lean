import CeMeet.Client.Basic
import CeMeet.Wire

/-!
# The bounds of the sender and of the receiver

A sender bounds the fields of a signal, a receiver also the frame.  The frame of
a signal within its bounds can be too large, so a published envelope reads back
exactly if its frame is small enough.
-/

namespace CeMeet
namespace MeetClient

/-- What is published is the frame of an envelope whose fields are within their
bounds. -/
theorem publish_eq_ok_iff
    {serde : SerdeJson} {client : MeetClient} {env : SignalEnvelope}
    {publication : Publication} :
    client.publish serde env = .ok publication ↔
      env.signal.validate = .ok () ∧ ∃ bytes, serde.toVec env = .ok bytes ∧
        publication = (roomTopic client.room.roomId, bytes) := by
  unfold publish SignalEnvelope.toBytes
  cases env.signal.validate with
  | error reason => simp
  | ok _ =>
      cases serde.toVec env with
      | error e => simp [Except.mapError]
      | ok bytes => simp [Except.mapError, eq_comm]

/-- A frame that was written reads back if its envelope passes both bounds. -/
theorem fromBytes_of_toVec
    {serde : SerdeJson} {env : SignalEnvelope} {bytes : Bytes}
    (written : serde.toVec env = .ok bytes) :
    SignalEnvelope.fromBytes serde bytes = .ok env ↔
      bytes.length ≤ maxEnvelopeBytes ∧ env.signal.validate = .ok () := by
  rw [SignalEnvelope.fromBytes_eq_ok_iff,
    serde.fromSlice_toVec env bytes written]
  simp

/-- If the serializer writes an envelope as JSON with the standard escapes, then
what the client publishes for it reads back exactly if its frame is small enough
or it is not published at all. -/
theorem publish_reads_back_iff
    {serde : SerdeJson} {env : SignalEnvelope}
    (standard : serde.toVec env = .ok env.toJson.render)
    (client : MeetClient) :
    (∀ publication, client.publish serde env = .ok publication →
        SignalEnvelope.fromBytes serde publication.2 = .ok env) ↔
      (env.signal.validate = .ok () → env.wireSize ≤ maxEnvelopeBytes) := by
  have published : ∀ publication,
      client.publish serde env = .ok publication ↔
        env.signal.validate = .ok () ∧
          publication = (roomTopic client.room.roomId, env.toJson.render) := by
    intro publication
    rw [publish_eq_ok_iff, standard]
    simp
  have reads : SignalEnvelope.fromBytes serde env.toJson.render = .ok env ↔
      env.wireSize ≤ maxEnvelopeBytes ∧ env.signal.validate = .ok () := by
    rw [fromBytes_of_toVec standard, SignalEnvelope.length_render_toJson]
  constructor
  · intro readsBack valid
    exact (reads.mp (readsBack _ ((published _).mpr ⟨valid, rfl⟩))).1
  · intro fits publication accepted
    obtain ⟨valid, rfl⟩ := (published publication).mp accepted
    exact reads.mpr ⟨fits valid, valid⟩

/-- An offer to a peer. -/
def offerOf (sdp : String) : SignalEnvelope :=
  .directed "r" "bob" 0 1000 (.offer sdp)

theorem wireSize_offerOf (sdp : String) :
    (offerOf sdp).wireSize = 92 + Json.quotedSize sdp := by
  have strings : Json.quotedSize "r" = 3 ∧ Json.quotedSize "" = 2 ∧
      Json.quotedSize "bob" = 5 := by decide
  have numbers : Json.decimalSize (0 : UInt64).toNat = 1 ∧
      Json.decimalSize (1000 : UInt64).toNat = 4 := by decide
  rw [SignalEnvelope.wireSize]
  simp only [offerOf, SignalEnvelope.directed, optionSize, Signal.wireSize,
    strings, numbers]
  omega

/-- A short offer reads back. -/
theorem shortOffer_reads_back :
    ∃ publication,
      (new "r" "ann").publish (.ofEnvelope (offerOf "v=0\r\n"))
          (offerOf "v=0\r\n") = .ok publication ∧
        SignalEnvelope.fromBytes (.ofEnvelope (offerOf "v=0\r\n"))
          publication.2 = .ok (offerOf "v=0\r\n") := by
  have written := SerdeJson.toVec_ofEnvelope (offerOf "v=0\r\n")
  have fits : (offerOf "v=0\r\n").wireSize ≤ maxEnvelopeBytes := by
    decide
  have published :
      (new "r" "ann").publish (.ofEnvelope (offerOf "v=0\r\n"))
          (offerOf "v=0\r\n") =
        .ok (roomTopic "r", (offerOf "v=0\r\n").toJson.render) :=
    publish_eq_ok_iff.mpr ⟨by decide, _, written, rfl⟩
  exact ⟨_, published,
    (publish_reads_back_iff written (new "r" "ann")).mpr (fun _ => fits) _
      published⟩

/-- Line feeds. -/
def lineFeeds (count : Nat) : String :=
  .ofList (List.replicate count '\n')

theorem utf8ByteSize_lineFeeds (count : Nat) :
    (lineFeeds count).utf8ByteSize = count := by
  rw [lineFeeds, String.utf8ByteSize, String.toByteArray_ofList,
    List.utf8Encode, List.size_toByteArray, List.length_flatMap,
    List.map_replicate, List.sum_replicate, String.length_utf8EncodeChar]
  exact Nat.mul_one count

theorem quotedSize_lineFeeds (count : Nat) :
    Json.quotedSize (lineFeeds count) = 2 * count + 2 := by
  rw [lineFeeds, Json.quotedSize, String.toList_ofList, List.map_replicate,
    List.sum_replicate, Nat.mul_comm 2]
  rfl

theorem validate_lineFeeds {count : Nat} (bounded : count ≤ maxSdpLen) :
    (offerOf (lineFeeds count)).signal.validate = .ok () := by
  change Signal.check "sdp" (lineFeeds count) maxSdpLen = _
  rw [Signal.check, utf8ByteSize_lineFeeds, if_neg (Nat.not_lt.mpr bounded)]

/-- An offer of as many line feeds as an offer may have is published, and its
frame is refused. -/
theorem longOffer_refused :
    ∃ publication,
      (new "r" "ann").publish (.ofEnvelope (offerOf (lineFeeds maxSdpLen)))
          (offerOf (lineFeeds maxSdpLen)) = .ok publication ∧
        SignalEnvelope.fromBytes (.ofEnvelope (offerOf (lineFeeds maxSdpLen)))
            publication.2 ≠ .ok (offerOf (lineFeeds maxSdpLen)) := by
  have valid := validate_lineFeeds (le_refl maxSdpLen)
  have large : maxEnvelopeBytes <
      (offerOf (lineFeeds maxSdpLen)).wireSize := by
    rw [wireSize_offerOf, quotedSize_lineFeeds]
    decide
  have written := SerdeJson.toVec_ofEnvelope (offerOf (lineFeeds maxSdpLen))
  refine ⟨_, publish_eq_ok_iff.mpr ⟨valid, _, written, rfl⟩, ?_⟩
  rw [Ne, fromBytes_of_toVec written, SignalEnvelope.length_render_toJson]
  exact fun fits => absurd large (Nat.not_lt.mpr fits.1)

end MeetClient
end CeMeet
