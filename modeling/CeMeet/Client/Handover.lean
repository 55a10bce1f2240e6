import CeMeet.Client.Ingest
import CeMeet.Order.Router
import CeMeet.Wire

/-!
# What is handed to the media stack

Whatever a client hands over was decoded from a payload that arrived before,
from the node that it names as its sender, and passed the filters of the client,
however long it was held.  The filters accept a directed signal that names no
recipient.
-/

namespace CeMeet
namespace MeetClient

/-- A payload as the transport delivers it. -/
structure Receipt where
  /-- The receiver's clock. -/
  now : UInt64
  /-- The authenticated sender. -/
  sender : String
  /-- The payload. -/
  payload : Bytes

variable (serde : SerdeJson)

/-- Ingest a payload. -/
def ingest (client : MeetClient) (receipt : Receipt) :
    List SignalEnvelope × MeetClient :=
  client.ingestOrdered serde receipt.now receipt.sender receipt.payload

/-- What a client checks of an envelope before it is handed over. -/
structure Vetted (roomId me : String) (receipts : List Receipt)
    (env : SignalEnvelope) : Prop where
  /-- It was decoded from a payload of the sender it names. -/
  decoded : ∃ receipt ∈ receipts, env.sender = receipt.sender ∧
    ∃ parsed, SignalEnvelope.fromBytes serde receipt.payload = .ok parsed ∧
      env = parsed.withSender receipt.sender
  /-- It belongs to the room. -/
  roomId : env.roomId = roomId
  /-- It is a directed signal. -/
  directed : env.signal.isBroadcast = false
  /-- Its fields are within their bounds. -/
  valid : env.signal.validate = .ok ()
  /-- It names the client as its recipient, or nobody. -/
  addressed : env.recipient = none ∨ env.recipient = some me

variable {serde}

theorem Vetted.mono
    {roomId me : String} {receipts later : List Receipt} {env : SignalEnvelope}
    (vetted : Vetted serde roomId me receipts env)
    (grows : receipts ⊆ later) :
    Vetted serde roomId me later env where
  decoded := by
    obtain ⟨receipt, member, same⟩ := vetted.decoded
    exact ⟨receipt, grows member, same⟩
  roomId := vetted.roomId
  directed := vetted.directed
  valid := vetted.valid
  addressed := vetted.addressed

theorem addressedTo_iff {env : SignalEnvelope} {me : String} :
    env.addressedTo me = true ↔
      env.recipient = none ∨ env.recipient = some me := by
  unfold SignalEnvelope.addressedTo
  cases env.recipient <;> simp

/-- An envelope is offered to its reorder buffer, or nothing is handed over and
no buffer changes. -/
theorem route_cases (client : MeetClient) (env : SignalEnvelope) :
    SameFilters client (client.route env).2 ∧
      ((client.route env).1 = [] ∧
          (client.route env).2.router = client.router ∨
        env.roomId = client.room.roomId ∧ env.signal.isBroadcast = false ∧
          env.addressedTo client.room.me = true ∧
          (client.route env).1 = (client.router.offer env).1 ∧
          (client.route env).2.router = (client.router.offer env).2) := by
  have writes := Room.apply_writes client.room env
  by_cases directed : env.roomId = client.room.roomId ∧ env.sender ≠ "" ∧
      env.signal.isBroadcast = false
  · obtain ⟨sameRoom, authenticated, unicast⟩ := directed
    unfold route
    rw [Room.apply_directed sameRoom authenticated unicast]
    dsimp only
    split
    case isTrue addressed =>
      exact ⟨⟨rfl, rfl, rfl⟩,
        .inr ⟨sameRoom, unicast, addressed, rfl, rfl⟩⟩
    case isFalse => exact ⟨⟨rfl, rfl, rfl⟩, .inl ⟨rfl, rfl⟩⟩
  · have undirected : env.roomId ≠ client.room.roomId ∨ env.sender = "" ∨
        env.signal.isBroadcast = true := by
      by_contra accepted
      simp only [not_or, not_not, Bool.not_eq_true] at accepted
      exact directed accepted
    rw [route_eq_of_undirected undirected]
    exact ⟨⟨writes.roomId, writes.me, rfl⟩, .inl ⟨rfl, rfl⟩⟩

/-- A payload is offered to a reorder buffer if it is vetted and fresh, and
otherwise nothing is handed over and no buffer changes. -/
theorem ingest_cases (client : MeetClient) (receipt : Receipt) :
    SameFilters client (client.ingest serde receipt).2 ∧
      ((client.ingest serde receipt).1 = [] ∧
          (client.ingest serde receipt).2.router = client.router ∨
        ∃ env, Vetted serde client.room.roomId client.room.me [receipt] env ∧
          env.isFresh receipt.now client.freshnessSecs = true ∧
          (client.ingest serde receipt).1 = (client.router.offer env).1 ∧
          (client.ingest serde receipt).2.router =
            (client.router.offer env).2) := by
  have unchanged : SameFilters client client := ⟨rfl, rfl, rfl⟩
  unfold ingest ingestOrdered
  cases parsed : SignalEnvelope.fromBytes serde receipt.payload with
  | error e => exact ⟨unchanged, .inl ⟨rfl, rfl⟩⟩
  | ok env =>
      dsimp only
      split
      case isTrue => exact ⟨unchanged, .inl ⟨rfl, rfl⟩⟩
      case isFalse timely =>
        obtain ⟨filters, dropped | offered⟩ :=
          route_cases client (env.withSender receipt.sender)
        · exact ⟨filters, .inl dropped⟩
        · obtain ⟨sameRoom, directed, addressed, released, router⟩ := offered
          have vetted : Vetted serde client.room.roomId client.room.me
              [receipt] (env.withSender receipt.sender) :=
            { decoded := ⟨receipt, List.mem_singleton_self _, rfl, env,
                parsed, rfl⟩
              roomId := sameRoom
              directed
              valid := (SignalEnvelope.fromBytes_eq_ok_iff.mp parsed).2.2
              addressed := addressedTo_iff.mp addressed }
          have fresh : (env.withSender receipt.sender).isFresh receipt.now
              client.freshnessSecs = true := by
            by_cases disabled : client.freshnessSecs = 0
            · simp [SignalEnvelope.isFresh, disabled]
            · by_contra stale
              exact timely
                ⟨disabled, (Bool.not_eq_true _).mpr directed, stale⟩
          exact ⟨filters, .inr ⟨_, vetted, fresh, released, router⟩⟩

/-- If the buffers hold envelopes of some kind only, and what is vetted and
fresh is of the kind, then ingesting a payload hands over envelopes of the kind
only, and the buffers hold such envelopes only. -/
theorem ingest_holds
    {client : MeetClient} {kind : SignalEnvelope → Prop}
    (holds : client.router.Holds kind)
    (receipt : Receipt)
    (isKind : ∀ env,
      Vetted serde client.room.roomId client.room.me [receipt] env →
      env.isFresh receipt.now client.freshnessSecs = true → kind env) :
    (∀ env ∈ (client.ingest serde receipt).1, kind env) ∧
      (client.ingest serde receipt).2.router.Holds kind := by
  rcases (ingest_cases client receipt).2 with
    ⟨released, router⟩ | ⟨env, vetted, fresh, released, router⟩
  · rw [released, router]
    exact ⟨by simp, holds⟩
  · rw [released, router]
    exact holds.offer (isKind env vetted fresh)

/-- Ingesting a payload hands over vetted envelopes only, and holds vetted
envelopes only. -/
theorem ingest_vetted
    {client : MeetClient} {receipts : List Receipt}
    (holds : client.router.Holds
      (Vetted serde client.room.roomId client.room.me receipts))
    (receipt : Receipt) :
    (∀ env ∈ (client.ingest serde receipt).1,
        Vetted serde client.room.roomId client.room.me
          (receipts ++ [receipt]) env) ∧
      (client.ingest serde receipt).2.router.Holds
        (Vetted serde client.room.roomId client.room.me
          (receipts ++ [receipt])) :=
  ingest_holds
    (holds.mono fun _ vetted =>
      vetted.mono (List.subset_append_left receipts [receipt]))
    receipt fun _ vetted _ =>
      vetted.mono (List.subset_append_right receipts [receipt])

/-- The client after a run. -/
def afterReceipts (serde : SerdeJson) (room : Room) (freshnessSecs : UInt64)
    (receipts : List Receipt) : MeetClient :=
  Transducer.final (ingest serde) { room, router := .new, freshnessSecs }
    receipts

theorem afterReceipts_concat
    (room : Room) (freshnessSecs : UInt64) (receipts : List Receipt)
    (receipt : Receipt) :
    afterReceipts serde room freshnessSecs (receipts ++ [receipt]) =
      ((afterReceipts serde room freshnessSecs receipts).ingest serde
        receipt).2 :=
  Transducer.final_concat receipts receipt

variable (serde) in
theorem afterReceipts_filters
    (room : Room) (freshnessSecs : UInt64) (receipts : List Receipt) :
    (afterReceipts serde room freshnessSecs receipts).room.roomId =
        room.roomId ∧
      (afterReceipts serde room freshnessSecs receipts).room.me = room.me :=
  Transducer.invariant
    (motive := fun client => client.room.roomId = room.roomId ∧
      client.room.me = room.me)
    ⟨rfl, rfl⟩
    (fun client receipt same =>
      let filters := (ingest_cases client receipt).1
      ⟨filters.roomId.trans same.1, filters.me.trans same.2⟩)
    receipts

variable (serde) in
/-- After every run from an empty router, the buffers hold vetted envelopes
only. -/
theorem afterReceipts_holds
    (room : Room) (freshnessSecs : UInt64) (receipts : List Receipt) :
    (afterReceipts serde room freshnessSecs receipts).router.Holds
      (Vetted serde room.roomId room.me receipts) := by
  induction receipts using List.reverseRecOn with
  | nil => exact SignalRouter.Holds.empty defaultWindow
  | append_singleton receipts receipt inductionHypothesis =>
      obtain ⟨sameRoom, sameMe⟩ :=
        afterReceipts_filters serde room freshnessSecs receipts
      rw [← sameRoom, ← sameMe] at inductionHypothesis ⊢
      rw [afterReceipts_concat]
      exact (ingest_vetted inductionHypothesis receipt).2

/-- In every run of a client whose buffers are empty at the start, every
envelope that is handed over is vetted. -/
theorem handed_over_vetted
    (serde : SerdeJson) (room : Room) (freshnessSecs : UInt64)
    (done : List Receipt) (receipt : Receipt) (env : SignalEnvelope)
    (handedOver : env ∈
      ((afterReceipts serde room freshnessSecs done).ingest serde receipt).1) :
    Vetted serde room.roomId room.me (done ++ [receipt]) env := by
  have holds := afterReceipts_holds serde room freshnessSecs done
  obtain ⟨sameRoom, sameMe⟩ :=
    afterReceipts_filters serde room freshnessSecs done
  rw [← sameRoom, ← sameMe] at holds ⊢
  exact (ingest_vetted holds receipt).1 env handedOver

/-- An offer of a session. -/
def offerTo (recipient : Option String) : SignalEnvelope :=
  { roomId := "r"
    sender := ""
    recipient
    seq := 0
    sentAt := 1000
    signal := .offer "v=0" }

/-- The offer as it is received. -/
def offerReceipt (recipient : Option String) : Receipt :=
  { now := 1000
    sender := "ann"
    payload := (offerTo recipient).toJson.render }

/-- An offer for the client or for nobody is handed over. -/
theorem ingest_offerReceipt
    {recipient : Option String}
    (addressed : recipient = none ∨ recipient = some "bob") :
    ((new "r" "bob").ingest (.ofEnvelope (offerTo recipient))
      (offerReceipt recipient)).1 = [(offerTo recipient).withSender "ann"] := by
  have parsed : SignalEnvelope.fromBytes (.ofEnvelope (offerTo recipient))
      (offerTo recipient).toJson.render = .ok (offerTo recipient) := by
    apply SerdeJson.fromBytes_ofEnvelope
    · rcases addressed with rfl | rfl <;> decide
    · rfl
  unfold ingest ingestOrdered
  simp only [offerReceipt]
  rw [parsed]
  rcases addressed with rfl | rfl <;> rfl

/-- An offer for the client is vetted. -/
theorem offerToBob_vetted :
    Vetted (.ofEnvelope (offerTo (some "bob"))) "r" "bob"
      [offerReceipt (some "bob")]
      ((offerTo (some "bob")).withSender "ann") :=
  handed_over_vetted (.ofEnvelope (offerTo (some "bob")))
    (.new "r" "bob") 0 [] (offerReceipt (some "bob")) _ (by
      change _ ∈ ((new "r" "bob").ingest _ _).1
      rw [ingest_offerReceipt (.inr rfl)]
      exact List.mem_singleton_self _)

/-- An offer that names no recipient is handed over. -/
theorem offerToNobody_handed_over :
    ∃ env ∈
        ((afterReceipts (.ofEnvelope (offerTo none)) (.new "r" "bob") 0
          []).ingest (.ofEnvelope (offerTo none)) (offerReceipt none)).1,
      env.signal.isBroadcast = false ∧ env.recipient ≠ some "bob" := by
  refine ⟨(offerTo none).withSender "ann", ?_, rfl, by decide⟩
  change _ ∈ ((new "r" "bob").ingest _ _).1
  rw [ingest_offerReceipt (.inl rfl)]
  exact List.mem_singleton_self _

end MeetClient
end CeMeet
