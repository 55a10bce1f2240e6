import CeMeet.Client.Basic
import CeMeet.Decoding
import CeMeet.HostFlood

/-!
# Admission between participants and a host

Participants ask a host for admission and reconnect with the token that they
last received.  Anyone else may send the host anything.  The mesh authenticates
senders and hands a reply to the call it answers, but loses, delays and repeats
messages, and the host may be restarted with another revocation set.
-/

namespace CeMeet

/-- The serializer of the admission channel over a reader of JSON texts. -/
def AdmitSerde.ofText (parse : Bytes → Except String Json) : AdmitSerde where
  readReq bytes := parse bytes >>= AdmitReq.fromJson
  writeResp resp := .ok resp.toJson.render

/-- Send a request for admission by way of the mesh, and read the reply. -/
def MeetClient.sendAdmit (parse : Bytes → Except String Json)
    (request : Bytes → Except String Bytes) (req : AdmitReq) :
    Except String AdmitResp :=
  match request req.toJson.render with
  | .error e => .error e
  | .ok reply =>
      (parse reply >>= AdmitResp.fromJson).mapError
        fun e => s!"malformed admit reply: {e}"

theorem MeetClient.sendAdmit_encodeResp
    {parse : Bytes → Except String Json}
    (reads : ∀ value : Json, parse value.render = .ok value)
    (req : AdmitReq) (resp : AdmitResp) :
    MeetClient.sendAdmit parse
        (fun _ => .ok (Host.encodeResp (.ofText parse) resp)) req = .ok resp := by
  have written : Host.encodeResp (.ofText parse) resp = resp.toJson.render := rfl
  rw [sendAdmit, written]
  dsimp only
  rw [reads]
  change (AdmitResp.fromJson resp.toJson).mapError _ = _
  rw [AdmitResp.fromJson_toJson]
  rfl

namespace Admission

open Host

/-- A hosted room: what the host command was given. -/
structure Setting where
  /-- The digests. -/
  crypto : Crypto
  /-- The verifier of capabilities. -/
  iam : CeIam
  /-- The reader of JSON texts. -/
  parse : Bytes → Except String Json
  /-- The node of the host. -/
  me : String
  /-- The room. -/
  room : String
  /-- Whether everyone is admitted. -/
  isOpen : Bool
  /-- The additional roots. -/
  roots : List String
  /-- The key of the host. -/
  hostId : NodeId
  /-- The keys of the additional roots. -/
  acceptedRoots : List NodeId
  /-- The texts that the parser has written are read back. -/
  reads : ∀ value : Json, parse value.render = .ok value
  /-- The node has that key. -/
  parsesMe : parseNodeId crypto me = .ok hostId
  /-- The roots have these keys. -/
  parsesRoots : parseRoots crypto roots = .ok acceptedRoots

/-- The admission handler of a host that has read a revocation set. -/
def Setting.handler (setting : Setting)
    (revoked : Except String (List (String × UInt64))) : Admitter :=
  .new setting.room
    (roomGate setting.hostId setting.isOpen setting.acceptedRoots revoked)
    (macSecret setting.crypto setting.me)

/-- It is the handler of the host command. -/
theorem Setting.admitter_eq (setting : Setting)
    (revoked : Except String (List (String × UInt64))) :
    admitter setting.crypto setting.me setting.room setting.isOpen
        setting.roots revoked = .ok (setting.handler revoked) := by
  rw [admitter, setting.parsesMe]
  dsimp only
  rw [setting.parsesRoots]
  rfl

/-- What is sent to the host: a call of a participant's client, or anything of
any node. -/
inductive Post
  | call (client : MeetClient) (req : AdmitReq)
  | foreign (sender topic : String) (payload : Except String Bytes)
      (awaits : Bool)

/-- The message that arrives, with the number of the post for the reply. -/
def Post.message (index : Nat) : Post → AppMessage Nat
  | .call client req =>
      { topic := topicAdmit
        sender := client.room.me
        payload := .ok req.toJson.render
        replyToken := some index }
  | .foreign sender topic payload awaits =>
      { topic, sender, payload
        replyToken := if awaits then some index else none }

/-- A reply goes to the post that it answers. -/
theorem Post.index_eq {index token : Nat} (post : Post)
    (handle : (post.message index).replyToken = some token) :
    index = token := by
  cases post with
  | call client req => exact Option.some.inj handle
  | foreign sender topic payload awaits =>
      cases awaits with
      | false => cases handle
      | true => exact Option.some.inj handle

/-- The arrival of a post. -/
structure Delivery where
  /-- The number of the post. -/
  index : Nat
  /-- The clock when the rate limiter is asked. -/
  checkedAt : UInt64
  /-- The clock when the request is answered. -/
  admittedAt : UInt64

/-- What a call returns: the reply it was given and how the client reads it. -/
structure Answer where
  /-- The exchange at the host. -/
  exchange : Exchange Nat
  /-- The node of the client. -/
  node : String
  /-- The result of the call. -/
  result : Except String AdmitResp

/-- The state of the mesh. -/
structure World where
  /-- All that was sent to the host. -/
  posts : List Post
  /-- The revocation set that the host has read. -/
  revoked : Except String (List (String × UInt64))
  /-- The rate limiter of the host. -/
  limiter : AdmitRateLimiter
  /-- All that the host has replied. -/
  replies : List (Exchange Nat)
  /-- All that calls have returned. -/
  answers : List Answer

/-- The token that a node last received. -/
def World.ticket (world : World) (node : String) : Option ResumeToken :=
  (world.answers.filterMap fun answer =>
    match answer.result with
    | .ok resp => if answer.node = node then resp.resume else none
    | .error _ => none).getLast?

/-- What happens next. -/
inductive Action
  /-- A participant asks for admission. -/
  | requestAdmission (client : MeetClient) (caps : String)
      (displayName : Option String)
  /-- A participant reconnects with the token that it last received. -/
  | requestResume (client : MeetClient) (displayName : Option String)
  /-- A node sends something to the host. -/
  | send (sender topic : String) (payload : Except String Bytes)
      (awaits : Bool)
  /-- The host polls its inbox. -/
  | poll (deliveries : List Delivery)
  /-- The host is restarted. -/
  | restart (revoked : Except String (List (String × UInt64)))
  /-- A reply is handed to the call it answers. -/
  | deliver (reply : Nat)

/-- The arrivals of a poll. -/
def World.arrivals (world : World) (deliveries : List Delivery) :
    List (Arrival Nat) :=
  deliveries.filterMap fun delivery =>
    world.posts[delivery.index]?.map fun post =>
      { message := post.message delivery.index
        checkedAt := delivery.checkedAt
        admittedAt := delivery.admittedAt
        onChain := ∅ }

/-- Take one step. -/
def act (setting : Setting) (world : World) : Action → World
  | .requestAdmission client caps displayName =>
      { world with
        posts := world.posts ++
          [.call client (client.requestAdmission caps displayName)] }
  | .requestResume client displayName =>
      match world.ticket client.room.me with
      | none => world
      | some tok =>
          { world with
            posts := world.posts ++
              [.call client (client.requestResume tok displayName)] }
  | .send sender topic payload awaits =>
      { world with
        posts := world.posts ++ [.foreign sender topic payload awaits] }
  | .poll deliveries =>
      let serde := AdmitSerde.ofText setting.parse
      let (replies, limiter) := serveBatch serde
        (answer setting.crypto setting.iam serde
          (setting.handler world.revoked))
        world.limiter (world.arrivals deliveries)
      { world with limiter, replies := world.replies ++ replies }
  | .restart revoked => { world with revoked, limiter := .default }
  | .deliver reply =>
      match world.replies[reply]? with
      | none => world
      | some exchange =>
          match world.posts[exchange.request.token]? with
          | some (.call client req) =>
              { world with
                answers := world.answers ++
                  [{ exchange
                     node := client.room.me
                     result := MeetClient.sendAdmit setting.parse
                       (fun _ => .ok exchange.payload) req }] }
          | _ => world

/-- A host that has just started. -/
def start (revoked : Except String (List (String × UInt64))) : World :=
  { posts := [], revoked, limiter := .default, replies := [], answers := [] }

/-- The state of the mesh after a list of actions. -/
def run (setting : Setting)
    (revoked : Except String (List (String × UInt64)))
    (actions : List Action) : World :=
  actions.foldl (act setting) (start revoked)

/-! ## What a host replies -/

/-- The serializer of the host. -/
abbrev Setting.serde (setting : Setting) : AdmitSerde :=
  .ofText setting.parse

/-- What the host decides about a request at a time. -/
abbrev Setting.decision (setting : Setting)
    (revoked : Except String (List (String × UInt64))) (node : String)
    (req : AdmitReq) (now : UInt64) : AdmitResp :=
  (setting.handler revoked).admitRequest setting.crypto setting.iam node req []
    now

/-- What a host replies to the messages of a poll. -/
def World.repliesTo (setting : Setting) (world : World)
    (deliveries : List Delivery) : List (Exchange Nat) :=
  (serveBatch setting.serde
    (answer setting.crypto setting.iam setting.serde
      (setting.handler world.revoked))
    world.limiter (world.arrivals deliveries)).1

/-- A reply is the host's answer to a post that was there at the poll. -/
structure Replied (setting : Setting) (world : World)
    (exchange : Exchange Nat) : Prop where
  /-- The request arrived as it was posted. -/
  posted : ∃ post, world.posts[exchange.request.token]? = some post ∧
    exchange.request.arrival.message = post.message exchange.request.token
  /-- The request was read from it. -/
  parses : parsed setting.serde exchange.request.arrival =
    some exchange.request
  /-- The host has answered it. -/
  answered : exchange = answer setting.crypto setting.iam setting.serde
    (setting.handler world.revoked) exchange.request

/-- A poll is replied to with answers to posts. -/
theorem replied_of_mem_repliesTo
    {setting : Setting} {world : World} {deliveries : List Delivery}
    {exchange : Exchange Nat}
    (member : exchange ∈ world.repliesTo setting deliveries) :
    Replied setting world exchange := by
  rw [World.repliesTo, serveBatch_eq, (serveBatch_eq_granted ..).1] at member
  obtain ⟨request, taken, rfl⟩ := List.mem_map.mp member
  obtain ⟨arrival, arrived, parses⟩ := mem_granted taken
  obtain rfl := arrival_of_parsed parses
  obtain ⟨delivery, _, delivered⟩ := List.mem_filterMap.mp
    (List.mem_filter.mp arrived).1
  obtain ⟨post, posted, same⟩ := Option.map_eq_some_iff.mp delivered
  have arrives : request.arrival.message = post.message delivery.index :=
    (congrArg Arrival.message same).symm
  have token : delivery.index = request.token :=
    post.index_eq (arrives ▸ token_of_parsed parses)
  rw [token] at posted arrives
  exact ⟨⟨post, posted, arrives⟩, parses, rfl⟩

theorem readReq_render (setting : Setting) (req : AdmitReq) :
    setting.serde.readReq req.toJson.render = .ok req := by
  change (setting.parse req.toJson.render >>= AdmitReq.fromJson) = _
  rw [setting.reads]
  exact AdmitReq.fromJson_toJson req

/-- The reply to a call is the host's decision about its request. -/
theorem Replied.decides {setting : Setting} {world : World}
    {exchange : Exchange Nat} (replied : Replied setting world exchange)
    {client : MeetClient} {req : AdmitReq}
    (called : world.posts[exchange.request.token]? =
      some (.call client req)) :
    MeetClient.sendAdmit setting.parse (fun _ => .ok exchange.payload) req =
      .ok (setting.decision world.revoked client.room.me req
        exchange.request.arrival.admittedAt) := by
  obtain ⟨post, posted, arrived⟩ := replied.posted
  obtain rfl : post = .call client req :=
    Option.some.inj (posted.symm.trans called)
  have request : exchange.request.req = req := by
    have parses := replied.parses
    rw [parsed, arrived] at parses
    dsimp only [Post.message] at parses
    rw [readReq_render] at parses
    exact (congrArg Request.req (Option.some.inj parses)).symm
  rw [congrArg Exchange.payload replied.answered]
  change MeetClient.sendAdmit _ (fun _ => .ok (encodeResp setting.serde
    (setting.decision world.revoked exchange.request.arrival.message.sender
      exchange.request.req exchange.request.arrival.admittedAt))) req = _
  rw [MeetClient.sendAdmit_encodeResp setting.reads, arrived, request]
  rfl

/-- The revocation set that the host reads at an action. -/
def Action.reading : Action → Option (Except String (List (String × UInt64)))
  | .restart revoked => some revoked
  | _ => none

/-- A call returns what it reads in a reply to it. -/
structure Returned (setting : Setting) (world : World) (answer : Answer) :
    Prop where
  /-- The reply was given. -/
  replied : answer.exchange ∈ world.replies
  /-- The call was posted, and reads the reply. -/
  called : ∃ client req,
    world.posts[answer.exchange.request.token]? = some (.call client req) ∧
      answer.node = client.room.me ∧
      answer.result = MeetClient.sendAdmit setting.parse
        (fun _ => .ok answer.exchange.payload) req

/-- What an action does to the mesh. -/
inductive Acts (setting : Setting) (world : World) : Action → World → Prop
  /-- Nothing happens. -/
  | rests {action : Action} (unread : action.reading = none) :
      Acts setting world action world
  /-- Something is sent to the host.  A call that presents a token presents the
  one that its node last received. -/
  | posts {action : Action} (unread : action.reading = none) (post : Post)
      (presents : ∀ client req tok, post = .call client req →
        req.resume = some tok → world.ticket client.room.me = some tok) :
      Acts setting world action { world with posts := world.posts ++ [post] }
  /-- The host replies. -/
  | polls (deliveries : List Delivery) (limiter : AdmitRateLimiter) :
      Acts setting world (.poll deliveries)
        { world with
          limiter
          replies := world.replies ++ world.repliesTo setting deliveries }
  /-- The host reads a revocation set. -/
  | restarts (revoked : Except String (List (String × UInt64))) :
      Acts setting world (.restart revoked)
        { world with revoked, limiter := .default }
  /-- A call returns. -/
  | returns {action : Action} (unread : action.reading = none) (answer : Answer)
      (returned : Returned setting world answer) :
      Acts setting world action
        { world with answers := world.answers ++ [answer] }

theorem acts (setting : Setting) (world : World) (action : Action) :
    Acts setting world action (act setting world action) := by
  cases action with
  | requestAdmission client caps displayName =>
      refine .posts rfl _ fun _ _ tok same presented => ?_
      cases same
      cases presented
  | requestResume client displayName =>
      rw [act]
      split
      case h_1 => exact .rests rfl
      case h_2 tok held =>
        refine .posts rfl _ fun _ _ other same presented => ?_
        cases same
        cases presented
        exact held
  | send sender topic payload awaits =>
      exact .posts rfl _ fun _ _ _ same => by cases same
  | poll deliveries => exact .polls deliveries _
  | restart revoked => exact .restarts revoked
  | deliver reply =>
      rw [act]
      split
      case h_1 => exact .rests rfl
      case h_2 exchange found =>
        split
        case h_2 => exact .rests rfl
        case h_1 client req called =>
          exact .returns rfl _
            { replied := List.mem_of_getElem? found
              called := ⟨client, req, called, rfl, rfl⟩ }

namespace Acts

variable {setting : Setting} {world after : World} {action : Action}

theorem revoked (acts : Acts setting world action after) :
    after.revoked = action.reading.getD world.revoked := by
  cases acts with
  | rests unread | posts unread | returns unread =>
      rw [unread]
      rfl
  | polls | restarts => rfl

/-- What was posted remains. -/
theorem posts_extend (acts : Acts setting world action after) :
    world.posts <+: after.posts := by
  cases acts with
  | posts => exact List.prefix_append ..
  | rests | polls | restarts | returns => exact List.prefix_rfl

/-- So does what was replied. -/
theorem replies_subset (acts : Acts setting world action after) :
    world.replies ⊆ after.replies := by
  cases acts with
  | polls => exact List.subset_append_left ..
  | rests | posts | restarts | returns => exact List.Subset.refl _

end Acts

theorem posted_of_prefix {earlier posts : List Post} {index : Nat} {post : Post}
    (posted : earlier[index]? = some post) (extended : earlier <+: posts) :
    posts[index]? = some post := by
  obtain ⟨inside, _⟩ := List.getElem?_eq_some_iff.mp posted
  obtain ⟨added, rfl⟩ := extended
  rw [List.getElem?_append_left inside]
  exact posted

theorem Returned.act {setting : Setting} {world : World} {answer : Answer}
    (returned : Returned setting world answer) (action : Action) :
    Returned setting (Admission.act setting world action) answer where
  replied := (acts setting world action).replies_subset returned.replied
  called := by
    obtain ⟨client, req, called, rest⟩ := returned.called
    exact ⟨client, req,
      posted_of_prefix called (acts setting world action).posts_extend, rest⟩

/-! ## The course of a run -/

theorem run_concat (setting : Setting)
    (revoked : Except String (List (String × UInt64)))
    (past : List Action) (action : Action) :
    run setting revoked (past ++ [action]) =
      act setting (run setting revoked past) action :=
  List.foldl_concat ..

/-- The revocation set that the host has read last. -/
def inForce (start : Except String (List (String × UInt64)))
    (past : List Action) : Except String (List (String × UInt64)) :=
  (past.filterMap Action.reading).getLast?.getD start

theorem inForce_concat (start : Except String (List (String × UInt64)))
    (past : List Action) (action : Action) :
    inForce start (past ++ [action]) =
      action.reading.getD (inForce start past) := by
  rw [inForce, List.filterMap_append]
  cases read : action.reading <;> simp [inForce, read]

/-- A host decides by the revocation set that it has read last. -/
theorem revoked_run (setting : Setting)
    (revoked : Except String (List (String × UInt64)))
    (past : List Action) :
    (run setting revoked past).revoked = inForce revoked past := by
  induction past using List.reverseRecOn with
  | nil => rfl
  | append_singleton past action inductionHypothesis =>
      rw [run_concat, (acts ..).revoked, inForce_concat, inductionHypothesis]

theorem posts_run (setting : Setting)
    (revoked : Except String (List (String × UInt64)))
    (done rest : List Action) :
    (run setting revoked done).posts <+:
      (run setting revoked (done ++ rest)).posts := by
  induction rest using List.reverseRecOn with
  | nil => rw [List.append_nil]
  | append_singleton rest action inductionHypothesis =>
      rw [← List.append_assoc, run_concat]
      exact inductionHypothesis.trans (acts ..).posts_extend

/-- A poll of a run is replied to with an exchange. -/
def RepliedIn (setting : Setting)
    (revoked : Except String (List (String × UInt64)))
    (past : List Action) (exchange : Exchange Nat) : Prop :=
  ∃ done deliveries rest, past = done ++ .poll deliveries :: rest ∧
    exchange ∈ (run setting revoked done).repliesTo setting deliveries

theorem RepliedIn.concat {setting : Setting}
    {revoked : Except String (List (String × UInt64))} {past : List Action}
    {exchange : Exchange Nat}
    (replied : RepliedIn setting revoked past exchange) (action : Action) :
    RepliedIn setting revoked (past ++ [action]) exchange := by
  obtain ⟨done, deliveries, rest, rfl, member⟩ := replied
  exact ⟨done, deliveries, rest ++ [action], by simp, member⟩

/-- The reply to a call is the host's decision about its request, by the
revocation set that it had read last when it was polled. -/
theorem RepliedIn.decides {setting : Setting}
    {revoked : Except String (List (String × UInt64))} {past : List Action}
    {exchange : Exchange Nat}
    (replied : RepliedIn setting revoked past exchange)
    {client : MeetClient} {req : AdmitReq}
    (called : (run setting revoked past).posts[exchange.request.token]? =
      some (.call client req)) :
    ∃ done deliveries rest, past = done ++ .poll deliveries :: rest ∧
      exchange ∈ (run setting revoked done).repliesTo setting deliveries ∧
      (run setting revoked done).posts[exchange.request.token]? =
        some (.call client req) ∧
      MeetClient.sendAdmit setting.parse (fun _ => .ok exchange.payload) req =
        .ok (setting.decision (inForce revoked done) client.room.me req
          exchange.request.arrival.admittedAt) := by
  obtain ⟨done, deliveries, rest, rfl, member⟩ := replied
  have answers := replied_of_mem_repliesTo member
  obtain ⟨post, posted, _⟩ := answers.posted
  have kept := posted_of_prefix posted
    (posts_run setting revoked done (.poll deliveries :: rest))
  rw [Option.some.inj (kept.symm.trans called)] at posted
  refine ⟨done, deliveries, rest, rfl, member, posted, ?_⟩
  rw [← revoked_run setting]
  exact answers.decides posted

end Admission
end CeMeet
