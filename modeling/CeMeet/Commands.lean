import CeMeet.Control
import CeMeet.Meeting.Handover

/-!
# The `signal` and `moderate` commands

Like the `control` command, these build a client of their own for every run, so
all their signals have the number zero.  A reorder buffer takes such a signal
once and regards every later one as a repetition of it.
-/

namespace CeMeet

/-- Run the `signal` command: what it publishes and what it prints. -/
def signal (serde : SerdeJson) (me room peer kind body : String)
    (now : UInt64) : Option (Except String (Publication × String)) :=
  let client := MeetClient.new room me
  let signal : Except String Signal :=
    match kind with
    | "offer" => .ok (.offer body)
    | "answer" => .ok (.answer body)
    | "ice" => .ok (.iceCandidate body none none)
    | other =>
        .error s!"unknown signal kind '{other}' (use offer | answer | ice)"
  match signal with
  | .error e => some (.error e)
  | .ok signal =>
      (client.signalPeer serde peer signal now).map fun (result, _) =>
        match result with
        | .error _ => .error "publish signal"
        | .ok publication =>
            .ok (publication, s!"sent {kind} to {peer} in {room}")

/-- An action of a moderator. -/
inductive ModerateAction
  | kick (peer : String) (reason : Option String)
  | mute (peer : String) (unmute : Bool)
  | endRoom (reason : Option String)

/-- Run the `moderate` command: what it publishes and what it prints. -/
def moderate (serde : SerdeJson) (me room : String) (now : UInt64)
    (action : ModerateAction) :
    Option (Except String (Publication × String)) :=
  let client := MeetClient.new room me
  let (sent, what) : Option (Except String Publication × MeetClient) ×
      String :=
    match action with
    | .kick peer reason =>
        (client.kick serde peer reason now, s!"kick -> {peer}")
    | .mute peer unmute =>
        let verb := if unmute then "request-unmute" else "force-mute"
        (client.forceMute serde peer (!unmute) now, s!"{verb} -> {peer}")
    | .endRoom reason => (client.endRoom serde reason now, "end-room")
  sent.map fun (result, _) =>
    result.map fun publication => (publication, s!"sent {what} in {room}")

/-- The envelope of an action. -/
def ModerateAction.envelope (room : String) (now seq : UInt64) :
    ModerateAction → SignalEnvelope
  | .kick peer reason => .directed room peer seq now (.kick reason)
  | .mute peer unmute => .directed room peer seq now (.forceMute !unmute)
  | .endRoom reason => .broadcast room seq now (.endRoom reason)

/-- Every action publishes its envelope. -/
theorem moderate_eq_publishNext
    (serde : SerdeJson) (me room : String) (now : UInt64)
    (action : ModerateAction) :
    ∃ printed, moderate serde me room now action =
      ((MeetClient.new room me).publishNext serde
        (action.envelope room now)).map fun sent =>
          sent.1.map fun publication => (publication, printed) := by
  cases action <;> exact ⟨_, rfl⟩

/-- A frame that one of the commands has published. -/
inductive Commanded (serde : SerdeJson) : Publication → Prop
  | control {me room : String} {now : UInt64} {action : ControlAction}
      {publication : Publication} {printed : String}
      (ran : control serde me room now action =
        some (.ok (publication, printed))) :
      Commanded serde publication
  | signal {me room peer kind body : String} {now : UInt64}
      {publication : Publication} {printed : String}
      (ran : signal serde me room peer kind body now =
        some (.ok (publication, printed))) :
      Commanded serde publication
  | moderate {me room : String} {now : UInt64} {action : ModerateAction}
      {publication : Publication} {printed : String}
      (ran : moderate serde me room now action =
        some (.ok (publication, printed))) :
      Commanded serde publication

/-- What a new client publishes first has the number zero. -/
theorem isFrameOf_of_first
    {serde : SerdeJson} {me room : String} {build : UInt64 → SignalEnvelope}
    {publication : Publication} {after : MeetClient}
    (sent : (MeetClient.new room me).publishNext serde build =
      some (.ok publication, after)) :
    MeetClient.IsFrameOf serde (build 0) publication := by
  obtain ⟨_, _, _, frame⟩ := MeetClient.succeeds_of_publishNext sent
  exact frame

/-- Whatever the command, its signal has the number zero. -/
theorem Commanded.seq_eq_zero
    {serde : SerdeJson} {publication : Publication}
    (commanded : Commanded serde publication) :
    ∃ env, MeetClient.IsFrameOf serde env publication ∧ env.seq = 0 := by
  cases commanded with
  | control ran => exact ⟨_, isFrameOf_of_control ran, rfl⟩
  | @signal me room peer kind body now publication printed ran =>
      unfold CeMeet.signal at ran
      dsimp only at ran
      split at ran
      case h_1 => cases ran
      case h_2 signal _ =>
        obtain ⟨⟨result, after⟩, sent, same⟩ := Option.map_eq_some_iff.mp ran
        cases result with
        | error e => cases same
        | ok sentPublication =>
            cases same
            exact ⟨_, isFrameOf_of_first sent, rfl⟩
  | @moderate me room now action publication printed ran =>
      obtain ⟨line, publishes⟩ :=
        moderate_eq_publishNext serde me room now action
      rw [publishes, Option.map_eq_some_iff] at ran
      obtain ⟨⟨result, after⟩, sent, same⟩ := ran
      cases result with
      | error e => cases same
      | ok sentPublication =>
          cases same
          refine ⟨_, isFrameOf_of_first sent, ?_⟩
          cases action <;> rfl

/-! ## Signals that all have the number zero -/

namespace OrderedInbox

/-- An inbox that is past the number zero and holds nothing. -/
structure Spent (inbox : OrderedInbox) : Prop where
  /-- It has delivered something. -/
  started : inbox.started = true
  /-- It waits for a later number. -/
  past : 0 < inbox.next
  /-- It holds nothing. -/
  empty : inbox.buffer = .empty

theorem drain_of_empty {inbox : OrderedInbox} (empty : inbox.buffer = .empty) :
    inbox.drain = ([], inbox) := by
  rw [drain, buffered, empty]
  rfl

/-- Such an inbox releases nothing under the number zero. -/
theorem Spent.call {inbox : OrderedInbox} (spent : Spent inbox) {action : Call}
    (zero : ∀ env, action = .offer env → env.seq = 0) :
    (inbox.call action).1 = [] ∧ Spent (inbox.call action).2 := by
  cases action with
  | offer env =>
      have behind : inbox.started ∧ env.seq < inbox.next := by
        rw [zero env rfl]
        exact ⟨spent.started, spent.past⟩
      rw [OrderedInbox.call, offer, if_pos behind]
      exact ⟨rfl, spent⟩
  | skipTo seq =>
      rw [OrderedInbox.call, skipTo]
      split
      case isTrue skips =>
        have later : inbox.next < seq :=
          skips.resolve_right (not_not.mpr spent.started)
        have nothing : inbox.buffer.filter (fun env => decide (seq ≤ env.seq)) =
            .empty := by
          rw [spent.empty]
          rfl
        rw [drain_of_empty nothing]
        exact ⟨rfl, rfl, spent.past.trans later, nothing⟩
      case isFalse =>
        rw [drain_of_empty spent.empty]
        exact ⟨rfl, spent⟩

theorem outputs_of_spent {inbox : OrderedInbox} (spent : Spent inbox)
    {calls : List Call}
    (zero : ∀ env, Call.offer env ∈ calls → env.seq = 0) :
    (Transducer.outputs OrderedInbox.call inbox calls).flatten = [] := by
  induction calls generalizing inbox with
  | nil => rfl
  | cons action calls inductionHypothesis =>
      obtain ⟨silent, spentNext⟩ := spent.call fun env same =>
        zero env (same ▸ List.mem_cons_self)
      rw [Transducer.outputs_cons, List.flatten_cons, silent,
        inductionHypothesis spentNext fun env member =>
          zero env (List.mem_cons_of_mem _ member)]
      rfl

/-- A fresh inbox delivers a signal with the number zero. -/
theorem offer_first (window : UInt64) {env : SignalEnvelope}
    (zero : env.seq = 0) :
    ((withWindow window).offer env).1 = [env] ∧
      Spent ((withWindow window).offer env).2 := by
  let held : Indexed SignalEnvelope.seq := Indexed.empty.insert env
  have offers : (withWindow window).offer env =
      ({ next := env.seq, started := true, buffer := held
         window := max window 1 } : OrderedInbox).drain := by
    rw [offer, if_neg (by simp [withWindow]), if_neg (by simp [withWindow]),
      if_neg (by simp [withWindow, zero]), if_neg (by simp [withWindow])]
    rfl
  have single : held.size = 1 := by
    rw [Indexed.size, Indexed.keys_insert, Indexed.keys_empty]
    rfl
  have emptied : held.erase env.seq = .empty := by
    ext number
    rw [Indexed.lookup_erase, Indexed.lookup_insert]
    by_cases same : number = env.seq <;> simp [same]
  have drains : (withWindow window).offer env =
      ([env],
        { next := env.seq.saturatingAdd 1, started := true
          buffer := held.erase env.seq, window := max window 1 }) := by
    rw [offers, drain, buffered, single, drainWithin]
    dsimp only
    rw [Indexed.lookup_insert_self]
    rfl
  rw [drains]
  refine ⟨rfl, rfl, ?_, emptied⟩
  rw [zero]
  exact (by decide : (0 : UInt64) < UInt64.saturatingAdd 0 1)

/-- If all offers have the number zero, the first one alone is released. -/
theorem lazyReleased_of_zero {window : UInt64} {calls : List Call}
    (zero : ∀ env, Call.offer env ∈ calls → env.seq = 0) :
    lazyReleased window calls = (calls.filterMap Call.offered).take 1 := by
  induction calls with
  | nil => rfl
  | cons action calls inductionHypothesis =>
      have later : ∀ env, Call.offer env ∈ calls → env.seq = 0 :=
        fun env member => zero env (List.mem_cons_of_mem _ member)
      cases action with
      | skipTo seq => exact inductionHypothesis later
      | offer env =>
          obtain ⟨delivers, spent⟩ :=
            offer_first window (zero env List.mem_cons_self)
          have released : lazyReleased window (.offer env :: calls) =
              ((withWindow window).offer env).1 ++
                (Transducer.outputs (lazyCall window)
                  (some ((withWindow window).offer env).2) calls).flatten := rfl
          rw [released, (lazyCall_some window _ calls).1, delivers,
            outputs_of_spent spent later]
          rfl

end OrderedInbox

open MeetClient in
/-- Of everything that a node publishes by commands, a client hands over the
first directed signal that passes its filters, and never another one, whatever
else it receives and does. -/
theorem hands_over_first_command
    (serde : SerdeJson) (roomId me : String) (secs : UInt64) (node : String)
    (named : node ≠ "") (inputs : List Input)
    (commanded : ∀ publication reading,
      .arrival node publication reading ∈ inputs →
        Commanded serde publication) :
    let client := (MeetClient.new roomId me).withFreshness secs
    ((client.outcomes serde inputs).flatMap Outcome.handedOver).filter
        (fun env => env.sender = node) =
      (inputs.filterMap (client.offeredBy serde node)).take 1 := by
  intro client
  have released : ((client.outcomes serde inputs).flatMap
      Outcome.handedOver).filter (fun env => env.sender = node) =
        OrderedInbox.lazyReleased defaultWindow (SignalRouter.callsOf node
          (inputs.filterMap (client.routerCall serde))) := by
    rw [(outcomes_handedOver serde client inputs).1]
    exact SignalRouter.released_filter_sender defaultWindow _ node
  rw [released, ← offered_callsOf serde client named]
  refine OrderedInbox.lazyReleased_of_zero fun env member => ?_
  obtain ⟨called, rfl⟩ := SignalRouter.sender_of_offer_mem_callsOf member
  obtain ⟨input, present, offers⟩ := List.mem_filterMap.mp called
  cases input with
  | command command => cases command <;> cases offers
  | arrival sender publication reading =>
      cases reading with
      | roster => cases offers
      | ordered now =>
          obtain ⟨other, filled, same⟩ := Option.map_eq_some_iff.mp offers
          cases same
          obtain ⟨fromSender, parsed, decoded, number⟩ := sender_of_slot filled
          rw [← fromSender] at present
          obtain ⟨written, frame, zero⟩ :=
            (commanded publication _ present).seq_eq_zero
          have reads := (SignalEnvelope.fromBytes_eq_ok_iff.mp decoded).2.1
          rw [serde.fromSlice_toVec _ _ frame.1] at reads
          rw [← number, ← Except.ok.inj reads]
          exact zero

/-- The frame of an offer that Ann makes by a command. -/
def annOffers : Publication :=
  (roomTopic "r",
    (SignalEnvelope.directed "r" "bob" 0 1000 (.offer "v=0")).toJson.render)

/-- The frame of a kick. -/
def annKicks : Publication :=
  (roomTopic "r",
    (SignalEnvelope.directed "r" "bob" 0 1001 (.kick none)).toJson.render)

theorem commanded_ann :
    Commanded .compact annOffers ∧ Commanded .compact annKicks := by
  have offers : ∃ printed, signal .compact "ann" "r" "bob" "offer" "v=0" 1000 =
      some (.ok (annOffers, printed)) := ⟨_, rfl⟩
  have kicks : ∃ printed, moderate .compact "ann" "r" 1001 (.kick "bob" none) =
      some (.ok (annKicks, printed)) := ⟨_, rfl⟩
  exact ⟨.signal offers.choose_spec, .moderate kicks.choose_spec⟩

open MeetClient in
/-- Bob receives an offer and then a kick. -/
theorem hands_over_first_command_kick :
    let client := (MeetClient.new "r" "bob").withFreshness 30
    let inputs : List Input :=
      [.arrival "ann" annOffers (.ordered 1002),
        .arrival "ann" annKicks (.ordered 1003)]
    ((client.outcomes .compact inputs).flatMap Outcome.handedOver).filter
        (fun env => env.sender = "ann") =
      (inputs.filterMap (client.offeredBy .compact "ann")).take 1 := by
  intro client inputs
  refine hands_over_first_command .compact "r" "bob" 30 "ann" (by decide) inputs
    fun publication reading arrival => ?_
  rcases List.mem_cons.mp arrival with first | rest
  · cases first
    exact commanded_ann.1
  · cases List.mem_singleton.mp rest
    exact commanded_ann.2

end CeMeet
