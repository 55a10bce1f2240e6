import CeMeet.Foundation.Mesh
import Mathlib.Data.Finset.Image

/-!
# Channels of a network

Some parties of a network ignore whatever the other parties send.  Along every
run they do what they would do on a network of their own, on which only their
own messages and those of strangers are delivered.
-/

namespace Mesh

variable {π ν σ μ κ δ ω : Type*}

/-- An input with its sender under another name. -/
def Input.rename (name : π → ν) : Input π μ κ δ → Input ν μ κ δ
  | .command own => .command own
  | .arrival sender message reading => .arrival (name sender) message reading

/-- Parties of a network, with their names on a network of their own, that
ignore the other parties. -/
structure Channel (behaviour : Behaviour π σ μ κ δ ω)
    (part : Behaviour ν σ μ κ δ ω) where
  /-- The party of the channel that has a name. -/
  seat : ν → π
  /-- The name of a party. -/
  name : π → ν
  /-- A party of the channel is found by its name. -/
  name_seat : ∀ node, name (seat node) = node
  /-- What is known of a party. -/
  valid : π → σ → Prop
  /-- What other parties send. -/
  foreign : μ → Prop
  /-- The output of a party that does nothing. -/
  silent : ω
  /-- The same outputs send. -/
  emits_eq : part.emits = behaviour.emits
  /-- Who does nothing sends nothing. -/
  emits_silent : behaviour.emits silent = none
  /-- A party of the channel does what it would do on a network of its own. -/
  step_seat : ∀ node state input,
    behaviour.step (seat node) state input =
      part.step node state (input.rename name)
  /-- What is known of a party remains so. -/
  preserved : ∀ party state input, valid party state →
    valid party (behaviour.step party state input).2
  /-- Parties outside the channel send nothing that concerns it. -/
  sends : ∀ party state input message, valid party state →
    seat (name party) ≠ party →
    behaviour.emits (behaviour.step party state input).1 = some message →
    foreign message
  /-- Parties of the channel ignore what does not concern it. -/
  ignores : ∀ node state sender message reading, valid (seat node) state →
    foreign message →
    behaviour.step (seat node) state (.arrival sender message reading) =
      (silent, state)

/-- Only parties act, and strangers have names of their own. -/
def Orderly (name : π → ν) (parties : Finset π) : Action π μ κ δ → Prop
  | .command party _ | .deliver party _ _ => party ∈ parties
  | .inject sender _ => ∀ party ∈ parties, name party ≠ name sender

instance [DecidableEq π] [DecidableEq ν] (name : π → ν) (parties : Finset π)
    (action : Action π μ κ δ) : Decidable (Orderly name parties action) :=
  match action with
  | .command party _ | .deliver party _ _ =>
      inferInstanceAs (Decidable (party ∈ parties))
  | .inject sender _ =>
      inferInstanceAs (Decidable (∀ party ∈ parties, name party ≠ name sender))

/-- An entry that passes a filter is found behind those that pass before it. -/
theorem getElem?_filter_of_passes {α : Type*} {passes : α → Bool}
    {entries : List α} {index : Nat} {entry : α}
    (found : entries[index]? = some entry) (isPassed : passes entry = true) :
    (entries.filter passes)[(entries.take index).countP passes]? =
      some entry := by
  induction entries generalizing index with
  | nil => cases found
  | cons first rest inductionHypothesis =>
      cases index with
      | zero =>
          cases found
          rw [List.filter_cons_of_pos isPassed]
          rfl
      | succ index =>
          have later := inductionHypothesis found
          by_cases firstPasses : passes first = true
          · rw [List.filter_cons_of_pos firstPasses, List.take_succ_cons,
              List.countP_cons_of_pos firstPasses]
            exact later
          · rw [List.filter_cons_of_neg firstPasses, List.take_succ_cons,
              List.countP_cons_of_neg firstPasses]
            exact later

namespace Channel

variable [DecidableEq π]
variable {behaviour : Behaviour π σ μ κ δ ω} {part : Behaviour ν σ μ κ δ ω}
variable (channel : Channel behaviour part) (parties : Finset π)

/-- Whether a message is sent on the channel: by one of its parties or by a
stranger. -/
def carries (entry : π × μ) : Bool :=
  decide (channel.seat (channel.name entry.1) = entry.1 ∨ entry.1 ∉ parties)

/-- What was sent on the channel, under the names there. -/
def carried (sent : List (π × μ)) : List (ν × μ) :=
  (sent.filter (channel.carries parties)).map fun entry =>
    (channel.name entry.1, entry.2)

/-- What an action is on the channel, if it concerns it. -/
def select (mesh : Mesh π σ μ) :
    Action π μ κ δ → Option (Action ν μ κ δ)
  | .command party command =>
      if channel.seat (channel.name party) = party then
        some (.command (channel.name party) command)
      else none
  | .deliver party index reading =>
      if channel.seat (channel.name party) = party then
        match mesh.sent[index]? with
        | some entry =>
            if channel.carries parties entry then
              some (.deliver (channel.name party)
                ((mesh.sent.take index).countP (channel.carries parties))
                reading)
            else none
        | none => none
      else none
  | .inject sender message => some (.inject (channel.name sender) message)

/-- The run on the channel alone. -/
def actions (mesh : Mesh π σ μ) (actions : List (Action π μ κ δ)) :
    List (Action ν μ κ δ) :=
  Transducer.translate (channel.select parties) (act behaviour parties) mesh
    actions

/-- The channel alone is where it is on the whole network. -/
structure Agrees (whole : Mesh π σ μ) (alone : Mesh ν σ μ) : Prop where
  /-- Its parties are. -/
  states : ∀ node, alone.states node = whole.states (channel.seat node)
  /-- The same was sent on it. -/
  sent : alone.sent = channel.carried parties whole.sent
  /-- What is known of the parties. -/
  valid : ∀ party, channel.valid party (whole.states party)
  /-- Whatever else was sent does not concern it. -/
  foreign : ∀ entry ∈ whole.sent, channel.carries parties entry = false →
    channel.foreign entry.2

/-- What a party shows by an output, if it is the one that is watched. -/
def shows {ρ : Type*} {θ : Type*} [DecidableEq θ] (watch : ω → List ρ)
    (node : θ) : Option (Record θ μ κ δ ω) → List ρ
  | some record => if record.party = node then watch record.output else []
  | none => []

/-- What is shown along a run. -/
theorem flatMap_shows {ρ : Type*} (watch : ω → List ρ) (party : π)
    (records : List (Option (Record π μ κ δ ω))) :
    records.flatMap (shows watch party) =
      ((history party records).map Prod.snd).flatMap watch := by
  induction records with
  | nil => rfl
  | cons record records inductionHypothesis =>
      rw [List.flatMap_cons, inductionHypothesis]
      cases record with
      | none => rfl
      | some record =>
          by_cases own : record.party = party <;> simp [shows, history, own]

variable {channel parties}

theorem carries_seat (node : ν) (message : μ) :
    channel.carries parties (channel.seat node, message) = true :=
  decide_eq_true (Or.inl (congrArg channel.seat (channel.name_seat node)))

theorem carried_append (done rest : List (π × μ)) :
    channel.carried parties (done ++ rest) =
      channel.carried parties done ++ channel.carried parties rest := by
  rw [carried, List.filter_append, List.map_append]
  rfl

theorem carried_seat (node : ν) (message : Option μ) :
    channel.carried parties
        (message.toList.map fun message => (channel.seat node, message)) =
      message.toList.map fun message => (node, message) := by
  cases message with
  | none => rfl
  | some message =>
      rw [Option.toList_some, List.map_singleton, carried,
        List.filter_cons_of_pos (carries_seat node message)]
      simp [channel.name_seat]

theorem carried_foreign {party : π} (isParty : party ∈ parties)
    (outside : channel.seat (channel.name party) ≠ party)
    (message : Option μ) :
    channel.carried parties
      (message.toList.map fun message => (party, message)) = [] := by
  cases message <;> simp [carried, carries, isParty, outside]

namespace Agrees

variable {whole : Mesh π σ μ} {alone : Mesh ν σ μ}

/-- Doing as much on the channel keeps the agreement. -/
theorem perform_seat [DecidableEq ν]
    (agrees : channel.Agrees parties whole alone) (node : ν)
    (input : Input π μ κ δ) :
    channel.Agrees parties
      (whole.perform behaviour (channel.seat node) input).2
      (alone.perform part node (input.rename channel.name)).2 := by
  have sameStep : part.step node (alone.states node)
      (input.rename channel.name) =
        behaviour.step (channel.seat node) (whole.states (channel.seat node))
          input := by
    rw [agrees.states, channel.step_seat]
  unfold perform
  rw [sameStep]
  refine
    { states := fun other => ?states
      sent := ?sent
      valid := fun party => ?valid
      foreign := fun entry member silent => ?foreign }
  case states =>
    by_cases own : other = node
    · subst own
      simp
    · have apart : channel.seat other ≠ channel.seat node := fun same =>
        own (by rw [← channel.name_seat other, same, channel.name_seat])
      simp [Function.update_of_ne own, Function.update_of_ne apart,
        agrees.states]
  case sent =>
    rw [carried_append, carried_seat, agrees.sent, channel.emits_eq]
  case valid =>
    by_cases own : party = channel.seat node
    · subst own
      simpa using channel.preserved _ _ input (agrees.valid _)
    · simpa [Function.update_of_ne own] using agrees.valid party
  case foreign =>
    rcases List.mem_append.mp member with earlier | new
    · exact agrees.foreign entry earlier silent
    · obtain ⟨message, _, rfl⟩ := List.mem_map.mp new
      rw [carries_seat] at silent
      cases silent

/-- What the other parties do keeps the agreement. -/
theorem perform_other
    (agrees : channel.Agrees parties whole alone) {party : π}
    (isParty : party ∈ parties)
    (outside : channel.seat (channel.name party) ≠ party)
    (input : Input π μ κ δ) :
    channel.Agrees parties (whole.perform behaviour party input).2 alone := by
  unfold perform
  refine
    { states := fun node => ?states
      sent := ?sent
      valid := fun other => ?valid
      foreign := fun entry member silent => ?foreign }
  case states =>
    have apart : channel.seat node ≠ party := by
      rintro rfl
      exact outside (congrArg channel.seat (channel.name_seat node))
    simp [Function.update_of_ne apart, agrees.states]
  case sent =>
    rw [carried_append, carried_foreign isParty outside, List.append_nil]
    exact agrees.sent
  case valid =>
    by_cases own : other = party
    · subst own
      simpa using channel.preserved _ _ input (agrees.valid _)
    · simpa [Function.update_of_ne own] using agrees.valid other
  case foreign =>
    rcases List.mem_append.mp member with earlier | new
    · exact agrees.foreign entry earlier silent
    · obtain ⟨message, emitted, rfl⟩ := List.mem_map.mp new
      exact channel.sends party _ input message (agrees.valid party) outside
        (Option.mem_toList.mp emitted)

/-- A party of the channel ignores what is not sent on it. -/
theorem perform_foreign
    (agrees : channel.Agrees parties whole alone) (node : ν) {entry : π × μ}
    (foreign : channel.foreign entry.2) (reading : δ) :
    whole.perform behaviour (channel.seat node)
        (.arrival entry.1 entry.2 reading) =
      (some ⟨channel.seat node, .arrival entry.1 entry.2 reading,
        channel.silent⟩, whole) := by
  unfold perform
  rw [channel.ignores node _ entry.1 entry.2 reading
    (agrees.valid (channel.seat node)) foreign]
  simp [channel.emits_silent]

/-- Strangers send on the channel as well. -/
theorem inject
    (agrees : channel.Agrees parties whole alone) {sender : π}
    (stranger : sender ∉ parties) (message : μ) :
    channel.Agrees parties
      { whole with sent := whole.sent ++ [(sender, message)] }
      { alone with
        sent := alone.sent ++ [(channel.name sender, message)] } where
  states := agrees.states
  sent := by
    rw [carried_append, agrees.sent]
    simp [carried, carries, stranger]
  valid := agrees.valid
  foreign := fun entry member silent => by
    rcases List.mem_append.mp member with earlier | new
    · exact agrees.foreign entry earlier silent
    · obtain rfl := List.mem_singleton.mp new
      simp [carries, stranger] at silent

/-- A party of the channel shows the same. -/
theorem shows_perform [DecidableEq ν] {ρ : Type*} (watch : ω → List ρ)
    (agrees : channel.Agrees parties whole alone) (watched node : ν)
    (input : Input π μ κ δ) :
    shows watch (channel.seat watched)
        (whole.perform behaviour (channel.seat node) input).1 =
      shows watch watched
        (alone.perform part node (input.rename channel.name)).1 := by
  have sameSeat : channel.seat node = channel.seat watched ↔ node = watched :=
    ⟨fun same => by
      rw [← channel.name_seat node, same, channel.name_seat],
      congrArg channel.seat⟩
  simp only [perform, shows, sameSeat, agrees.states, channel.step_seat]

/-- The channel alone follows an action that concerns it. -/
theorem follows [DecidableEq ν] {ρ : Type*} (watch : ω → List ρ)
    (agrees : channel.Agrees parties whole alone) (watched : ν)
    {action : Action π μ κ δ}
    (orderly : Orderly channel.name parties action)
    {selected : Action ν μ κ δ}
    (selects : channel.select parties whole action = some selected) :
    shows watch (channel.seat watched)
        (whole.act behaviour parties action).1 =
        shows watch watched
          (alone.act part (parties.image channel.name) selected).1 ∧
      channel.Agrees parties (whole.act behaviour parties action).2
        (alone.act part (parties.image channel.name) selected).2 := by
  cases action with
  | command party command =>
      rw [select, Option.ite_none_right_eq_some] at selects
      obtain ⟨own, same⟩ := selects
      obtain rfl := Option.some.inj same
      rw [← own, channel.name_seat]
      exact ⟨agrees.shows_perform watch watched _ _,
        agrees.perform_seat _ (.command command)⟩
  | deliver party index reading =>
      rw [select, Option.ite_none_right_eq_some] at selects
      obtain ⟨own, selects⟩ := selects
      split at selects
      case h_2 => cases selects
      case h_1 entry found =>
        rw [Option.ite_none_right_eq_some] at selects
        obtain ⟨isCarried, same⟩ := selects
        obtain rfl := Option.some.inj same
        have foundAlone : alone.sent[(whole.sent.take index).countP
            (channel.carries parties)]? =
              some (channel.name entry.1, entry.2) := by
          rw [agrees.sent, carried, List.getElem?_map,
            getElem?_filter_of_passes found isCarried]
          rfl
        rw [act, act, found, foundAlone, ← own, channel.name_seat]
        exact ⟨agrees.shows_perform watch watched _
            (.arrival entry.1 entry.2 reading),
          agrees.perform_seat _ (.arrival entry.1 entry.2 reading)⟩
  | inject sender message =>
      obtain rfl := Option.some.inj selects
      have stranger : sender ∉ parties := fun isParty =>
        orderly sender isParty rfl
      have nameless : channel.name sender ∉ parties.image channel.name := by
        intro named
        obtain ⟨party, isParty, same⟩ := Finset.mem_image.mp named
        exact orderly party isParty same
      rw [act, act, if_neg stranger, if_neg nameless]
      exact ⟨rfl, agrees.inject stranger message⟩

/-- The channel alone rests at any other action, and nothing is shown. -/
theorem rests {ρ : Type*} (watch : ω → List ρ)
    (quiet : watch channel.silent = [])
    (agrees : channel.Agrees parties whole alone) (watched : ν)
    {action : Action π μ κ δ}
    (orderly : Orderly channel.name parties action)
    (selects : channel.select parties whole action = none) :
    shows watch (channel.seat watched)
        (whole.act behaviour parties action).1 = [] ∧
      channel.Agrees parties (whole.act behaviour parties action).2 alone := by
  have apart : ∀ {party}, channel.seat (channel.name party) ≠ party →
      party ≠ channel.seat watched := by
    rintro _ outside rfl
    exact outside (congrArg channel.seat (channel.name_seat watched))
  have others : ∀ {party} (input : Input π μ κ δ), party ∈ parties →
      channel.seat (channel.name party) ≠ party →
      shows watch (channel.seat watched)
          (whole.perform behaviour party input).1 = [] ∧
        channel.Agrees parties (whole.perform behaviour party input).2 alone :=
    fun input isParty outside =>
      ⟨if_neg (apart outside), agrees.perform_other isParty outside input⟩
  cases action with
  | command party command =>
      rw [select, ite_eq_right_iff] at selects
      exact others _ orderly fun own =>
        Option.some_ne_none _ (selects own)
  | deliver party index reading =>
      cases found : whole.sent[index]? with
      | none =>
          rw [act, found]
          exact ⟨rfl, agrees⟩
      | some entry =>
          rw [act, found]
          by_cases own : channel.seat (channel.name party) = party
          · rw [select, if_pos own, found] at selects
            dsimp only at selects
            rw [ite_eq_right_iff] at selects
            have silent : channel.carries parties entry = false :=
              Bool.eq_false_of_not_eq_true fun isCarried =>
                Option.some_ne_none _ (selects isCarried)
            have foreign := agrees.foreign entry
              (List.mem_of_getElem? found) silent
            rw [← own]
            dsimp only
            rw [agrees.perform_foreign _ foreign reading]
            refine ⟨?_, agrees⟩
            rw [shows]
            split
            case isTrue => exact quiet
            case isFalse => rfl
          · exact others _ orderly own
  | inject sender message => cases selects

end Agrees

/-- Along every run the parties of a channel are where they would be on a
network of their own, and have shown the same. -/
theorem independent [DecidableEq ν] {ρ : Type*} (watch : ω → List ρ)
    (quiet : watch channel.silent = []) {start : π → σ}
    (valid : ∀ party, channel.valid party (start party))
    {actions : List (Action π μ κ δ)}
    (orderly : ∀ action ∈ actions, Orderly channel.name parties action)
    (watched : ν) :
    let whole : Mesh π σ μ := { states := start, sent := [] }
    let alone : Mesh ν σ μ :=
      { states := fun node => start (channel.seat node), sent := [] }
    ((history (channel.seat watched)
        (Transducer.outputs (act behaviour parties) whole actions)).map
          Prod.snd).flatMap watch =
        ((history watched
          (Transducer.outputs (act part (parties.image channel.name)) alone
            (channel.actions parties whole actions))).map
              Prod.snd).flatMap watch ∧
      (Transducer.final (act behaviour parties) whole actions).states
          (channel.seat watched) =
        (Transducer.final (act part (parties.image channel.name)) alone
          (channel.actions parties whole actions)).states watched := by
  intro whole alone
  have agrees : channel.Agrees parties whole alone :=
    { states := fun _ => rfl
      sent := rfl
      valid := valid
      foreign := fun _ member => by cases member }
  obtain ⟨same, agreesLast⟩ := Transducer.simulation (channel.select parties)
    (shows watch (channel.seat watched)) (shows watch watched)
    (channel.Agrees parties) agrees
    (fun action member _ _ _ agreesNow selects =>
      agreesNow.follows watch watched (orderly action member) selects)
    fun action member _ _ agreesNow selects =>
      agreesNow.rests watch quiet watched (orderly action member) selects
  rw [flatMap_shows, flatMap_shows] at same
  exact ⟨same, (agreesLast.states watched).symm⟩

end Channel
end Mesh
