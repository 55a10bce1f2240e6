import CeMeet.Foundation.Transducer
import Mathlib.Data.Finset.Basic
import Mathlib.Logic.Function.Basic

/-!
# Parties on an unreliable network

Any number of parties, each a machine of its own, share a network that keeps
whatever was sent and delivers any of it to anybody, at any time, any number of
times or never.  Strangers send what they like under names that are not a
party's.  In every run a party does what its machine does on the party's own
inputs, and whatever arrives under the name of a party was sent by it.
-/

universe u v w

/-- Parties with everything sent so far. -/
structure Mesh (π : Type u) (σ : Type v) (μ : Type w) where
  /-- The state of each party. -/
  states : π → σ
  /-- What was sent, under the name of its sender. -/
  sent : List (π × μ)

namespace Mesh

/-- What happens to a party: a command of its user, or the arrival of a message
that the party takes in some way. -/
inductive Input (π μ κ δ : Type*)
  | command (command : κ)
  | arrival (sender : π) (message : μ) (reading : δ)

/-- What happens on the network. -/
inductive Action (π μ κ δ : Type*)
  | command (party : π) (command : κ)
  | deliver (party : π) (index : Nat) (reading : δ)
  | inject (sender : π) (message : μ)

/-- The machine of each party, and the message that an output sends. -/
structure Behaviour (π σ μ κ δ ω : Type*) where
  /-- One step of a party. -/
  step : π → σ → Input π μ κ δ → ω × σ
  /-- The message sent with an output. -/
  emits : ω → Option μ

/-- What a party did. -/
structure Record (π μ κ δ ω : Type*) where
  /-- The party. -/
  party : π
  /-- Its input. -/
  input : Input π μ κ δ
  /-- Its output. -/
  output : ω

variable {π σ μ κ δ ω : Type*} [DecidableEq π]
  (behaviour : Behaviour π σ μ κ δ ω) (parties : Finset π)

/-- A party takes an input. -/
def perform (mesh : Mesh π σ μ) (party : π) (input : Input π μ κ δ) :
    Option (Record π μ κ δ ω) × Mesh π σ μ :=
  let (output, state) := behaviour.step party (mesh.states party) input
  (some { party, input, output },
    { states := Function.update mesh.states party state
      sent := mesh.sent ++
        (behaviour.emits output).toList.map fun message => (party, message) })

/-- Perform one action.  Nothing is injected under the name of a party. -/
def act (mesh : Mesh π σ μ) :
    Action π μ κ δ → Option (Record π μ κ δ ω) × Mesh π σ μ
  | .command party command => mesh.perform behaviour party (.command command)
  | .deliver party index reading =>
      match mesh.sent[index]? with
      | some (sender, message) =>
          mesh.perform behaviour party (.arrival sender message reading)
      | none => (none, mesh)
  | .inject sender message =>
      if sender ∈ parties then (none, mesh)
      else (none, { mesh with sent := mesh.sent ++ [(sender, message)] })

/-- The inputs of a party with the outputs to them. -/
def history (party : π) (records : List (Option (Record π μ κ δ ω))) :
    List (Input π μ κ δ × ω) :=
  records.filterMap fun
    | some record =>
        if record.party = party then some (record.input, record.output)
        else none
    | none => none

/-- What was sent under a name. -/
def sentBy (party : π) (sent : List (π × μ)) : List μ :=
  sent.filterMap fun entry => if entry.1 = party then some entry.2 else none

/-- What a party has sent along its history. -/
def emitted (history : List (Input π μ κ δ × ω)) : List μ :=
  history.filterMap fun entry => behaviour.emits entry.2

/-- What a run from a network on which nothing was sent amounts to for a
party and for the network. -/
structure Traced (start : π → σ) (records : List (Option (Record π μ κ δ ω)))
    (mesh : Mesh π σ μ) : Prop where
  /-- Every party has done what its machine does on its inputs. -/
  outputs : ∀ party,
    (history party records).map Prod.snd =
      Transducer.outputs (behaviour.step party) (start party)
        ((history party records).map Prod.fst)
  /-- Every party is where its machine is. -/
  state : ∀ party,
    mesh.states party =
      Transducer.final (behaviour.step party) (start party)
        ((history party records).map Prod.fst)
  /-- What was sent under the name of a party was sent by it. -/
  sent : ∀ party ∈ parties,
    sentBy party mesh.sent = emitted behaviour (history party records)
  /-- What arrived was sent. -/
  arrived : ∀ party sender message reading output,
    (Input.arrival sender message reading, output) ∈ history party records →
    (sender, message) ∈ mesh.sent

variable {behaviour parties}

theorem mem_sentBy_iff {party : π} {sent : List (π × μ)} {message : μ} :
    message ∈ sentBy party sent ↔ (party, message) ∈ sent := by
  rw [sentBy, List.mem_filterMap]
  constructor
  · rintro ⟨⟨sender, other⟩, member, same⟩
    rw [Option.ite_none_right_eq_some] at same
    obtain ⟨rfl, same⟩ := same
    cases same
    exact member
  · exact fun member => ⟨_, member, if_pos rfl⟩

theorem sentBy_append (party : π) (done rest : List (π × μ)) :
    sentBy party (done ++ rest) = sentBy party done ++ sentBy party rest :=
  List.filterMap_append

theorem sentBy_own (party : π) (message : Option μ) :
    sentBy party (message.toList.map fun message => (party, message)) =
      message.toList := by
  cases message <;> simp [sentBy]

theorem sentBy_foreign {party other : π} (different : other ≠ party)
    (message : Option μ) :
    sentBy party (message.toList.map fun message => (other, message)) = [] := by
  cases message <;> simp [sentBy, different]

/-! ## Runs -/

theorem history_concat_own
    (records : List (Option (Record π μ κ δ ω))) (party : π)
    (input : Input π μ κ δ) (output : ω) :
    history party (records ++ [some ⟨party, input, output⟩]) =
      history party records ++ [(input, output)] := by
  simp [history]

theorem history_concat_foreign
    (records : List (Option (Record π μ κ δ ω))) {party : π}
    {record : Record π μ κ δ ω} (foreign : record.party ≠ party) :
    history party (records ++ [some record]) = history party records := by
  simp [history, foreign]

theorem history_concat_none
    (records : List (Option (Record π μ κ δ ω))) (party : π) :
    history party (records ++ [none]) = history party records := by
  simp [history]

omit [DecidableEq π] in
theorem emitted_concat
    (history : List (Input π μ κ δ × ω)) (input : Input π μ κ δ) (output : ω) :
    emitted behaviour (history ++ [(input, output)]) =
      emitted behaviour history ++ (behaviour.emits output).toList := by
  rw [emitted, List.filterMap_append]
  cases emits : behaviour.emits output <;> simp [emitted, emits]

namespace Traced

variable {start : π → σ} {records : List (Option (Record π μ κ δ ω))}
  {mesh : Mesh π σ μ}

/-- One more input of a party keeps the trace. -/
theorem perform
    (traced : Traced behaviour parties start
      records mesh)
    (party : π) (input : Input π μ κ δ)
    (inputSent : ∀ sender message reading,
      input = .arrival sender message reading → (sender, message) ∈ mesh.sent) :
    Traced behaviour parties start
      (records ++ [(mesh.perform behaviour party input).1])
      (mesh.perform behaviour party input).2 := by
  have here : ∀ other, other = party ∨ party ≠ other := fun other =>
    (eq_or_ne other party).imp id Ne.symm
  unfold Mesh.perform
  dsimp only
  refine
    { outputs := fun other => ?outputs
      state := fun other => ?state
      sent := fun other member => ?sent
      arrived := fun other sender message reading output => ?arrived }
  case outputs =>
    rcases here other with rfl | foreign
    · rw [history_concat_own, List.map_append, List.map_append,
        Transducer.outputs_append, ← traced.outputs, ← traced.state]
      rfl
    · rw [history_concat_foreign _ foreign]
      exact traced.outputs other
  case state =>
    rcases here other with rfl | foreign
    · rw [history_concat_own, List.map_append, Transducer.final_append,
        ← traced.state]
      exact Function.update_self ..
    · rw [history_concat_foreign _ foreign]
      exact (Function.update_of_ne (Ne.symm foreign) ..).trans
        (traced.state other)
  case sent =>
    rw [sentBy_append, traced.sent other member]
    rcases here other with rfl | foreign
    · rw [history_concat_own, sentBy_own, emitted_concat]
    · rw [history_concat_foreign _ foreign, sentBy_foreign foreign,
        List.append_nil]
  case arrived =>
    intro arrival
    refine List.mem_append_left _ ?_
    rcases here other with rfl | foreign
    · rw [history_concat_own, List.mem_append, List.mem_singleton] at arrival
      rcases arrival with earlier | now
      · exact traced.arrived _ _ _ _ _ earlier
      · exact inputSent sender message reading (congrArg Prod.fst now).symm
    · rw [history_concat_foreign _ foreign] at arrival
      exact traced.arrived _ _ _ _ _ arrival

/-- Doing nothing keeps the trace. -/
theorem idle
    (traced : Traced behaviour parties start
      records mesh) :
    Traced behaviour parties start
      (records ++ [none]) mesh where
  outputs := fun party => by
    rw [history_concat_none]
    exact traced.outputs party
  state := fun party => by
    rw [history_concat_none]
    exact traced.state party
  sent := fun party member => by
    rw [history_concat_none]
    exact traced.sent party member
  arrived := fun party sender message reading output => by
    rw [history_concat_none]
    exact traced.arrived party sender message reading output

/-- Strangers leave the trace alone. -/
theorem inject
    (traced : Traced behaviour parties start
      records mesh)
    {sender : π} (stranger : sender ∉ parties) (message : μ) :
    Traced behaviour parties start
      (records ++ [none])
      { mesh with sent := mesh.sent ++ [(sender, message)] } where
  outputs := traced.idle.outputs
  state := traced.idle.state
  sent := fun party member => by
    have foreign : sender ≠ party := by
      rintro rfl
      exact stranger member
    have silent := sentBy_foreign foreign (some message)
    rw [Option.toList_some, List.map_singleton] at silent
    rw [sentBy_append, silent, List.append_nil]
    exact traced.idle.sent party member
  arrived := fun party other sent reading output arrival =>
    List.mem_append_left _
      (traced.idle.arrived party other sent reading output arrival)

/-- One more action keeps the trace. -/
theorem act
    (traced : Traced behaviour parties start
      records mesh)
    (action : Action π μ κ δ) :
    Traced behaviour parties start
      (records ++ [(mesh.act behaviour parties action).1])
      (mesh.act behaviour parties action).2 := by
  cases action with
  | command party command =>
      exact traced.perform party (.command command)
        fun _ _ _ same => by cases same
  | deliver party index reading =>
      cases found : mesh.sent[index]? with
      | none =>
          simp only [Mesh.act, found]
          exact traced.idle
      | some entry =>
          simp only [Mesh.act, found]
          refine traced.perform party _ fun sender message taken same => ?_
          cases same
          exact List.mem_of_getElem? found
  | inject sender message =>
      by_cases ours : sender ∈ parties
      · simp only [Mesh.act, if_pos ours]
        exact traced.idle
      · simp only [Mesh.act, if_neg ours]
        exact traced.inject ours message

end Traced

variable (behaviour parties)

/-- Every run is traced. -/
theorem traced_run (start : π → σ) (actions : List (Action π μ κ δ)) :
    Traced behaviour parties start
      (Transducer.outputs (act behaviour parties) { states := start, sent := [] }
        actions)
      (Transducer.final (act behaviour parties) { states := start, sent := [] }
        actions) := by
  refine Transducer.history_induction
    (motive := fun _ records mesh =>
      Traced behaviour parties start records mesh)
    actions ?_ fun _ action _ _ traced => traced.act action
  exact
    { outputs := fun _ => rfl
      state := fun _ => rfl
      sent := fun _ _ => rfl
      arrived := fun _ _ _ _ _ arrival => by cases arrival }

end Mesh
