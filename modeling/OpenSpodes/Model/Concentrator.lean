import OpenSpodes.Model.ClientServices
import OpenSpodes.Model.MeterRegistry

/-! # Polling a meter

`osp_spodus_poll_meter` reads one attribute after the other with `osp_client_get` and copies each result into the
registry's cache. The copy is of the value itself; its items stay in the pool of the decoder, which all clients of the
program share. Beside the data stands a record that nothing reads: for each read, the responses it took, what it returned
and the pool at that moment.
-/

namespace OpenSpodes

open Machine

/-- One call of `osp_client_get` by a poll. -/
structure PollRead where
  key : CacheKey
  gbtEnabled : Bool
  /-- The responses that the call took. -/
  taken : List (List UInt8)
  returned : Err × Value
  memory : Pool

/-- What a poll works on. -/
structure Poller where
  client : Client
  registry : MeterRegistry
  reads : List PollRead

/-- A call of `osp_spodus_poll_meter`. -/
structure Poll where
  hal : Hal
  stale : List UInt8
  client : Client
  meter : MeterId
  attributes : List Descriptor
  /-- What the response structure and the result hold on the stack before the read of an attribute. -/
  residue : ℕ → GetReply × Value
  rounds : ℕ

namespace Poll

/-- Where the value of an attribute is cached; the class does not count. -/
def key (poll : Poll) (attr : Descriptor) : CacheKey := ⟨poll.meter, attr.instanceId, attr.id⟩

/-- The record of a read between two states of the client. -/
def record (poll : Poll) (attr : Descriptor) (c : Client) (returned : Err × Value) (after : Client) : PollRead where
  key := poll.key attr
  gbtEnabled := c.gbtEnabled
  taken := after.responses.drop c.responses.length
  returned := returned
  memory := after.pool

/-- The read of an attribute. -/
def read (poll : Poll) (i : ℕ) (attr : Descriptor) : Program Poller (Err × Value) := do
  let c := (← get).client
  let returned ← zoom Poller.client (fun p c => { p with client := c })
    (clientGet (Port.alone poll.hal poll.stale) (poll.residue i).1 poll.rounds attr (poll.residue i).2)
  modify fun p => { p with reads := p.reads ++ [poll.record attr c returned p.client] }
  return returned

/-- The loop of `osp_spodus_poll_meter`: the number of values that were read and stored. -/
def run (poll : Poll) : ℕ → List Descriptor → Program Poller ℕ
  | _, [] => return 0
  | i, attr :: attributes => do
      let (err, value) ← poll.read i attr
      if err = .ok then
        let (stored, registry) := (← get).registry.store (poll.key attr) value
        modify fun p => { p with registry := registry }
        let read ← run poll (i + 1) attributes
        return if stored = .ok then read + 1 else read
      else run poll (i + 1) attributes

end Poll

/-- The registry of a concentrator and the pool of its program. -/
structure Concentrator where
  registry : MeterRegistry
  pool : Pool

/-- A poll, with its reads, from one state to another; its client may be in any state. -/
def Concentrator.Polls (before : Concentrator) (polled : Poll × List PollRead) (after : Concentrator) : Prop :=
  ∃ count p, polled.1.run 0 polled.1.attributes
      ⟨{ polled.1.client with pool := before.pool }, before.registry, []⟩ = some (count, p) ∧
    polled.2 = p.reads ∧ after = ⟨p.registry, p.client.pool⟩

end OpenSpodes
