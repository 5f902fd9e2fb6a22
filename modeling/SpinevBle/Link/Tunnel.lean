import SpinevBle.Charger.Machine
import SpinevBle.Transports.Ocpp

/-!
# The client over the tunnel

One client, its `OcppTunnelTransport` and a `data_transfer` that ends as it likes. An event here is
one of the caller, of the connection or of a call of `data_transfer`, and what it makes the client
do is a list of events of the client alone.
-/

namespace SpinevBle

open Asyncio Interaction Transition

variable {β : Type}

/-! ### State -/

/-- Both callbacks of the transport are those of the client. -/
structure Tunnel (β : Type) where
  client : State β
  transport : Ocpp.Transport Unit Unit

def Tunnel.init (β : Type) (password : Option ℤ) : Tunnel β :=
  ⟨State.init β (some Ocpp.timeoutHint) password, .init⟩

/-- `call` is an event of a call: it is made, resumed, cancelled or runs into a deadline. The other
events are those of the connection and of the sends. -/
inductive TunnelEvent (β : Type)
  | call (e : Event β)
  | connect
  | disconnect
  | notifyDisconnected
  | sendStart (i : ℕ)
  | sendUnwind (i : ℕ)
  | transferEnd (i : ℕ) (e : Ocpp.TransferEnd)

/-- How a task ends that raises the exception. -/
def raisedOutcome : Exc → Outcome Exc
  | .cancelledError => .cancelled
  | err => .raised err

namespace Tunnel

/-- The client connects a transport that is not connected only. -/
def nextTransport (s : Tunnel β) : TunnelEvent β → Ocpp.Transport Unit Unit
  | .connect => if s.transport.isConnected then s.transport else s.transport.asyncConnect () ()
  | .disconnect => s.transport.asyncDisconnect
  | .notifyDisconnected => s.transport.notifyDisconnected.1
  | _ => s.transport

/-- What the client goes through. A send that raises before it calls `data_transfer` ends with its
first step, and a payload is handed over in the last step of its send. -/
def clientEvents (s : Tunnel β) : TunnelEvent β → Option (List (Event β))
  | .call e => if e.call.isSome then some [e] else none
  | .connect => some [.link true]
  | .disconnect => some [.link false]
  | .notifyDisconnected =>
    match s.transport.notifyDisconnected.2 with
    | some () => some [.link false, .disconnect]
    | none => some [.link false]
  | .sendStart i => do
    let task ← s.client.sendTasks i
    match s.transport.request task.frame.bytes with
    | .ok _ => some [.sendStart i]
    | .error err => some [.sendStart i, .sendEnd i (raisedOutcome err)]
  | .sendUnwind i => some [.sendUnwind i]
  | .transferEnd i e => do
    let task ← s.client.sendTasks i
    match Ocpp.reply task.frame.register e with
    | .error err => some [.sendEnd i (raisedOutcome err)]
    | .ok none => some [.sendEnd i .returned]
    | .ok (some payload) =>
      match s.transport.onFrame with
      | some () => some [.notify payload, .sendEnd i .returned]
      | none => some [.sendEnd i .returned]

def step (s : Tunnel β) (e : TunnelEvent β) : Option (Tunnel β) := do
  let client ← (← s.clientEvents e).foldlM State.step s.client
  return ⟨client, s.nextTransport e⟩

end Tunnel

def tunnel (β : Type) (password : Option ℤ) : System (Tunnel β) (TunnelEvent β) :=
  ⟨Tunnel.init β password, Tunnel.step⟩

/-- The runs of a new client over a new tunnel. -/
abbrev TunnelRun (password : Option ℤ) (P : Tunnel β → TunnelEvent β → Prop)
    (es : List (TunnelEvent β)) (s : Tunnel β) : Prop :=
  Run (tunnel β password) P (Tunnel.init β password) es s

/-! ### The client of the tunnel -/

section

variable {timeoutHint : Option String} {password : Option ℤ} {s t : Tunnel β} {e : TunnelEvent β}

/-- Every call that is made over the tunnel is made on the client. -/
lemma client_of_tunnel {P : Tunnel β → TunnelEvent β → Prop} {Q : State β → Event β → Prop}
    {es : List (TunnelEvent β)}
    (hQ : ∀ (u : Tunnel β) e v es', P u e → u.clientEvents e = some es' →
      Run (machine β timeoutHint password) Always u.client es' v →
      Run (machine β timeoutHint password) Q u.client es' v)
    (h : Run (tunnel β password) P s es t) :
    ∃ es', Run (machine β timeoutHint password) Q s.client es' t.client ∧
      ∀ e, .call e ∈ es → e.call.isSome = true → e ∈ es' := by
  induction h with
  | nil s => exact ⟨[], .nil _, by simp⟩
  | @cons s u t e es hP hst _ ih =>
    obtain ⟨es₂, h₂, hmem⟩ := ih
    simp only [tunnel, Tunnel.step, Option.bind_eq_bind, Option.bind_eq_some_iff,
      Option.some.injEq, Option.pure_def] at hst
    obtain ⟨es₁, hes, client, hclient, rfl⟩ := hst
    have h₁ := hQ s e client es₁ hP hes (Run.of_foldlM hclient)
    refine ⟨es₁ ++ es₂, h₁.append h₂, fun e' he' hsome => ?_⟩
    rw [List.mem_append]
    rcases List.mem_cons.1 he' with rfl | he'
    · simp only [Tunnel.clientEvents, hsome, if_true, Option.some.injEq] at hes
      exact .inl (by simp [← hes])
    · exact .inr (hmem e' he' hsome)

/-- What an event of the tunnel makes the client go through. -/
inductive Tunnel.Causes (s : Tunnel β) : TunnelEvent β → List (Event β) → Prop
  | call {e : Event β} (he : e.call.isSome = true) : Causes s (.call e) [e]
  | connect : Causes s .connect [.link true]
  | disconnect : Causes s .disconnect [.link false]
  | dropped : Causes s .notifyDisconnected [.link false, .disconnect]
  | closed : Causes s .notifyDisconnected [.link false]
  | sendStart {i} : Causes s (.sendStart i) [.sendStart i]
  | refused {i err} (he : err ≠ .cancelledError) :
      Causes s (.sendStart i) [.sendStart i, .sendEnd i (raisedOutcome err)]
  | sendUnwind {i} : Causes s (.sendUnwind i) [.sendUnwind i]
  | failed {i e err task} (ht : s.client.sendTasks i = some task)
      (hr : Ocpp.reply task.frame.register e = .error err) :
      Causes s (.transferEnd i e) [.sendEnd i (raisedOutcome err)]
  | silent {i e} : Causes s (.transferEnd i e) [.sendEnd i .returned]
  | handed {i e payload task} (ht : s.client.sendTasks i = some task)
      (hr : Ocpp.reply task.frame.register e = .ok (some payload)) :
      Causes s (.transferEnd i e) [.notify payload, .sendEnd i .returned]

lemma Tunnel.causes_of_clientEvents {es : List (Event β)} (h : s.clientEvents e = some es) :
    s.Causes e es := by
  cases e with
  | call e =>
    simp only [clientEvents, Option.ite_none_right_eq_some, Option.some.injEq] at h
    obtain ⟨he, rfl⟩ := h
    exact .call he
  | connect =>
    cases h
    exact .connect
  | disconnect =>
    cases h
    exact .disconnect
  | sendUnwind i =>
    cases h
    exact .sendUnwind
  | notifyDisconnected =>
    simp only [clientEvents] at h
    split at h <;> cases h
    · exact .dropped
    · exact .closed
  | sendStart i =>
    simp only [clientEvents, Option.bind_eq_bind, Option.bind_eq_some_iff] at h
    obtain ⟨task, -, h⟩ := h
    split at h
    · cases h
      exact .sendStart
    · next err herr =>
      cases h
      refine .refused ?_
      rintro rfl
      exact Ocpp.request_ne_cancelledError _ _ herr
  | transferEnd i e =>
    simp only [clientEvents, Option.bind_eq_bind, Option.bind_eq_some_iff] at h
    obtain ⟨task, ht, h⟩ := h
    split at h
    · next hr =>
      cases h
      exact .failed ht hr
    · cases h
      exact .silent
    · next hr =>
      split at h <;> cases h
      · exact .handed ht hr
      · exact .silent

end

end SpinevBle
