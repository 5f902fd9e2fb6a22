import SpinevBle.Charger.Drop
import SpinevBle.Link.FromBelow
import SpinevBle.Link.Script
import SpinevBle.Transports.Listening

/-!
# The client over Bluetooth

One client, its `BleTransport`, the links of that transport and writes that end as they like. Both
callbacks of the transport are those of the client, which learns of a link by its payloads, by the
end that it is told of, and by asking whether the transport is connected.
-/

namespace SpinevBle

open Asyncio Interaction Transition

variable {β : Type}

/-! ### Sends -/

namespace Ble

def timeoutHint : String :=
  "Another Bluetooth client, such as the phone app, may be holding the connection."

/-- `async_send`, up to its only await. -/
def State.startSend (s : State) : Except Exc Unit :=
  if s.isConnected then .ok () else .error notConnected

/-- What `async_send` makes of the end of `write_gatt_char`. -/
def endSend : Except Exc Unit → Except Exc Unit
  | .ok () => .ok ()
  | .error .cancelledError => .error .cancelledError
  | .error err => .error (.spinEv .connection s!"write failed: {err.message}")

end Ble

/-- How a task ends that returns or raises. -/
def outcomeOf : Except Exc Unit → Outcome Exc
  | .ok () => .returned
  | .error err => raisedOutcome err

/-! ### State -/

structure Bluetooth (β : Type) where
  client : State β
  transport : Ble.State

def Bluetooth.init (β : Type) (password : Option ℤ) : Bluetooth β :=
  ⟨State.init β (some Ble.timeoutHint) password, .init⟩

/-- `call` is an event of a call, `transport` one of the transport and its links, and the others are
those of the sends, where `writeEnd` is the end of `write_gatt_char`. -/
inductive BluetoothEvent (β : Type)
  | call (e : Event β)
  | transport (e : Ble.Event)
  | sendStart (i : ℕ)
  | sendUnwind (i : ℕ)
  | writeEnd (i : ℕ) (r : Except Exc Unit)

namespace Bluetooth

/-- The callback that an event of the transport leads to. -/
def callbacks (s : Ble.State) : Ble.Event → List (Event β)
  | .notify _ payload => if s.onFrame.isSome then [.notify payload] else []
  | .callback _ => if s.onDisconnect.isSome then [.disconnect] else []
  | _ => []

lemma mem_callbacks {s : Ble.State} {e : Ble.Event} {e' : Event β} (h : e' ∈ callbacks s e) :
    (∃ payload, e' = .notify payload) ∨ e' = .disconnect := by
  unfold callbacks at h
  split at h
  · split_ifs at h
    · exact .inl ⟨_, List.mem_singleton.1 h⟩
    · cases h
  · split_ifs at h
    · exact .inr (List.mem_singleton.1 h)
    · cases h
  · cases h

/-- What the client goes through. A send that raises at once ends with its first step. -/
def clientEvents (s : Bluetooth β) : BluetoothEvent β → Option (List (Event β))
  | .call e => if e.call.isSome then some [e] else none
  | .transport e => do
    let t ← s.transport.step e
    return callbacks s.transport e ++ [.link t.isConnected]
  | .sendStart i =>
    match s.transport.startSend with
    | .ok () => some [.sendStart i]
    | .error err => some [.sendStart i, .sendEnd i (raisedOutcome err)]
  | .sendUnwind i => some [.sendUnwind i]
  | .writeEnd i r => some [.sendEnd i (outcomeOf (Ble.endSend r))]

def nextTransport (s : Bluetooth β) : BluetoothEvent β → Option Ble.State
  | .transport e => s.transport.step e
  | _ => some s.transport

def step (s : Bluetooth β) (e : BluetoothEvent β) : Option (Bluetooth β) := do
  let client ← (← s.clientEvents e).foldlM State.step s.client
  return ⟨client, ← s.nextTransport e⟩

end Bluetooth

def bluetooth (β : Type) (password : Option ℤ) : System (Bluetooth β) (BluetoothEvent β) :=
  ⟨Bluetooth.init β password, Bluetooth.step⟩

/-- The runs of a new client over a new transport. -/
abbrev BluetoothRun (password : Option ℤ) (P : Bluetooth β → BluetoothEvent β → Prop)
    (es : List (BluetoothEvent β)) (s : Bluetooth β) : Prop :=
  Run (bluetooth β password) P (Bluetooth.init β password) es s

/-! ### Transitions -/

/-- What an event makes the client go through, and the transport after it. -/
inductive Bluetooth.Moves (s : Bluetooth β) :
    BluetoothEvent β → List (Event β) → Ble.State → Prop
  | call {e : Event β} (he : e.call.isSome = true) : Moves s (.call e) [e] s.transport
  | transport {e t} (ht : s.transport.step e = some t) :
      Moves s (.transport e) (callbacks s.transport e ++ [.link t.isConnected]) t
  | sendStart {i} (hu : s.transport.isConnected = true) :
      Moves s (.sendStart i) [.sendStart i] s.transport
  | refused {i} (hu : s.transport.isConnected = false) :
      Moves s (.sendStart i) [.sendStart i, .sendEnd i (.raised notConnected)] s.transport
  | sendUnwind {i} : Moves s (.sendUnwind i) [.sendUnwind i] s.transport
  | writeEnd {i r} :
      Moves s (.writeEnd i r) [.sendEnd i (outcomeOf (Ble.endSend r))] s.transport

section

variable {timeoutHint : Option String} {password : Option ℤ} {s t : Bluetooth β}
  {e : BluetoothEvent β}

lemma Bluetooth.moves_of_step (h : s.step e = some t) :
    ∃ es client transport, t = ⟨client, transport⟩ ∧ s.Moves e es transport ∧
      es.foldlM State.step s.client = some client := by
  simp only [step, Option.bind_eq_bind, Option.bind_eq_some_iff, Option.pure_def,
    Option.some.injEq] at h
  obtain ⟨es, hes, client, hclient, transport, htransport, rfl⟩ := h
  refine ⟨es, client, transport, rfl, ?_, hclient⟩
  cases e with
  | call e =>
    simp only [clientEvents, Option.ite_none_right_eq_some, Option.some.injEq] at hes
    obtain ⟨he, rfl⟩ := hes
    cases htransport
    exact .call he
  | transport e =>
    simp only [clientEvents, Option.bind_eq_bind, Option.bind_eq_some_iff, Option.pure_def,
      Option.some.injEq] at hes
    obtain ⟨t, ht, rfl⟩ := hes
    obtain rfl := Option.some.inj (ht.symm.trans htransport)
    exact .transport ht
  | sendStart i =>
    simp only [clientEvents, Ble.State.startSend] at hes
    cases htransport
    cases hu : s.transport.isConnected <;> rw [hu] at hes <;> cases hes
    · exact .refused hu
    · exact .sendStart hu
  | sendUnwind i =>
    cases hes
    cases htransport
    exact .sendUnwind
  | writeEnd i r =>
    cases hes
    cases htransport
    exact .writeEnd

/-- Every call that is made over Bluetooth is made on the client. -/
lemma client_of_bluetooth {P : Bluetooth β → BluetoothEvent β → Prop}
    {Q : State β → Event β → Prop} {es : List (BluetoothEvent β)}
    (hQ : ∀ (u : Bluetooth β) e es' t' v, P u e → u.Moves e es' t' →
      Run (machine β timeoutHint password) Always u.client es' v →
      Run (machine β timeoutHint password) Q u.client es' v)
    (h : Run (bluetooth β password) P s es t) :
    ∃ es', Run (machine β timeoutHint password) Q s.client es' t.client ∧
      ∀ e, .call e ∈ es → e ∈ es' := by
  induction h with
  | nil s => exact ⟨[], .nil _, by simp⟩
  | @cons s u t e es hP hst _ ih =>
    obtain ⟨es₂, h₂, hmem⟩ := ih
    obtain ⟨es₁, client, transport, rfl, hmoves, h₁⟩ := Bluetooth.moves_of_step hst
    have h₁ := hQ _ _ _ _ _ hP hmoves (Run.of_foldlM h₁)
    refine ⟨es₁ ++ es₂, h₁.append h₂, fun e' he' => ?_⟩
    rw [List.mem_append]
    rcases List.mem_cons.1 he' with rfl | he'
    · cases hmoves with
      | call he => exact .inl (.head _)
    · exact .inr (hmem e' he')

/-- The transport goes through its own events. -/
lemma transport_of_bluetooth {P : Bluetooth β → BluetoothEvent β → Prop}
    {Q : Ble.State → Ble.Event → Prop} {es : List (BluetoothEvent β)}
    (hQ : ∀ (u : Bluetooth β) e, P u (.transport e) → Q u.transport e)
    (h : Run (bluetooth β password) P s es t) :
    ∃ es', Run Ble.machine Q s.transport es' t.transport := by
  induction h with
  | nil s => exact ⟨[], .nil _⟩
  | @cons s u t e es hP hst _ ih =>
    obtain ⟨es₂, h₂⟩ := ih
    obtain ⟨es₁, client, transport, rfl, hmoves, -⟩ := Bluetooth.moves_of_step hst
    cases hmoves with
    | call | sendStart | refused | sendUnwind | writeEnd => exact ⟨es₂, h₂⟩
    | transport ht => exact ⟨_, .cons (hQ _ _ hP) ht h₂⟩

/-! ### Invariants of both -/

lemma consistent_of_bluetooth {P : Bluetooth β → BluetoothEvent β → Prop}
    {es : List (BluetoothEvent β)} (h : BluetoothRun password P es s) : s.client.Consistent := by
  obtain ⟨es', hrun, -⟩ : ∃ es', ClientRun (some Ble.timeoutHint) password Always es' s.client ∧
      ∀ e, .call e ∈ es → e ∈ es' := client_of_bluetooth (fun _ _ _ _ _ _ _ hrun => hrun) h
  exact State.consistent_of_run hrun

/-- Steps that are not told of the link do not change what the client knows of it. -/
lemma connected_of_run {es : List (Event β)} {u v : State β}
    (h : Run (machine β timeoutHint password) Always u es v) (he : ∀ up, .link up ∉ es) :
    v.connected = u.connected := by
  induction h with
  | nil => rfl
  | cons _ hst _ ih =>
    have hfirst := (Step.of_step hst).connected fun up hup => he up (hup ▸ .head _)
    exact (ih fun up hup => he up (.tail _ hup)).trans hfirst

/-- The client is connected exactly while the transport is. -/
lemma connected_of_bluetooth {P : Bluetooth β → BluetoothEvent β → Prop}
    {es : List (BluetoothEvent β)} (h : BluetoothRun password P es s) :
    s.client.connected = s.transport.isConnected := by
  have hstep : ∀ u e v, u.client.connected = u.transport.isConnected → P u e →
      (bluetooth β password).step u e = some v → v.client.connected = v.transport.isConnected := by
    intro u e v hu _ hst
    obtain ⟨es', client, transport, rfl, hmoves, hrun⟩ := Bluetooth.moves_of_step hst
    have hrun : Run (machine β none none) Always u.client es' client := Run.of_foldlM hrun
    cases hmoves with
    | @call e he =>
      refine (connected_of_run hrun fun up hup => ?_).trans hu
      obtain rfl := List.mem_singleton.1 hup
      cases he
    | sendStart | refused | sendUnwind | writeEnd =>
      exact (connected_of_run hrun (by simp)).trans hu
    | transport ht =>
      obtain ⟨w, -, hlast⟩ := hrun.of_append
      cases hlast with
      | cons _ hst hnil =>
        cases hst
        cases hnil
        rfl
  exact h.invariant hstep rfl

/-! ### Replies -/

/-- A payload reaches the client from a link that is up, and nothing else happens to the client
before that. -/
lemma Bluetooth.Moves.of_notify {es : List (Event β)} {tr : Ble.State} {payload : Bytes}
    (h : s.Moves e es tr) (hmem : .notify payload ∈ es) :
    ∃ k up, e = .transport (.notify k payload) ∧ es = [.notify payload, .link up] ∧
      s.transport.isUp k = true := by
  cases h with
  | @call e he =>
    obtain rfl := List.mem_singleton.1 hmem
    cases he
  | sendStart | refused | sendUnwind | writeEnd => simp at hmem
  | @transport e t ht =>
    simp only [List.mem_append, List.mem_singleton, reduceCtorEq, or_false] at hmem
    cases e with
    | notify k payload' =>
      simp only [callbacks] at hmem ⊢
      split_ifs at hmem ⊢ with hf
      · obtain rfl : payload = payload' := by simpa using hmem
        simp only [Ble.State.step, Option.ite_none_right_eq_some] at ht
        exact ⟨k, _, rfl, rfl, ht.1⟩
      · cases hmem
    | callback k =>
      simp only [callbacks] at hmem
      split_ifs at hmem <;> simp at hmem
    | connect | disconnect | returned | raised | shut | drop => cases hmem

/-- A request that has its reply got it from a link that was up, while it waited for it. -/
lemma notified_of_resolved {P : Bluetooth β → BluetoothEvent β → Prop}
    {es : List (BluetoothEvent β)} (h : BluetoothRun password P es s) {c : ℕ} {frame : Frame}
    {register : UInt8} {i : ℕ} {payload : Bytes}
    (hr : s.client.Requesting c frame register i) (hf : s.client.futures i = .result payload) :
    ∃ es₁ es₂ v k, es = es₁ ++ .transport (.notify k payload) :: es₂ ∧
      BluetoothRun password P es₁ v ∧ v.transport.isUp k = true ∧
      v.client.Requesting c frame register i ∧ v.client.futures i = .pending ∧
      Answers payload register frame.flag := by
  obtain ⟨es₁, e, es₂, v, w, rfl, h₁, hv, hP, hst, hw, h₂⟩ := h.exists_step
    (fun u => u.client.futures i = .result payload) (by simp [Bluetooth.init, State.init]) hf
  have hvc := consistent_of_bluetooth h₁
  obtain ⟨es', client, transport, rfl, hmoves, hrun⟩ := Bluetooth.moves_of_step hst
  have hrun : Run (machine β none none) Always v.client es' client := Run.of_foldlM hrun
  -- the payload is among what the client goes through, so it is the first of it
  have hmem : .notify payload ∈ es' := by
    obtain ⟨fs₁, e', fs₂, u, u', rfl, -, hu, -, hst', hu', -⟩ :=
      hrun.exists_step (fun u => u.futures i = .result payload) hv hw
    have hc := (Step.of_step hst').futures_cases i
    rw [hu'] at hc
    cases hc with
    | same hf' => exact absurd hf'.symm hu
    | answer => exact List.mem_append_right _ (.head _)
  obtain ⟨k, up, rfl, rfl, hup⟩ := hmoves.of_notify hmem
  cases hrun with
  | @cons _ u _ _ _ _ hnotify hlink =>
    have hclient : client.futures i = u.futures i := by
      cases hlink with
      | cons _ hst' hnil =>
        cases hst'
        cases hnil
        rfl
    have hnotify : Step v.client (.notify payload) u := Step.of_step hnotify
    have hc := hnotify.futures_cases i
    rw [← hclient, hw] at hc
    cases hc with
    | same hf' => exact absurd hf'.symm hv
    | answer ha hlookup hi hp =>
      obtain ⟨c', frame', k', n, fl, hl, rfl⟩ := hvc.lookup hlookup
      obtain ⟨kq, nq, fq, hlq, hid⟩ := hr
      obtain ⟨fs, hrest, -⟩ : ∃ fs, Run (machine β none password) Always v.client fs s.client ∧
          ∀ e, .call e ∈ .transport (.notify k payload) :: es₂ → e ∈ fs :=
        client_of_bluetooth (fun _ _ _ _ _ _ _ hrun => hrun) (.cons hP hst h₂)
      have hsame := flight_stays hrest hvc hl hlq (hid.trans hi.symm)
      rw [hlq] at hsame
      cases hsame
      exact ⟨es₁, es₂, v, k, rfl, h₁, hup, ⟨_, _, _, hl, hi⟩, hp, ha⟩

/-- Every connect that stores a link finds its own callbacks in place. -/
def InPlace (s : Bluetooth β) : BluetoothEvent β → Prop
  | .transport e => Ble.CallbacksInPlace s.transport e
  | _ => True

instance (s : Bluetooth β) (e : BluetoothEvent β) : Decidable (InPlace s e) :=
  match e with
  | .transport e => inferInstanceAs (Decidable (Ble.CallbacksInPlace s.transport e))
  | .call _ | .sendStart _ | .sendUnwind _ | .writeEnd .. => .isTrue trivial

lemma listens_of_bluetooth {es : List (BluetoothEvent β)}
    (h : BluetoothRun password InPlace es s) : s.transport.Listens := by
  obtain ⟨es', hrun⟩ : ∃ es', Ble.BleRun Ble.CallbacksInPlace es' s.transport :=
    transport_of_bluetooth (fun _ _ hP => hP) h
  have hlistening : s.transport.Listening :=
    Ble.invariant_of_run (fun _ _ _ hs hu hP hst => hu.step hs hst hP) hrun .init
      fun k l hk => by cases hk
  exact hlistening.listens

/-- A reply that the link of a connected client brings goes to the request that waits for it. -/
lemma resolved_of_notified (hlistens : s.transport.Listens) (hcon : s.transport.isConnected = true)
    (hs : s.client.Consistent) :
    ∃ k, s.transport.client = some k ∧ ∀ c frame register i payload,
      s.client.Requesting c frame register i → s.client.futures i = .pending →
      Answers payload register frame.flag →
      ∃ s', s.step (.transport (.notify k payload)) = some s' ∧
        s'.client.Requesting c frame register i ∧ s'.client.futures i = .result payload := by
  obtain ⟨k, l, hclient, -, hframe, -, -⟩ := hlistens hcon
  have hup : s.transport.isUp k = true := by
    simpa [Ble.State.isConnected, hclient] using hcon
  refine ⟨k, hclient, fun c frame register i payload hr hf ha => ?_⟩
  obtain ⟨u, hu, hr', hf'⟩ := resolved_of_answers hr hs hf ha
  have ht : s.transport.step (.notify k payload) = some (s.transport.handleNotify payload) :=
    if_pos hup
  let up := (s.transport.handleNotify payload).isConnected
  have hevents : s.clientEvents (.transport (.notify k payload)) =
      some [.notify payload, .link up] := by
    simp [Bluetooth.clientEvents, Bluetooth.callbacks, ht, hframe, up]
  refine ⟨⟨{ u with connected := up }, s.transport.handleNotify payload⟩, ?_, hr', hf'⟩
  simp only [Bluetooth.step, hevents, Bluetooth.nextTransport, ht, List.foldlM_cons, hu,
    Option.bind_eq_bind, Option.bind_some]
  rfl

/-- What a request returns came over a link that was up, while the request waited for it, in every
run. A client that says it is connected is reached by the replies of its transport's link, in every
run in which a connect that stores a link finds its own callbacks in place. -/
theorem replies_over_bluetooth {P : Bluetooth β → BluetoothEvent β → Prop}
    {es : List (BluetoothEvent β)} (h : BluetoothRun password P es s) :
    (∀ c frame register i payload, s.client.Requesting c frame register i →
      s.client.futures i = .result payload →
      ∃ es₁ es₂ v k, es = es₁ ++ .transport (.notify k payload) :: es₂ ∧
        BluetoothRun password P es₁ v ∧ v.transport.isUp k = true ∧
        v.client.Requesting c frame register i ∧ v.client.futures i = .pending ∧
        Answers payload register frame.flag) ∧
    (BluetoothRun password InPlace es s → s.client.connected = true →
      ∃ k, s.transport.client = some k ∧ ∀ c frame register i payload,
        s.client.Requesting c frame register i → s.client.futures i = .pending →
        Answers payload register frame.flag →
        ∃ s', s.step (.transport (.notify k payload)) = some s' ∧
          s'.client.Requesting c frame register i ∧ s'.client.futures i = .result payload) := by
  refine ⟨fun _ _ _ _ _ hr hf => notified_of_resolved h hr hf, fun hplace hcon => ?_⟩
  rw [connected_of_bluetooth h] at hcon
  exact resolved_of_notified (listens_of_bluetooth hplace) hcon (consistent_of_bluetooth h)

/-! ### Failures -/

/-- `write_gatt_char` does not end with `CancelledError` while the client has not cancelled the send
that awaits it. -/
def WritesEnd (s : Bluetooth β) : BluetoothEvent β → Prop
  | .writeEnd i r =>
    r = .error .cancelledError → (s.client.sendTasks i).map SendTask.state ≠ some .running
  | _ => True

instance (s : Bluetooth β) (e : BluetoothEvent β) : Decidable (WritesEnd s e) :=
  match e with
  | .writeEnd _ r => inferInstanceAs (Decidable (r = .error .cancelledError → _))
  | .call _ | .transport _ | .sendStart _ | .sendUnwind _ => .isTrue trivial

/-- The event is not the cancellation of call `c`. -/
def BluetoothEvent.sparesCall (e : BluetoothEvent β) (c : ℕ) : Prop :=
  match e with
  | .call e => e.sparesCall c
  | _ => True

instance (e : BluetoothEvent β) (c : ℕ) : Decidable (e.sparesCall c) :=
  match e with
  | .call e => inferInstanceAs (Decidable (e.sparesCall c))
  | .transport _ | .sendStart _ | .sendUnwind _ | .writeEnd .. => .isTrue trivial

/-- A send is cancelled only if the write was. -/
lemma Ble.endSend_eq_cancelled {r : Except Exc Unit} (h : Ble.endSend r = .error .cancelledError) :
    r = .error .cancelledError := by
  rcases r with (_ | _ | _) | _ <;> first | rfl | cases h

/-- The client cancels no call but those that its callers cancel, and its sends end as they
should. -/
lemma sendsEnd_of_bluetooth {c : ℕ} {es : List (Event β)} {tr : Ble.State} {v : State β}
    (hP : WritesEnd s e ∧ e.sparesCall c) (h : s.Moves e es tr)
    (hrun : Run (machine β timeoutHint password) Always s.client es v) :
    Run (machine β timeoutHint password) (fun u e => SendsEnd u e ∧ e.sparesCall c) s.client es
      v := by
  have hall (hes : ∀ e' ∈ es, ∀ u, SendsEnd u e' ∧ e'.sparesCall c) :
      Run (machine β timeoutHint password) (fun u e => SendsEnd u e ∧ e.sparesCall c) s.client es
        v :=
    hrun.mem.mono fun u e' he' => hes e' he'.2 u
  cases h with
  | @call e he =>
    refine hall fun e' he' u => ?_
    obtain rfl := List.mem_singleton.1 he'
    refine ⟨?_, hP.2⟩
    cases e' with
    | sendEnd i o => cases he
    | _ => simp [SendsEnd, Event.cancelledSend]
  | transport ht =>
    refine hall fun e' he' u => ?_
    rcases List.mem_append.1 he' with he' | he'
    · obtain ⟨payload, rfl⟩ | rfl := Bluetooth.mem_callbacks he' <;>
        simp [SendsEnd, Event.cancelledSend, Event.sparesCall]
    · obtain rfl := List.mem_singleton.1 he'
      simp [SendsEnd, Event.cancelledSend, Event.sparesCall]
  | sendStart | sendUnwind | refused =>
    exact hall (by simp [SendsEnd, Event.cancelledSend, Event.sparesCall])
  | @writeEnd i r =>
    cases hr : Ble.endSend r with
    | ok =>
      rw [hr] at hall
      exact hall (by simp [outcomeOf, SendsEnd, Event.cancelledSend, Event.sparesCall])
    | error err =>
      rw [hr] at hrun
      by_cases he : err = .cancelledError
      · subst he
        cases hrun with
        | cons _ hst hrun =>
          have hspares := hP.1 (Ble.endSend_eq_cancelled hr)
          refine .cons ⟨?_, by simp [Event.sparesCall]⟩ hst (hrun.mem.mono ?_)
          · simpa [SendsEnd, Event.cancelledSend, outcomeOf, raisedOutcome] using hspares
          · rintro u e' ⟨-, ⟨⟩⟩
      · refine hrun.mem.mono fun u e' he' => ?_
        obtain rfl := List.mem_singleton.1 he'.2
        exact ⟨sendsEnd_raisedOutcome u he, by simp [Event.sparesCall]⟩

/-- Whatever a write ends with, a call that its caller does not cancel returns or raises an error of
the package, as long as no write is cancelled on its own. -/
theorem failures_over_bluetooth {c : ℕ} {es : List (BluetoothEvent β)}
    (h : BluetoothRun password (fun s e => WritesEnd s e ∧ e.sparesCall c) es s) (m : Method)
    (f : m.Result → β) (n : ℕ) (r : Except Exc β) (cn : Cancellation) (hm : m.Fits)
    (hspawn : .call (.spawn c (f <$> m.program).run n) ∈ es)
    (hc : s.client.calls c = some ⟨.finished r, cn⟩) : Tidy r := by
  obtain ⟨es', hrun, hmem⟩ :
      ∃ es', ClientRun (some Ble.timeoutHint) password
          (fun s e => SendsEnd s e ∧ e.sparesCall c) es' s.client ∧ ∀ e, .call e ∈ es → e ∈ es' :=
    client_of_bluetooth (fun _ _ _ _ _ hP hmoves hrun => sendsEnd_of_bluetooth hP hmoves hrun) h
  exact tidy_of_run hm hrun (hmem _ hspawn) hc

/-! ### Drops -/

/-- No drop is reported between a reply and the end of its send. -/
def ReportsAfterSends (s : Bluetooth β) : BluetoothEvent β → Prop
  | .transport (.callback _) =>
    s.transport.onDisconnect.isSome = true → s.client.repliedEarly = false
  | _ => True

instance (s : Bluetooth β) (e : BluetoothEvent β) : Decidable (ReportsAfterSends s e) :=
  match e with
  | .transport (.callback _) =>
    inferInstanceAs (Decidable (s.transport.onDisconnect.isSome = true → _))
  | .transport (.connect _) | .transport (.disconnect _) | .transport (.returned _)
  | .transport (.raised ..) | .transport (.shut _) | .transport (.drop _)
  | .transport (.notify ..) | .call _ | .sendStart _ | .sendUnwind _ | .writeEnd .. =>
    .isTrue trivial

/-- Whatever was in flight when the disconnected callback of a link was reported, and still is, can
end without its deadline, as long as no drop is reported between a reply and the end of its send. -/
theorem drops_over_bluetooth {es : List (BluetoothEvent β)}
    (h : BluetoothRun password ReportsAfterSends es s) (es₁ es₂ : List (BluetoothEvent β))
    (v : Bluetooth β) (k i c : ℕ) (j : Job) (cont : Except Exc j.Value → Program (Except Exc β))
    (n : ℕ) (fl : Flight) (hes : es = es₁ ++ .transport (.callback k) :: es₂)
    (hv : BluetoothRun password Always es₁ v) (hcallback : v.transport.onDisconnect.isSome = true)
    (hd : v.client.Delivers i) (hl : s.client.lock = some (.delivering c j cont n fl))
    (hi : fl.id = i) : s.client.CanEnd c i := by
  subst hes
  obtain ⟨v', hv', hrest⟩ := h.of_append
  obtain rfl := hv.unique hv'
  cases hrest with
  | @cons _ w _ _ _ hP hst hrest =>
    have hvs := consistent_of_bluetooth hv
    have hs := consistent_of_bluetooth h
    obtain ⟨fs, hrest, -⟩ : ∃ fs, Run (machine β none password) Always w.client fs s.client ∧
        ∀ e, .call e ∈ es₂ → e ∈ fs := client_of_bluetooth (fun _ _ _ _ _ _ _ hrun => hrun) hrest
    obtain ⟨es', client, transport, rfl, hmoves, hrun⟩ := Bluetooth.moves_of_step hst
    have hrun : Run (machine β none password) Always v.client es' client := Run.of_foldlM hrun
    cases hmoves with
    | transport ht =>
      simp only [Bluetooth.callbacks, hcallback, if_true, List.singleton_append] at hrun
      cases hrun with
      | @cons _ u _ _ _ _ hdrop hlink =>
        have hdrop : Step v.client .disconnect u := Step.of_step hdrop
        have hu : u.Woken i := .of_disconnect hvs hdrop hd (hP hcallback)
        have hstep : ∀ (u : State β) e u', u.Consistent → u.Woken i → Always u e → Step u e u' →
            u'.Woken i := fun u e u' hus hu _ hst => hu.step hus hst
        have hwoken : s.client.Woken i :=
          invariant_of_run hstep (hlink.append hrest) (hvs.step hdrop) hu
        exact hwoken.canEnd hs hl hi

end

/-! ### A read over Bluetooth -/

/-- The transport connects, and the state is read as far as its write. -/
def readOverBluetooth : List (BluetoothEvent ℕ) :=
  [.transport (.connect 0), .transport (.returned 0), .transport (.returned 0),
    .call (.spawn 0 (id <$> asyncGetStateValue).run 0), .call (.run 0), .call (.run 0),
    .call (.run 0), .sendStart 0]

/-- The charger says that it is idle. -/
def idleReply : Bytes := [0x10, 0xAC, 0x67, 0x00, 0x00, 0x00, 0x00, 0x00]

theorem replies_over_bluetooth_read :
    ∃ s, BluetoothRun none InPlace (readOverBluetooth ++ [.transport (.notify 0 idleReply)]) s ∧
      (∃ es₁ es₂ v k, readOverBluetooth ++ [.transport (.notify 0 idleReply)] =
          es₁ ++ .transport (.notify k idleReply) :: es₂ ∧
        BluetoothRun none InPlace es₁ v ∧ v.transport.isUp k = true ∧
        v.client.Requesting 0 ⟨0x67, 0x00, ⟨0, 0, 0, 0⟩⟩ 0x67 0 ∧ v.client.futures 0 = .pending ∧
        Answers idleReply 0x67 0x00) ∧
      ∃ k, s.transport.client = some k := by
  have h : BluetoothRun none InPlace
      (readOverBluetooth ++ [.transport (.notify 0 idleReply)]) _ := Run.of_exec rfl
  obtain ⟨hreply, hlink⟩ := replies_over_bluetooth h
  obtain ⟨k, hk, -⟩ := hlink h rfl
  exact ⟨_, h, hreply 0 ⟨0x67, 0x00, ⟨0, 0, 0, 0⟩⟩ 0x67 0 _ ⟨_, _, _, rfl, rfl⟩ rfl, k, hk⟩

/-- The write fails, and the call reports that. -/
theorem failures_over_bluetooth_write :
    ∃ s : Bluetooth ℕ, BluetoothRun none (fun s e => WritesEnd s e ∧ e.sparesCall 0)
        (readOverBluetooth ++
          [.writeEnd 0 (.error (.builtin .other "gatt")), .call (.run 0), .call (.run 0)]) s ∧
      ∃ r cn, s.client.calls 0 = some ⟨.finished r, cn⟩ ∧ Tidy r := by
  obtain ⟨s, h, r, cn, hc⟩ : ∃ s : Bluetooth ℕ,
      BluetoothRun none (fun s e => WritesEnd s e ∧ e.sparesCall 0)
        (readOverBluetooth ++
          [.writeEnd 0 (.error (.builtin .other "gatt")), .call (.run 0), .call (.run 0)]) s ∧
      ∃ r cn, s.client.calls 0 = some ⟨.finished r, cn⟩ := ⟨_, Run.of_exec rfl, _, _, rfl⟩
  exact ⟨s, h, r, cn, hc,
    failures_over_bluetooth h .getStateValue id 0 r cn trivial
      (.tail _ (.tail _ (.tail _ (.head _)))) hc⟩

/-- The link drops while the write is open, and that is reported. -/
theorem drops_over_bluetooth_read :
    ∃ s : Bluetooth ℕ, BluetoothRun none ReportsAfterSends
        (readOverBluetooth ++ [.transport (.drop 0), .transport (.callback 0)]) s ∧
      s.client.CanEnd 0 0 := by
  have h : BluetoothRun none ReportsAfterSends
      (readOverBluetooth ++ [.transport (.drop 0), .transport (.callback 0)]) _ := Run.of_exec rfl
  have hv : BluetoothRun none Always (readOverBluetooth ++ [.transport (.drop 0)]) _ :=
    Run.of_exec rfl
  exact ⟨_, h, drops_over_bluetooth h _ _ _ _ _ _ _ _ _ _ rfl hv rfl
    ⟨_, _, _, _, _, rfl, rfl⟩ rfl rfl⟩

end SpinevBle
