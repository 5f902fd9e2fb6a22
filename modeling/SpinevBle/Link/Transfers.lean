import SpinevBle.Charger.Drop
import SpinevBle.Link.FromBelow

/-!
# Replies and drops over the tunnel

A reply comes with the end of its own `DataTransfer`, so over the tunnel it can only be that of the
request in flight, as long as no `data_transfer` returns that the client has cancelled. It comes in
the last step of its send, so a drop finds no request that waits for its send alone.
-/

namespace SpinevBle

open Asyncio Interaction Transition

variable {β : Type} {password : Option ℤ} {s t : Tunnel β} {e : TunnelEvent β}

/-! ### Sends that the client cancels -/

/-- `data_transfer` does not return once the client has cancelled the send that awaits it. -/
def TransfersStop (s : Tunnel β) : TunnelEvent β → Prop
  | .transferEnd i (.returned ..) =>
    (s.client.sendTasks i).map SendTask.state = some .running
  | _ => True

instance (s : Tunnel β) (e : TunnelEvent β) : Decidable (TransfersStop s e) :=
  match e with
  | .transferEnd _ (.returned ..) => inferInstanceAs (Decidable (_ = _))
  | .transferEnd _ (.raised _) | .call _ | .connect | .disconnect | .notifyDisconnected
  | .sendStart _ | .sendUnwind _ => .isTrue trivial

/-- What is handed over comes of a send that has not been cancelled. -/
lemma TransfersStop.running {i : ℕ} {r : Ocpp.TransferEnd} {task : SendTask} {payload : Bytes}
    (h : TransfersStop s (.transferEnd i r)) (ht : s.client.sendTasks i = some task)
    (hr : Ocpp.reply task.frame.register r = .ok (some payload)) : task.state = .running := by
  cases r with
  | raised err => cases hr
  | returned status data => simpa [TransfersStop, ht] using h

/-! ### Both at once -/

lemma Tunnel.causes_of_step (h : s.step e = some t) :
    ∃ es client, t = ⟨client, s.nextTransport e⟩ ∧ s.clientEvents e = some es ∧
      s.Causes e es ∧ es.foldlM State.step s.client = some client := by
  simp only [step, Option.bind_eq_bind, Option.bind_eq_some_iff, Option.pure_def,
    Option.some.injEq] at h
  obtain ⟨es, hes, client, hclient, rfl⟩ := h
  exact ⟨es, client, rfl, hes, causes_of_clientEvents hes, hclient⟩

/-- A run of both is a run of the client. -/
lemma clientRun_of_tunnel {P : Tunnel β → TunnelEvent β → Prop} {es : List (TunnelEvent β)}
    (timeoutHint : Option String) (h : Run (tunnel β password) P s es t) :
    ∃ es', Run (machine β timeoutHint password) Always s.client es' t.client := by
  obtain ⟨es', hrun, -⟩ :
      ∃ es', Run (machine β timeoutHint password) Always s.client es' t.client ∧
        ∀ e, .call e ∈ es → e.call.isSome = true → e ∈ es' :=
    client_of_tunnel (fun _ _ _ _ _ _ hrun => hrun) h
  exact ⟨es', hrun⟩

lemma owned_step (hs : s.client.Consistent ∧ s.client.SendsOwned) (h : s.step e = some t) :
    t.client.Consistent ∧ t.client.SendsOwned := by
  obtain ⟨es, client, rfl, -, -, hrun⟩ := Tunnel.causes_of_step h
  have hrun : Run (machine β none none) Always s.client es client := Run.of_foldlM hrun
  have hstep : ∀ (u : State β) e v, u.Consistent ∧ u.SendsOwned → Always u e →
      (machine β none none).step u e = some v → v.Consistent ∧ v.SendsOwned :=
    fun u e v hu _ hst => ⟨hu.1.step (Step.of_step hst), hu.2.step (Step.of_step hst)⟩
  exact hrun.invariant hstep hs

lemma owned_of_tunnel {P : Tunnel β → TunnelEvent β → Prop} {es : List (TunnelEvent β)}
    (h : TunnelRun password P es s) : s.client.Consistent ∧ s.client.SendsOwned := by
  have hstep : ∀ u e v, u.client.Consistent ∧ u.client.SendsOwned → P u e →
      (tunnel β password).step u e = some v → v.client.Consistent ∧ v.client.SendsOwned :=
    fun u e v hu _ hst => owned_step hu hst
  exact h.invariant hstep ⟨.init _ _, .init _ _⟩

/-- The transport has both callbacks or none. -/
lemma callbacks_of_tunnel {P : Tunnel β → TunnelEvent β → Prop} {es : List (TunnelEvent β)}
    (h : TunnelRun password P es s) :
    s.transport.onDisconnect.isSome = s.transport.isConnected := by
  have hstep : ∀ u e v, u.transport.onDisconnect.isSome = u.transport.isConnected → P u e →
      (tunnel β password).step u e = some v →
      v.transport.onDisconnect.isSome = v.transport.isConnected := by
    intro u e v hu _ hst
    obtain ⟨es', client, rfl, -⟩ := Tunnel.causes_of_step hst
    cases e with
    | connect =>
      simp only [Tunnel.nextTransport]
      split_ifs
      · exact hu
      · rfl
    | disconnect | notifyDisconnected => rfl
    | call | sendStart | sendUnwind | transferEnd => exact hu
  exact h.invariant hstep rfl

/-! ### What is handed over -/

/-- A payload reaches the client with the end of its own send. -/
lemma Tunnel.Causes.of_notify {es : List (Event β)} {payload : Bytes} (h : s.Causes e es)
    (hmem : .notify payload ∈ es) :
    ∃ i r task, e = .transferEnd i r ∧ es = [.notify payload, .sendEnd i .returned] ∧
      s.client.sendTasks i = some task ∧
      Ocpp.reply task.frame.register r = .ok (some payload) := by
  cases h with
  | @call e he =>
    obtain rfl := List.mem_singleton.1 hmem
    cases he
  | connect | disconnect | dropped | closed | sendStart | refused | sendUnwind | failed
  | silent => simp at hmem
  | handed ht hr =>
    obtain rfl : payload = _ := by simpa using hmem
    exact ⟨_, _, _, rfl, rfl, ht, hr⟩

/-- The transport hands a payload over only while it is connected. -/
lemma Tunnel.connected_of_notify {es : List (Event β)} {payload : Bytes} {i : ℕ}
    {r : Ocpp.TransferEnd} (h : s.clientEvents (.transferEnd i r) = some es)
    (hmem : .notify payload ∈ es) : s.transport.isConnected = true := by
  simp only [clientEvents, Option.bind_eq_bind, Option.bind_eq_some_iff] at h
  obtain ⟨task, -, h⟩ := h
  split at h
  · cases h
    simp at hmem
  · cases h
    simp at hmem
  · split at h
    · next hf => simp [Ocpp.Transport.isConnected, hf]
    · cases h
      simp at hmem

lemma steps_of_handed {u v : State β} {payload : Bytes} {i : ℕ}
    (h : Run (machine β none none) Always u [.notify payload, .sendEnd i .returned] v) :
    ∃ w, Step u (.notify payload) w ∧ Step w (.sendEnd i .returned) v := by
  cases h with
  | @cons _ w _ _ _ _ hnotify h =>
    cases h with
    | @cons _ x _ _ _ _ hend hnil =>
      cases hnil
      exact ⟨w, Step.of_step hnotify, Step.of_step hend⟩

/-- What the client makes of a payload that is handed over. -/
lemma Step.of_handed {s u v : State β} {payload : Bytes} {i : ℕ} {task : SendTask}
    (hnotify : Step s (.notify payload) u) (hend : Step u (.sendEnd i .returned) v)
    (ht : s.sendTasks i = some task) :
    v.futures = u.futures ∧ v.lock = s.lock ∧
      v.sendTasks i = some { task with state := .done .returned } := by
  have hu : u.lock = s.lock ∧ u.sendTasks = s.sendTasks := by
    cases hnotify <;> exact ⟨rfl, rfl⟩
  cases hend with
  | sendEnd ht' =>
    rw [hu.2, ht] at ht'
    cases ht'
    exact ⟨rfl, hu.1, Function.update_self ..⟩

/-! ### Replies come with the ends of their sends -/

/-- Every request that has its reply is done with its send. -/
def State.RepliesSent (s : State β) : Prop :=
  ∀ i payload, s.futures i = .result payload →
    ∃ task o, s.sendTasks i = some task ∧ task.state = .done o

lemma State.RepliesSent.step {s s' : State β} {e : Event β} (h : s.RepliesSent)
    (hs : s.Consistent) (hst : Step s e s') (he : ∀ payload, e ≠ .notify payload) :
    s'.RepliesSent := by
  intro i payload hf
  have hc := hst.futures_cases i
  rw [hf] at hc
  cases hc with
  | same hf' =>
    obtain ⟨task, o, ht, ho⟩ := h i payload hf'.symm
    exact ⟨task, o, hst.sendTask_done hs ht ho, ho⟩
  | answer => exact absurd rfl (he _)

/-- No reply is in whose send is open. -/
lemma State.RepliesSent.repliedEarly {s : State β} (h : s.RepliesSent) : s.repliedEarly = false := by
  unfold State.repliedEarly
  split
  · split
    · next hf ht =>
      obtain ⟨task, o, ht', ho⟩ := h _ _ hf
      rw [ht] at ht'
      cases ht'
      simp [ho]
    · rfl
  · rfl

/-- The send that hands a payload over is that of the request which gets it. -/
lemma future_of_handed {u : State β} {i i' : ℕ} {r : Ocpp.TransferEnd} {task : SendTask}
    {payload payload' : Bytes} (hs : s.client.Consistent ∧ s.client.SendsOwned)
    (hP : TransfersStop s (.transferEnd i r)) (ht : s.client.sendTasks i = some task)
    (hr : Ocpp.reply task.frame.register r = .ok (some payload))
    (hst : Step s.client (.notify payload) u) (hf : u.futures i' = .result payload') :
    s.client.futures i' = .result payload' ∨
      i' = i ∧ payload' = payload ∧ s.client.futures i = .pending ∧
        ∃ register, s.client.Requesting task.call task.frame register i ∧
          Answers payload register task.frame.flag := by
  have hc := hst.futures_cases i'
  rw [hf] at hc
  cases hc with
  | same hf' => exact .inl hf'.symm
  | answer ha hlookup hi hp =>
    obtain ⟨c, frame, k, n, fl, hl, rfl⟩ := hs.1.lookup hlookup
    have hflight : fl.id = i := (State.delivers_iff hl).1 (hs.2 i task ht (.inr (hP.running ht hr)))
    obtain ⟨frame', state, hframe, htask⟩ := (hs.1.flying _ _ _ _ _ hl).task
    obtain ⟨-, rfl⟩ := Job.frames_request hframe
    obtain rfl : i' = i := hi.symm.trans hflight
    subst hflight
    rw [ht] at htask
    cases htask
    exact .inr ⟨rfl, rfl, hp, _, ⟨_, _, _, hl, rfl⟩, ha⟩

lemma repliesSent_step (hs : s.client.Consistent ∧ s.client.SendsOwned)
    (h : s.client.RepliesSent) (hP : TransfersStop s e) (hst : s.step e = some t) :
    t.client.RepliesSent := by
  obtain ⟨es, client, rfl, -, hcauses, hrun⟩ := Tunnel.causes_of_step hst
  have hrun : Run (machine β none none) Always s.client es client := Run.of_foldlM hrun
  by_cases hnotify : ∃ payload, .notify payload ∈ es
  · obtain ⟨payload, hmem⟩ := hnotify
    obtain ⟨i, r, task, rfl, rfl, ht, hr⟩ := hcauses.of_notify hmem
    obtain ⟨u, hnotify, hend⟩ := steps_of_handed hrun
    obtain ⟨hfutures, -, hdone⟩ := hnotify.of_handed hend ht
    intro i' payload' hf
    rw [hfutures] at hf
    rcases future_of_handed hs hP ht hr hnotify hf with hf | ⟨rfl, -⟩
    · obtain ⟨task', o, ht', ho⟩ := h i' payload' hf
      have hu : u.Consistent := hs.1.step hnotify
      exact ⟨task', o, hend.sendTask_done hu (hnotify.sendTask_done hs.1 ht' ho) ho, ho⟩
    · exact ⟨_, _, hdone, rfl⟩
  · have hstep : ∀ u e v, u.Consistent ∧ u.RepliesSent → Always u e ∧ e ∈ es →
        (machine β none none).step u e = some v → v.Consistent ∧ v.RepliesSent := by
      rintro u e v ⟨hu, hsent⟩ ⟨-, he⟩ hst
      have hst : Step u e v := Step.of_step hst
      exact ⟨hu.step hst, hsent.step hu hst fun payload hp => hnotify ⟨payload, hp ▸ he⟩⟩
    exact (hrun.mem.invariant hstep ⟨hs.1, h⟩).2

lemma repliesSent_of_tunnel {es : List (TunnelEvent β)}
    (h : TunnelRun password TransfersStop es s) : s.client.RepliesSent := by
  have hI : ∀ u e v, u.client.Consistent ∧ u.client.SendsOwned →
      (tunnel β password).step u e = some v → v.client.Consistent ∧ v.client.SendsOwned :=
    fun u e v hu hst => owned_step hu hst
  have hJ : ∀ u e v, u.client.Consistent ∧ u.client.SendsOwned → u.client.RepliesSent →
      TransfersStop u e → (tunnel β password).step u e = some v → v.client.RepliesSent :=
    fun u e v hu h hP hst => repliesSent_step hu h hP hst
  exact h.invariant_from hI hJ ⟨.init _ _, .init _ _⟩ fun i payload hf => by
    simp [Tunnel.init, State.init] at hf

/-! ### Replies -/

/-- A request that has its reply got it with the end of its own send, while it waited for it. -/
lemma transferred_of_resolved {es : List (TunnelEvent β)}
    (h : TunnelRun password TransfersStop es s) {c : ℕ} {frame : Frame} {register : UInt8} {i : ℕ}
    {payload : Bytes} (hreq : s.client.Requesting c frame register i)
    (hf : s.client.futures i = .result payload) :
    ∃ es₁ es₂ v r, es = es₁ ++ .transferEnd i r :: es₂ ∧ TunnelRun password TransfersStop es₁ v ∧
      v.transport.isConnected = true ∧ v.client.Requesting c frame register i ∧
      v.client.futures i = .pending ∧ v.client.sendTasks i = some ⟨c, frame, .running⟩ ∧
      Ocpp.reply frame.register r = .ok (some payload) ∧ Answers payload register frame.flag := by
  obtain ⟨es₁, e, es₂, v, w, rfl, h₁, hv, hP, hst, hw, h₂⟩ := h.exists_step
    (fun u => u.client.futures i = .result payload) (by simp [Tunnel.init, State.init]) hf
  have hvs := owned_of_tunnel h₁
  obtain ⟨fs, hrest⟩ := clientRun_of_tunnel none (.cons hP hst h₂)
  obtain ⟨es', client, rfl, hes, hcauses, hrun⟩ := Tunnel.causes_of_step hst
  have hrun : Run (machine β none none) Always v.client es' client := Run.of_foldlM hrun
  obtain ⟨payload', hmem⟩ : ∃ payload', .notify payload' ∈ es' := by
    obtain ⟨fs₁, e', fs₂, u, u', rfl, -, hu, -, hst', hu', -⟩ :=
      hrun.exists_step (fun u => u.futures i = .result payload) hv hw
    have hc := (Step.of_step hst').futures_cases i
    rw [hu'] at hc
    cases hc with
    | same hf' => exact absurd hf'.symm hu
    | answer => exact ⟨payload, List.mem_append_right _ (.head _)⟩
  obtain ⟨i', r, task, rfl, rfl, ht, hr⟩ := hcauses.of_notify hmem
  obtain ⟨u, hnotify, hend⟩ := steps_of_handed hrun
  have hfutures := (hnotify.of_handed hend ht).1
  have hf' : u.futures i = .result payload := hfutures ▸ hw
  rcases future_of_handed hvs hP ht hr hnotify hf' with hf' | ⟨rfl, rfl, hp, register', hr', ha⟩
  · exact absurd hf' hv
  · obtain ⟨k, n, fl, hl, hid⟩ := hr'
    obtain ⟨k', n', fl', hl', hid'⟩ := hreq
    -- the flight that was resolved is the flight at the end
    have hsame := flight_stays hrest hvs.1 hl hl' (hid'.trans hid.symm)
    rw [hl'] at hsame
    obtain ⟨c, frame, state⟩ := task
    cases hsame
    obtain rfl : state = .running := hP.running ht hr
    exact ⟨es₁, es₂, v, r, rfl, h₁, Tunnel.connected_of_notify hes hmem, ⟨_, _, _, hl, hid⟩, hp, ht,
      hr, ha⟩

/-- While the transport is connected, an answer to the request in flight ends it. -/
lemma resolved_of_transferred (hs : s.client.Consistent) (hcon : s.transport.isConnected = true)
    {c : ℕ} {frame : Frame} {register : UInt8} {i : ℕ} {r : Ocpp.TransferEnd} {payload : Bytes}
    (hreq : s.client.Requesting c frame register i)
    (ht : s.client.sendTasks i = some ⟨c, frame, .running⟩) (hf : s.client.futures i = .pending)
    (hr : Ocpp.reply frame.register r = .ok (some payload))
    (ha : Answers payload register frame.flag) :
    ∃ s', s.step (.transferEnd i r) = some s' ∧ s'.client.Requesting c frame register i ∧
      s'.client.futures i = .result payload ∧ s'.client.CanEnd c i := by
  obtain ⟨u, hu, hreq', hf'⟩ := resolved_of_answers hreq hs hf ha
  have hnotify : Step s.client (.notify payload) u := Step.of_step hu
  have hut : u.sendTasks i = some ⟨c, frame, .running⟩ := by
    have htasks : u.sendTasks = s.client.sendTasks := by cases hnotify <;> rfl
    rw [htasks, ht]
  let v := u.setSend i ⟨c, frame, .running⟩ (.done .returned)
  have hv : u.step (.sendEnd i .returned) = some v := by
    simp [State.step, State.endSend, hut, TaskState.busy, v]
  obtain ⟨_, hframe⟩ : ∃ x, s.transport.onFrame = some x := Option.isSome_iff_exists.1 hcon
  have hevents : s.clientEvents (.transferEnd i r) =
      some [.notify payload, .sendEnd i .returned] := by
    simp [Tunnel.clientEvents, ht, hr, hframe]
  have hwoken : v.Woken i := by
    refine ⟨?_, .inr ⟨_, .returned, Function.update_self .., rfl⟩⟩
    change u.futures i ≠ .pending
    simp [hf']
  have hvs : v.Consistent := (hs.step hnotify).step (Step.of_step hv)
  refine ⟨⟨v, s.transport⟩, ?_, hreq', hf', ?_⟩
  · simp only [Tunnel.step, hevents, Option.bind_eq_bind, Option.bind_some, List.foldlM_cons, hu, hv,
      List.foldlM_nil]
    rfl
  · obtain ⟨k, n, fl, hl, rfl⟩ := hreq'
    exact hwoken.canEnd hvs hl rfl

/-- Over the tunnel, what a request returns is what `data_transfer` has returned for that very
request, and while the transport is connected such an answer ends the request, as long as no
`data_transfer` returns that the client has cancelled. -/
theorem replies_over_tunnel {es : List (TunnelEvent β)}
    (h : TunnelRun password TransfersStop es s) (c : ℕ) (frame : Frame) (register : UInt8) (i : ℕ)
    (payload : Bytes) (hreq : s.client.Requesting c frame register i) :
    (s.client.futures i = .result payload →
      ∃ es₁ es₂ v r, es = es₁ ++ .transferEnd i r :: es₂ ∧
        TunnelRun password TransfersStop es₁ v ∧ v.transport.isConnected = true ∧
        v.client.Requesting c frame register i ∧ v.client.futures i = .pending ∧
        v.client.sendTasks i = some ⟨c, frame, .running⟩ ∧
        Ocpp.reply frame.register r = .ok (some payload) ∧
        Answers payload register frame.flag) ∧
    (s.transport.isConnected = true → s.client.futures i = .pending →
      s.client.sendTasks i = some ⟨c, frame, .running⟩ →
      Answers payload register frame.flag →
      ∀ r, Ocpp.reply frame.register r = .ok (some payload) →
        ∃ s', s.step (.transferEnd i r) = some s' ∧ s'.client.Requesting c frame register i ∧
          s'.client.futures i = .result payload ∧ s'.client.CanEnd c i) :=
  ⟨transferred_of_resolved h hreq, fun hcon hf ht ha _ hr =>
    resolved_of_transferred (owned_of_tunnel h).1 hcon hreq ht hf hr ha⟩

/-! ### Drops -/

/-- Whatever was in flight when the drop of the connection was reported, and still is, can end
without its deadline, as long as no `data_transfer` returns that the client has cancelled. -/
theorem drops_over_tunnel {es : List (TunnelEvent β)}
    (h : TunnelRun password TransfersStop es s) (es₁ es₂ : List (TunnelEvent β)) (v : Tunnel β)
    (i c : ℕ) (j : Job) (cont : Except Exc j.Value → Program (Except Exc β)) (n : ℕ) (fl : Flight)
    (hes : es = es₁ ++ .notifyDisconnected :: es₂) (hv : TunnelRun password Always es₁ v)
    (hcon : v.transport.isConnected = true) (hd : v.client.Delivers i)
    (hl : s.client.lock = some (.delivering c j cont n fl)) (hi : fl.id = i) :
    s.client.CanEnd c i := by
  subst hes hi
  obtain ⟨v', hv', hrest⟩ := h.of_append
  obtain rfl := hv.unique hv'
  cases hrest with
  | @cons _ w _ _ _ _ hst hrest =>
    have hvs := (owned_of_tunnel hv).1
    obtain ⟨fs, hrest⟩ := clientRun_of_tunnel none hrest
    obtain ⟨es', client, rfl, hes, -, hrun⟩ := Tunnel.causes_of_step hst
    obtain ⟨_, hcallback⟩ : ∃ x, v.transport.onDisconnect = some x :=
      Option.isSome_iff_exists.1 ((callbacks_of_tunnel hv).trans hcon)
    obtain rfl : es' = [.link false, .disconnect] := by
      simpa [Tunnel.clientEvents, Ocpp.Transport.notifyDisconnected, hcallback] using hes.symm
    -- the link goes down first, and nothing else changes with it
    let u : State β := { v.client with connected := false }
    obtain ⟨x, hx, hrun⟩ : ∃ x, Step u .disconnect x ∧
        Run (machine β none password) Always x fs s.client := by
      have hrun : Run (machine β none password) Always v.client [.link false, .disconnect] client :=
        Run.of_foldlM hrun
      cases hrun with
      | @cons _ x _ _ _ _ hlink hrun =>
        obtain rfl : u = x := Option.some.inj hlink
        cases hrun with
        | @cons _ y _ _ _ _ hdrop hnil =>
          cases hnil
          exact ⟨_, Step.of_step hdrop, hrest⟩
    have hlink : Step v.client (.link false) u := .link
    have hus : u.Consistent := hvs.step hlink
    have hearly : u.repliedEarly = false := (repliesSent_of_tunnel hv').repliedEarly
    have hwoken : x.Woken fl.id := .of_disconnect hus hx hd hearly
    have hstep : ∀ (u : State β) e u', u.Consistent → u.Woken fl.id → Always u e → Step u e u' →
        u'.Woken fl.id := fun u e u' hus hu _ hst => hu.step hus hst
    exact (invariant_of_run hstep hrun (hus.step hx) hwoken).canEnd (owned_of_tunnel h).1 hl rfl

/-! ### A read over the tunnel -/

/-- The state is asked for, as far as its `DataTransfer`. -/
def askOverTunnel : List (TunnelEvent ℕ) :=
  [.connect, .call (.spawn 0 (id <$> asyncGetStateValue).run 0), .call (.run 0), .call (.run 0),
    .call (.run 0), .sendStart 0]

/-- The charger says that it is idle. -/
def idleTransfer : Ocpp.TransferEnd :=
  .returned Ocpp.accepted (.text "10_AC_67_00_00_00_00_00")

theorem replies_over_tunnel_read :
    ∃ s, TunnelRun none TransfersStop (askOverTunnel ++ [.transferEnd 0 idleTransfer]) s ∧
      ∃ es₁ es₂ v r, askOverTunnel ++ [.transferEnd 0 idleTransfer] =
          es₁ ++ .transferEnd 0 r :: es₂ ∧
        TunnelRun none TransfersStop es₁ v ∧ v.transport.isConnected = true ∧
        v.client.Requesting 0 ⟨0x67, 0x00, ⟨0, 0, 0, 0⟩⟩ 0x67 0 ∧ v.client.futures 0 = .pending ∧
        v.client.sendTasks 0 = some ⟨0, ⟨0x67, 0x00, ⟨0, 0, 0, 0⟩⟩, .running⟩ ∧
        Ocpp.reply 0x67 r = .ok (some [0x10, 0xAC, 0x67, 0x00, 0x00, 0x00, 0x00, 0x00]) ∧
        Answers [0x10, 0xAC, 0x67, 0x00, 0x00, 0x00, 0x00, 0x00] 0x67 0x00 := by
  have h : TunnelRun none TransfersStop (askOverTunnel ++ [.transferEnd 0 idleTransfer]) _ :=
    Run.of_exec rfl
  exact ⟨_, h, (replies_over_tunnel h 0 ⟨0x67, 0x00, ⟨0, 0, 0, 0⟩⟩ 0x67 0 _ ⟨_, _, _, rfl, rfl⟩).1
    rfl⟩

/-- The connection drops while `data_transfer` is open. -/
theorem drops_over_tunnel_read :
    ∃ s : Tunnel ℕ, TunnelRun none TransfersStop (askOverTunnel ++ [.notifyDisconnected]) s ∧
      s.client.CanEnd 0 0 := by
  have h : TunnelRun none TransfersStop (askOverTunnel ++ [.notifyDisconnected]) _ :=
    Run.of_exec rfl
  have hv : TunnelRun none Always askOverTunnel _ := Run.of_exec rfl
  exact ⟨_, h, drops_over_tunnel h _ [] _ 0 _ _ _ _ _ rfl hv rfl ⟨_, _, _, _, _, rfl, rfl⟩ rfl rfl⟩

end SpinevBle
