import SpinevBle.Charger.Readings
import SpinevBle.Link.Transfers
import SpinevBle.Link.TunnelLine

/-!
# Streamed registers over the tunnel

History records are no replies, so the tunnel cannot carry them. `async_send` raises over such a
register before it calls `data_transfer`, whatever happens around it. So nothing that streams
records is ever asked for, and every call that reads one fails.
-/

namespace SpinevBle

open Asyncio Interaction Transition

variable {β : Type} {password : Option ℤ}

/-! ### What `async_send` raises -/

namespace Ocpp

/-- What `async_send` raises over a register that streams records. -/
def streamed (register : UInt8) : Exc :=
  .spinEv .unsupported <|
    s!"register {hex register} streams records, which the OCPP " ++ "tunnel cannot carry"

/-- What it raises over such a register, connected or not. -/
def Transport.refusal {κ δ : Type*} (t : Transport κ δ) (register : UInt8) : Exc :=
  if t.isConnected then streamed register else .spinEv .connection "not connected"

lemma request_streamed {κ δ : Type*} (t : Transport κ δ) {frame : Frame}
    (h : frame.register ∈ bulkRegisters) :
    t.request frame.bytes = .error (t.refusal frame.register) := by
  have hreply : isReply frame.bytes = true := rfl
  have hbyte : byteAt frame.bytes 2 = .ok frame.register := rfl
  unfold Transport.refusal
  cases hf : t.onFrame with
  | none => simp [Transport.request, Transport.isConnected, hf]
  | some onFrame =>
    simp [Transport.request, Transport.isConnected, hf, hreply, hbyte, h, streamed]

lemma Transport.refusal_cases {κ δ : Type*} (t : Transport κ δ) (register : UInt8) :
    t.refusal register = streamed register ∨
      t.refusal register = .spinEv .connection "not connected" :=
  ite_eq_or_eq _ _ _

lemma raisedOutcome_refusal {κ δ : Type*} (t : Transport κ δ) (register : UInt8) :
    raisedOutcome (t.refusal register) = .raised (t.refusal register) := by
  rcases t.refusal_cases register with hx | hx
  all_goals rw [hx]; rfl

end Ocpp

/-! ### Sends of streamed registers -/

/-- The states of a send that never gets as far as `data_transfer`. -/
inductive Unsent (register : UInt8) : TaskState Exc → Prop
  | created : Unsent register .created
  | cancelled : Unsent register (.done .cancelled)
  | refused (t : Ocpp.Transport Unit Unit) : Unsent register (.done (.raised (t.refusal register)))

namespace Unsent

variable {register : UInt8} {state : TaskState Exc}

lemma cancel (h : Unsent register state) : Unsent register state.cancel := by
  cases h with
  | created => exact .cancelled
  | cancelled => exact .cancelled
  | refused t => exact .refused t

lemma busy (h : Unsent register state) : state.busy = false := by
  cases h <;> rfl

lemma ne_returned (h : Unsent register state) : state ≠ .done .returned := by
  rintro rfl
  cases h

end Unsent

/-- The job reads the register, which streams records. -/
inductive Job.Streams : Job → UInt8 → Prop
  | request {frame : Frame} {register : UInt8} (h : frame.register ∈ bulkRegisters) :
      Streams (.request frame register) frame.register
  | history {count : ℤ} : Streams (.history count) Register.historySessions.value

lemma Job.Streams.mem {j : Job} {register : UInt8} (h : j.Streams register) :
    register ∈ bulkRegisters := by
  cases h with
  | request h => exact h
  | history => exact .head _

/-- Its frames are those of the register. -/
lemma Job.Streams.register_eq {j : Job} {register : UInt8} (h : j.Streams register) {n : ℕ}
    {frame : Frame} (hj : j.frames[n]? = some frame) : frame.register = register := by
  cases h with
  | request h =>
    obtain ⟨-, rfl⟩ := Job.frames_request hj
    rfl
  | @history count =>
    cases hf : historyFrame count with
    | error x => simp [Job.frames, hf] at hj
    | ok frame' =>
      rw [Job.frames_history hf] at hj
      obtain rfl : frame' = frame := by
        cases n with
        | zero => exact Option.some.inj hj
        | succ n => cases hj
      exact register_buildReadOf hf

/-- What a call that needs a streamed register raises over the tunnel, if its arguments fit. -/
inductive StreamError (register : UInt8) : Exc → Prop
  | cancelled : StreamError register .cancelledError
  | connection (m : String) : StreamError register (.spinEv .connection m)
  | timeout (m : String) : StreamError register (.spinEv .timeout m)
  | streamed : StreamError register (Ocpp.streamed register)

/-- Of these jobs, those that need a streamed register have failed. -/
def FailsStreams (bs : List Block) : Prop :=
  ∀ b ∈ bs, ∀ register, b.job.Streams register →
    ∃ x, b.outcome = .error x ∧ (StreamError register x ∨ b.job.RaisesOwn x)

/-- What ends a delivery whose send is never made. -/
inductive StreamEnd (register : UInt8) : Exc → Prop
  | cancelled : StreamEnd register .cancelledError
  | dropped : StreamEnd register State.dropped
  | refused (t : Ocpp.Transport Unit Unit) : StreamEnd register (t.refusal register)

/-- It leaves the `asyncio.timeout` block and the handlers as one of the errors. -/
lemma StreamEnd.translate {register : UInt8} {x : Exc} (h : StreamEnd register x) (j : Job)
    (frame : Frame) (hint : Option String) (scope : Timeout) (requests : ℕ) :
    StreamError register (j.translate frame hint (leaveScope scope requests x).2) := by
  have hleave : x ≠ .cancelledError → (leaveScope scope requests x).2 = x := fun hx => by
    simp [leaveScope, hx]
  cases h with
  | cancelled =>
    simp only [leaveScope]
    split_ifs
    · exact .timeout _
    · exact .cancelled
  | dropped =>
    rw [hleave (by rintro ⟨⟩)]
    exact .connection _
  | refused t =>
    rcases t.refusal_cases register with hx | hx
    · rw [hx] at hleave ⊢
      rw [hleave (by rintro ⟨⟩)]
      exact .streamed
    · rw [hx] at hleave ⊢
      rw [hleave (by rintro ⟨⟩)]
      exact .connection _

/-! ### Clients that send none -/

/-- No streamed register is sent, no records are waited for, and whoever needs them fails. -/
structure State.Withheld (s : State β) : Prop where
  sends : ∀ i task, s.sendTasks i = some task → task.frame.register ∈ bulkRegisters →
    Unsent task.frame.register task.state
  idle : ∀ c count k, s.lock ≠ some (.collecting c count k)
  blocks : FailsStreams s.blocks

namespace State.Withheld

variable {s s' : State β} {e : Event β}

lemma init (timeoutHint : Option String) (password : Option ℤ) :
    (State.init β timeoutHint password).Withheld where
  sends _ _ h := by cases h
  idle _ _ _ h := by cases h
  blocks _ h := by cases h

/-- Only a send that starts can leave its first state in another way than by being cancelled. -/
private lemma sends_step (h : s.Withheld) (hst : Step s e s')
    (he : ∀ i task, e = .sendStart i → s.sendTasks i = some task →
      task.frame.register ∉ bulkRegisters) {i : ℕ} {task : SendTask}
    (ht : s'.sendTasks i = some task) (hr : task.frame.register ∈ bulkRegisters) :
    Unsent task.frame.register task.state := by
  have hc := hst.sendTasks_cases i
  rw [ht] at hc
  cases hc with
  | same ht' => exact h.sends i task ht'.symm hr
  | create => exact .created
  | cancel _ _ ht' => exact (h.sends i _ ht' hr).cancel
  | @start task ht' => exact absurd hr (he i task rfl ht')
  | @unwind task ht' hs =>
    have hu := h.sends i task ht' hr
    rw [hs] at hu
    cases hu
  | @finish task _ ht' hs =>
    have hu := (h.sends i task ht' hr).busy
    rw [hs] at hu
    cases hu

/-- No delivery of a streamed register comes to its end. -/
private lemma not_delivered (h : s.Withheld) (hs : s.Consistent) {c n : ℕ} {j : Job}
    {k : Except Exc j.Value → Program (Except Exc β)} {fl : Flight} {register : UInt8}
    {task : SendTask} (hl : s.lock = some (.delivering c j k n fl)) (hj : j.Streams register)
    (ht : s.sendTasks fl.id = some task) : task.state ≠ .done .returned := by
  obtain ⟨frame, state, hframe, ht'⟩ := (hs.flying _ _ _ _ _ hl).task
  rw [ht] at ht'
  cases ht'
  have hregister : frame.register ∈ bulkRegisters := hj.register_eq hframe ▸ hj.mem
  exact (h.sends fl.id _ ht hregister).ne_returned

private lemma idle_step (h : s.Withheld) (hs : s.Consistent) (hst : Step s e s') (c : ℕ) (count : ℤ)
    (k : Except Exc (List Bytes) → Program (Except Exc β)) :
    s'.lock ≠ some (.collecting c count k) := by
  intro hl
  cases hst with
  | collect hc hl' ht hd =>
    exact h.not_delivered hs hl' .history ht (Step.returned_of_delivered hs hl' ht hd)
  | enter =>
    obtain ⟨fl, hd, -⟩ := (s.goesOn_enter _ _ _ _).lock hl
    cases hd
  | next =>
    obtain ⟨fl, hd, -⟩ := (State.goesOn_nextFrame _ _ _ _ _ _).lock hl
    cases hd
  | cancel =>
    rw [interrupt_lock] at hl
    exact h.idle _ _ _ hl
  | expire =>
    rw [interrupt_lock] at hl
    cases hl
  | awaitSend | awaitReply | reply | failed | raised | stop | idle => cases hl
  | _ => exact h.idle _ _ _ hl

/-- What the delivery of a streamed register raises. -/
private lemma streamEnd_of_raises (h : s.Withheld) (hs : s.Consistent) {c n : ℕ} {j : Job}
    {k : Except Exc j.Value → Program (Except Exc β)} {fl : Flight} {cn : Cancellation}
    {register : UInt8} {task : SendTask} {x : Exc}
    (hl : s.lock = some (.delivering c j k n fl)) (hj : j.Streams register)
    (ht : s.sendTasks fl.id = some task) (hx : Step.Raises s cn j fl task x) :
    StreamEnd register x := by
  have hfl := hs.flying _ _ _ _ _ hl
  rcases hx with hx | ⟨hd, -⟩
  · rcases Delivery.raised_cases hx with ⟨-, rfl⟩ | ⟨o, ho, hx⟩ | ⟨-, -, hf | ⟨-, rfl⟩⟩
    · exact .cancelled
    · obtain ⟨frame, state, hframe, ht'⟩ := hfl.task
      rw [ht] at ht'
      cases ht'
      obtain rfl := hj.register_eq hframe
      have hu := h.sends fl.id _ ht hj.mem
      rw [ho] at hu
      cases hu with
      | cancelled =>
        cases hx
        exact .cancelled
      | refused t =>
        cases hx
        exact .refused t
    · exact hfl.dropped x hf ▸ .dropped
    · exact .cancelled
  · exact absurd (Step.returned_of_delivered hs hl ht hd) (h.not_delivered hs hl hj ht)

private lemma fails_of_ending (h : s.Withheld) (hs : s.Consistent) {b : Block}
    (hb : Step.Ending s e b) {register : UInt8} (hj : b.job.Streams register) :
    ∃ x, b.outcome = .error x ∧ (StreamError register x ∨ b.job.RaisesOwn x) := by
  cases hb with
  | reply hl ht hd => exact absurd hd (h.not_delivered hs hl hj ht)
  | error hc hl ht hframe hx =>
    exact ⟨_, rfl, .inl ((h.streamEnd_of_raises hs hl hj ht hx).translate _ _ _ _ _)⟩
  | written | nothing => cases hj
  | badCount hc hx => exact ⟨_, rfl, .inr ⟨_, rfl, hx⟩⟩
  | stop => exact ⟨_, rfl, .inl .cancelled⟩
  | idle hl => exact absurd hl (h.idle _ _ _)

/-- A step that starts no send of a streamed register. -/
lemma step (h : s.Withheld) (hs : s.Consistent) (hst : Step s e s')
    (he : ∀ i task, e = .sendStart i → s.sendTasks i = some task →
      task.frame.register ∉ bulkRegisters) : s'.Withheld where
  sends _ _ ht hr := h.sends_step hst he ht hr
  idle := h.idle_step hs hst
  blocks b hb register hj := by
    rcases hst.blocks_cases hs with hsame | ⟨b', hnew, hend⟩
    · exact h.blocks b (hsame ▸ hb) register hj
    · rw [hnew] at hb
      rcases List.mem_cons.1 hb with rfl | hb
      · exact h.fails_of_ending hs hend hj
      · exact h.blocks b hb register hj

end State.Withheld

/-! ### Runs of the tunnel -/

section

variable {s t : Tunnel β} {e : TunnelEvent β}

/-- A send has started and come to its end at once. -/
def State.refuseSend (s : State β) (i : ℕ) (task : SendTask) (o : Outcome Exc) : State β :=
  { s with
    sendTasks := Function.update s.sendTasks i (some { task with state := .done o })
    wire := s.wire ++ [i] }

/-- A send that raises in its first step ends with it. -/
lemma sends_of_refused {u v : State β} {i : ℕ} {err : Exc} {task : SendTask}
    (h : Run (machine β none none) Always u [.sendStart i, .sendEnd i (raisedOutcome err)] v)
    (ht : u.sendTasks i = some task) : v = u.refuseSend i task (raisedOutcome err) := by
  cases h with
  | @cons _ w _ _ _ _ hstart h =>
    cases h with
    | @cons _ x _ _ _ _ hend hnil =>
      cases hnil
      have hstart : Step u (.sendStart i) w := Step.of_step hstart
      have hend : Step w (.sendEnd i (raisedOutcome err)) v := Step.of_step hend
      cases hstart with
      | sendStart ht' =>
        rw [ht] at ht'
        cases ht'
        cases hend with
        | sendEnd ht' =>
          simp only [State.setSend, Function.update_self, Option.some.injEq] at ht'
          subst ht'
          simp [State.setSend, State.refuseSend]

/-- Only the first step of a send is one of the client's send. -/
lemma Tunnel.Causes.not_sendStart {es : List (Event β)} (h : s.Causes e es)
    (he : ∀ i, e ≠ .sendStart i) (i : ℕ) : .sendStart i ∉ es := by
  intro hmem
  cases h with
  | call hcall =>
    obtain rfl := List.mem_singleton.1 hmem
    cases hcall
  | sendStart | refused => exact he _ rfl
  | connect | disconnect | dropped | closed | sendUnwind | failed | silent | handed => simp at hmem

/-- What a streamed register makes of the first step of its send. -/
lemma Tunnel.clientEvents_streamed {i : ℕ} {task : SendTask} (ht : s.client.sendTasks i = some task)
    (hr : task.frame.register ∈ bulkRegisters) :
    s.clientEvents (.sendStart i) = some
      [.sendStart i, .sendEnd i (raisedOutcome (s.transport.refusal task.frame.register))] := by
  simp [Tunnel.clientEvents, ht, Ocpp.request_streamed _ hr]

/-- The first step of a send of a streamed register is its last. -/
lemma State.Withheld.refused {u : State β} (h : u.Withheld) {i : ℕ} {task : SendTask}
    (ht : u.sendTasks i = some task) (transport : Ocpp.Transport Unit Unit) {v : State β}
    (hrun : Run (machine β none none) Always u
      [.sendStart i, .sendEnd i (raisedOutcome (transport.refusal task.frame.register))] v) :
    v.Withheld := by
  obtain rfl := sends_of_refused hrun ht
  refine ⟨fun i' task' ht' hr => ?_, h.idle, h.blocks⟩
  by_cases hi : i' = i
  · subst hi
    simp only [State.refuseSend, Function.update_self, Option.some.injEq] at ht'
    subst ht'
    simp only [Ocpp.raisedOutcome_refusal]
    exact .refused transport
  · simp only [State.refuseSend, Function.update_of_ne hi] at ht'
    exact h.sends i' task' ht' hr

/-- Events that start no send. -/
lemma State.Withheld.of_run {u v : State β} {es : List (Event β)}
    (hrun : Run (machine β none none) Always u es v) (hs : u.Consistent) (h : u.Withheld)
    (hn : ∀ i, .sendStart i ∉ es) : v.Withheld := by
  have hstep : ∀ u e v, u.Consistent → u.Withheld → Always u e ∧ e ∈ es → Step u e v →
      v.Withheld := by
    rintro u e v hu hw ⟨-, he⟩ hst
    refine hw.step hu hst ?_
    rintro i task rfl
    exact absurd he (hn i)
  exact invariant_of_run hstep hrun.mem hs h

lemma withheld_step (hs : s.client.Consistent) (h : s.client.Withheld) (hst : s.step e = some t) :
    t.client.Withheld := by
  obtain ⟨es, client, rfl, hes, hcauses, hrun⟩ := Tunnel.causes_of_step hst
  have hrun : Run (machine β none none) Always s.client es client := Run.of_foldlM hrun
  cases e with
  | sendStart i =>
    obtain ⟨task, ht, es', rfl, hn⟩ : ∃ task, s.client.sendTasks i = some task ∧
        ∃ es', es = .sendStart i :: es' ∧ ∀ i', .sendStart i' ∉ es' := by
      simp only [Tunnel.clientEvents, Option.bind_eq_bind, Option.bind_eq_some_iff] at hes
      obtain ⟨task, ht, -⟩ := hes
      cases hcauses with
      | sendStart => exact ⟨task, ht, [], rfl, by simp⟩
      | refused => exact ⟨task, ht, _, rfl, by simp⟩
    by_cases hr : task.frame.register ∈ bulkRegisters
    · rw [Tunnel.clientEvents_streamed ht hr] at hes
      cases hes
      exact h.refused ht s.transport hrun
    · cases hrun with
      | @cons _ w _ _ _ _ hstart hrest =>
        have hstart : Step s.client (.sendStart i) w := Step.of_step hstart
        refine State.Withheld.of_run hrest (hs.step hstart) (h.step hs hstart ?_) hn
        rintro i' task' ⟨⟩ ht'
        rw [ht] at ht'
        cases ht'
        exact hr
  | call | connect | disconnect | notifyDisconnected | sendUnwind | transferEnd =>
    exact .of_run hrun hs h (hcauses.not_sendStart (by rintro i ⟨⟩))

lemma withheld_of_tunnel {P : Tunnel β → TunnelEvent β → Prop} {es : List (TunnelEvent β)}
    (h : TunnelRun password P es s) : s.client.Withheld := by
  have hI : ∀ u e v, u.client.Consistent ∧ u.client.SendsOwned →
      (tunnel β password).step u e = some v → v.client.Consistent ∧ v.client.SendsOwned :=
    fun u e v hu hst => owned_step hu hst
  have hJ : ∀ u e v, u.client.Consistent ∧ u.client.SendsOwned → u.client.Withheld → P u e →
      (tunnel β password).step u e = some v → v.client.Withheld :=
    fun u e v hu hw _ hst => withheld_step hu.1 hw hst
  exact h.invariant_from hI hJ ⟨.init _ _, .init _ _⟩ (.init _ _)

end

/-! ### Calls that need a streamed register -/

/-- The method reads the register, which streams records. -/
inductive Method.Streams : Method → UInt8 → Prop
  | readRaw {register : UInt8} {parameter : ℤ} (h : register ∈ bulkRegisters) :
      Streams (.readRaw register.toNat parameter) register
  | readString {register : UInt8} (h : register ∈ bulkRegisters) :
      Streams (.readString register.toNat) register
  | getHistory {count : ℤ} : Streams (.getHistory count) Register.historySessions.value

section

variable {c : ℕ} {bs : List Block} {register : UInt8}

lemma streamError_of_notEntered {x : Exc} (h : NotEntered x) : StreamError register x := by
  rcases h with rfl | rfl
  · exact .connection _
  · exact .cancelled

namespace Client.Ends

lemma of_streaming {j : Job} {r : Except Exc j.Value} (h : Client.Ends c (locked j) bs r)
    (hbs : FailsStreams bs) (hj : j.Streams register) :
    ∃ x, r = .error x ∧ (StreamError register x ∨ j.RaisesOwn x) := by
  by_cases hx : ∃ x, r = .error x ∧ NotEntered x
  · obtain ⟨x, rfl, hx⟩ := hx
    exact ⟨x, rfl, .inl (streamError_of_notEntered hx)⟩
  · obtain rfl := h.of_locked fun x hr hn => hx ⟨x, hr, hn⟩
    exact hbs _ (.head _) _ hj

/-- A request of a streamed register and what comes after it. -/
lemma of_streaming_read {α : Type} {register' parameter : ℤ} {f : Frame → Bytes → Client α}
    {r : Except Exc α}
    (h : Client.Ends c (do
      let frame ← raising (buildRead register' parameter)
      let payload ← request frame frame.register
      f frame payload) bs r)
    (hbs : FailsStreams bs) (hr : register' = register.toNat) (hmem : register ∈ bulkRegisters) :
    ∃ x, r = .error x ∧ (0 ≤ parameter ∧ parameter < 0x100000000 → StreamError register x) := by
  have hbuild : buildRead register' parameter = buildReadOf register parameter := by
    rw [hr, buildRead, byte_toNat, bind_ok]
  rw [hbuild] at h
  rcases h.of_bind with ⟨x, rfl, hx⟩ | ⟨bs₁, bs₂, frame, rfl, hread, hrest⟩
  · refine ⟨x, rfl, fun hfits => ?_⟩
    have hx := hx.of_raising.2
    rw [buildReadOf_eq_ok hfits] at hx
    cases hx
  · obtain ⟨rfl, hframe⟩ := hread.of_raising
    obtain rfl := register_buildReadOf hframe.symm
    have hj : (Job.request frame frame.register).Streams frame.register := .request hmem
    rcases hrest.of_bind with ⟨x, rfl, hx⟩ | ⟨bs₃, bs₄, payload, rfl, hok, -⟩
    · obtain ⟨x', hx', hstream | ⟨count, hj', -⟩⟩ := hx.of_streaming hbs hj
      · cases hx'
        exact ⟨x, rfl, fun _ => hstream⟩
      · cases hj'
    · have hbs₃ : FailsStreams bs₃ := fun b hb => hbs b (by simp [hb])
      obtain ⟨x, hx, -⟩ := hok.of_streaming hbs₃ hj
      cases hx

/-- A method that needs a streamed register fails. -/
lemma of_streams {m : Method} {r : Except Exc m.Result} (h : Client.Ends c m.program bs r)
    (hbs : FailsStreams bs) (hm : m.Streams register) :
    ∃ x, r = .error x ∧ (m.Fits → StreamError register x) := by
  cases hm with
  | readRaw hmem =>
    obtain ⟨x, rfl, hx⟩ := of_streaming_read h hbs rfl hmem
    exact ⟨x, rfl, fun hfits => hx hfits.2⟩
  | readString hmem =>
    obtain ⟨x, rfl, hx⟩ := of_streaming_read h hbs rfl hmem
    exact ⟨x, rfl, fun hfits => hx ⟨le_rfl, by norm_num⟩⟩
  | getHistory =>
    rcases Client.Ends.of_bind h with ⟨x, rfl, hx⟩ | ⟨bs₁, bs₂, records, rfl, hok, -⟩
    · obtain ⟨x', hx', hstream | ⟨count, hj, hcount⟩⟩ := hx.of_streaming hbs .history
      · cases hx'
        exact ⟨x, rfl, fun _ => hstream⟩
      · refine ⟨x, rfl, fun hfits => ?_⟩
        cases hj
        obtain ⟨frame, hframe⟩ := historyFrame_eq_ok hfits
        cases hframe.symm.trans hcount
    · have hbs₁ : FailsStreams bs₁ := fun b hb => hbs b (List.mem_append_left _ hb)
      obtain ⟨x, hx, -⟩ := hok.of_streaming hbs₁ .history
      cases hx

end Client.Ends

end

section

variable {s : Tunnel β} {es : List (TunnelEvent β)} {c : ℕ}

/-- Every call that needs a streamed register fails. -/
lemma streamError_of_finished (h : TunnelRun password Always es s) {m : Method} {register : UInt8}
    (hm : m.Streams register) {f : m.Result → β} {n : ℕ} {r : Except Exc β} {cn : Cancellation}
    (hspawn : .call (.spawn c (f <$> m.program).run n) ∈ es)
    (hc : s.client.calls c = some ⟨.finished r, cn⟩) :
    ∃ x, r = .error x ∧ (m.Fits → StreamError register x) := by
  obtain ⟨es', hrun, hmem⟩ :
      ∃ es', ClientRun (some Ocpp.timeoutHint) password Always es' s.client ∧
        ∀ e, .call e ∈ es → e.call.isSome = true → e ∈ es' :=
    client_of_tunnel (fun _ _ _ _ _ _ hrun => hrun) h
  have hbs : FailsStreams (s.client.blocksOf c) := fun b hb =>
    (withheld_of_tunnel h).blocks b (State.mem_blocksOf.1 hb).1
  cases traced_of_run hrun (hmem _ hspawn rfl) (.finished hc) with
  | went hres hl =>
    have hends : Client.Ends c (f <$> m.program) (s.client.blocksOf c) r := ⟨_, hres, hl⟩
    cases r with
    | error x => exact hends.of_map_error.of_streams hbs hm |>.imp fun _ hx => by simpa using hx
    | ok b =>
      obtain ⟨a, ha, -⟩ := hends.of_map
      obtain ⟨x, hx, -⟩ := ha.of_streams hbs hm
      cases hx
  | cancelled hp =>
    cases hp
    exact ⟨_, rfl, fun _ => .cancelled⟩

/-- A delivery whose send has raised is abandoned, unless its call has been cancelled. -/
lemma State.run_of_raised {u : State β} {n : ℕ} {j : Job}
    {k : Except Exc j.Value → Program (Except Exc β)} {fl : Flight} {cn : Cancellation}
    {frame : Frame} {x : Exc} (hc : u.calls c = some ⟨.inside, cn⟩) (hm : cn.mustCancel = false)
    (hl : u.lock = some (.delivering c j k n fl)) (hp : fl.point ≠ .reply)
    (ht : u.sendTasks fl.id = some ⟨c, frame, .done (.raised x)⟩) :
    u.step (.run c) = some (u.abandon c cn.requests j k frame fl x) := by
  have hresume : Delivery.resume fl.point cn.mustCancel (.done (.raised x)) (u.futures fl.id) =
      .raised x := by
    rw [hm]
    cases hpoint : fl.point with
    | wait | send => rfl
    | reply => exact absurd hpoint hp
  simp only [State.step, State.runCall, hc, hl, Option.bind_eq_bind, Option.bind_some, if_true,
    State.runDelivering, ht, hresume]

/-- The first step of the send of a streamed register. -/
lemma Tunnel.step_sendStart_streamed (hcon : s.transport.isConnected = true) {i : ℕ} {frame : Frame}
    (ht : s.client.sendTasks i = some ⟨c, frame, .created⟩) (hr : frame.register ∈ bulkRegisters) :
    s.step (.sendStart i) = some ⟨s.client.refuseSend i ⟨c, frame, .created⟩
      (.raised (Ocpp.streamed frame.register)), s.transport⟩ := by
  have hevents := Tunnel.clientEvents_streamed ht hr
  rw [Ocpp.raisedOutcome_refusal, Ocpp.Transport.refusal, if_pos hcon] at hevents
  have hne : (Outcome.raised (Ocpp.streamed frame.register) : Outcome Exc) ≠
      .raised .cancelledError := by
    rintro ⟨⟩
  simp [Tunnel.step, hevents, Tunnel.nextTransport, State.step, State.startSend, ht,
    State.endSend, State.setSend, State.refuseSend, TaskState.busy, hne]

/-- The send of a streamed register fails its job with its first step, unless the call has been
cancelled. -/
lemma refused_at_once (hs : s.client.Consistent) (hcon : s.transport.isConnected = true) {n : ℕ}
    {j : Job} {k : Except Exc j.Value → Program (Except Exc β)} {fl : Flight} {cn : Cancellation}
    {register : UInt8} {frame : Frame} (hj : j.Streams register)
    (hl : s.client.lock = some (.delivering c j k n fl))
    (hc : s.client.calls c = some ⟨.inside, cn⟩) (hm : cn.mustCancel = false)
    (ht : s.client.sendTasks fl.id = some ⟨c, frame, .created⟩) :
    ∃ u v cn', s.step (.sendStart fl.id) = some u ∧ u.step (.call (.run c)) = some v ∧
      v.client.calls c = some ⟨.running (k (.error (Ocpp.streamed register))), cn'⟩ := by
  have hfl := hs.flying _ _ _ _ _ hl
  obtain ⟨frame', state, hframe, ht'⟩ := hfl.task
  rw [ht] at ht'
  cases ht'
  obtain rfl := hj.register_eq hframe
  have hp : fl.point ≠ .reply := fun hp => by
    obtain ⟨-, frame', ht'⟩ := hfl.atReply hp
    rw [ht] at ht'
    cases ht'
  have hstart := Tunnel.step_sendStart_streamed hcon ht hj.mem
  let w := s.client.refuseSend fl.id ⟨c, frame, .created⟩ (.raised (Ocpp.streamed frame.register))
  have hrun : w.step (.run c) = some (w.abandon c cn.requests j k frame fl
      (Ocpp.streamed frame.register)) :=
    State.run_of_raised hc hm hl hp (Function.update_self ..)
  have hcall := w.abandon_calls c cn.requests j k frame fl (Ocpp.streamed frame.register)
  have hleave : (leaveScope fl.scope cn.requests (Ocpp.streamed frame.register)).2 =
      Ocpp.streamed frame.register := by
    simp [leaveScope, Ocpp.streamed]
  rw [hleave] at hcall
  have hstep : (⟨w, s.transport⟩ : Tunnel β).step (.call (.run c)) = _ :=
    (Tunnel.step_call _ rfl).trans (congrArg _ hrun)
  exact ⟨_, _, _, hstart, hstep, hcall⟩

end

/-- Over the tunnel, no send of a register that streams records gets as far as `data_transfer`, and
no records are waited for. Every call that needs such a register fails: unless its arguments do not
fit, of a lost connection, of its deadline or its cancellation, or because the tunnel cannot carry
the register. While the transport is connected, a send that starts fails its job with the last,
unless its call has been asked to cancel. -/
theorem streams_over_tunnel {s : Tunnel β} {es : List (TunnelEvent β)}
    (h : TunnelRun password Always es s) :
    (∀ i task, s.client.sendTasks i = some task → task.frame.register ∈ bulkRegisters →
      Unsent task.frame.register task.state) ∧
    (∀ c count k, s.client.lock ≠ some (.collecting c count k)) ∧
    (∀ (m : Method) register, m.Streams register → ∀ (f : m.Result → β) c n r cn,
      .call (.spawn c (f <$> m.program).run n) ∈ es →
      s.client.calls c = some ⟨.finished r, cn⟩ →
      ∃ x, r = .error x ∧ (m.Fits → StreamError register x)) ∧
    ∀ c j k n fl cn register frame, j.Streams register →
      s.client.lock = some (.delivering c j k n fl) → s.client.calls c = some ⟨.inside, cn⟩ →
      cn.mustCancel = false → s.client.sendTasks fl.id = some ⟨c, frame, .created⟩ →
      s.transport.isConnected = true →
      ∃ u v cn', s.step (.sendStart fl.id) = some u ∧ u.step (.call (.run c)) = some v ∧
        v.client.calls c = some ⟨.running (k (.error (Ocpp.streamed register))), cn'⟩ := by
  have hw := withheld_of_tunnel h
  refine ⟨hw.sends, hw.idle, fun m register hm f c n r cn => streamError_of_finished h hm, ?_⟩
  intro c j k n fl cn register frame hj hl hc hm ht hcon
  exact refused_at_once (owned_of_tunnel h).1 hcon hj hl hc hm ht

/-- The history is asked for over the tunnel. -/
def historyOverTunnel : List (TunnelEvent (List ChargingSession)) :=
  [.connect, .call (.spawn 0 (id <$> (Method.getHistory 40).program).run 0), .call (.run 0),
    .call (.run 0), .call (.run 0), .sendStart 0, .call (.run 0), .call (.run 0)]

theorem streams_over_tunnel_history :
    ∃ s, TunnelRun none Always historyOverTunnel s ∧
      ∃ x, (.error (Ocpp.streamed 0x68) : Except Exc (List ChargingSession)) = .error x ∧
        ((Method.getHistory 40).Fits → StreamError 0x68 x) := by
  obtain ⟨s, h, cn, hc⟩ : ∃ s, TunnelRun none Always historyOverTunnel s ∧
      ∃ cn, s.client.calls 0 = some ⟨.finished (.error (Ocpp.streamed 0x68)), cn⟩ :=
    ⟨_, Run.of_exec rfl, _, rfl⟩
  exact ⟨s, h, (streams_over_tunnel h).2.2.1 (.getHistory 40) _ .getHistory id 0 0 _ cn
    (.tail _ (.head _)) hc⟩

end SpinevBle
