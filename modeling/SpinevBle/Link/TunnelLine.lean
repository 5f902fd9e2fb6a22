import SpinevBle.Link.Joined

/-!
# A script over the tunnel

One script, its client, an `OcppTunnelTransport` and a central system that answers a `DataTransfer`
as it likes, or not at all. A central system with the tunnel before it is a peer, and the tunnel is
a link to that peer whose replies arrive with their sends.
-/

namespace SpinevBle

open Asyncio Interaction Transition

variable {τ : Type}

/-! ### Central systems -/

/-- How a call of `data_transfer` ends, if it does, by the text that it is called with. -/
abbrev Central (τ : Type) := τ → String → τ × Option Ocpp.TransferEnd

/-- What comes of a frame whose `data_transfer` ends like this. -/
def Ocpp.comesTo (register : UInt8) : Option Ocpp.TransferEnd → Reply
  | none => .hung
  | some e =>
    match Ocpp.reply register e with
    | .error err => .raised err
    | .ok none => .nothing
    | .ok (some payload) => .payload payload

lemma Ocpp.comesTo_ne_refused (register : UInt8) (e : Option Ocpp.TransferEnd) (err : Exc) :
    comesTo register e ≠ .refused err := by
  unfold comesTo
  split
  · nofun
  · split <;> nofun

lemma Ocpp.startEvents_comesTo (register : UInt8) (e : Option Ocpp.TransferEnd) (i : ℕ) :
    (comesTo register e).startEvents i = [.sendStart i] := by
  cases h : comesTo register e with
  | refused err => exact absurd h (comesTo_ne_refused _ _ _)
  | nothing | payload p | raised err | hung => rfl

/-- The central system as its client meets it. -/
def tunnelPeer (central : Central τ) : Peer τ := fun s frame =>
  match (Ocpp.Transport.init.asyncConnect () ()).request frame.bytes with
  | .error err => (s, .refused err)
  | .ok text =>
    let (t, e) := central s text
    (t, Ocpp.comesTo frame.register e)

/-! ### The system -/

def Act.tunnelEvent : Act → TunnelEvent Turn
  | .spawn c p => .call (.spawn c p 0)
  | .connect => .connect
  | .disconnect => .disconnect

/-- `replies` is what comes of the frames so far and `ends` how their calls of `data_transfer` end,
by flight. -/
structure TunnelLine (τ : Type) where
  tunnel : Tunnel Turn
  session : Session
  central : τ
  replies : ℕ → Option Reply
  ends : ℕ → Option Ocpp.TransferEnd

namespace TunnelLine

def init (password : Option ℤ) (script : Script) (s : τ) : TunnelLine τ :=
  ⟨.init Turn password, .init script, s, fun _ => none, fun _ => none⟩

/-- As for a line, but no reply arrives on its own. -/
def step (central : Central τ) (s : TunnelLine τ) : LineEvent → Option (TunnelLine τ)
  | .next => do
    let (act, session) ← s.session.next
    let tunnel ← s.tunnel.step act.tunnelEvent
    return { s with tunnel, session }
  | .run => do
    let tunnel ← s.tunnel.step (.call (.run (← s.session.calling)))
    return { s with tunnel }
  | .returned => do
    let session ← s.session.take s.tunnel.client
    return { s with session }
  | .deadline => do
    let c ← s.session.calling
    if overdue s.tunnel.client s.replies then
      let tunnel ← s.tunnel.step (.call (.expire c))
      return { s with tunnel }
    else none
  | .sendStart i => do
    let task ← s.tunnel.client.sendTasks i
    let tunnel ← s.tunnel.step (.sendStart i)
    match s.tunnel.transport.request task.frame.bytes with
    | .error err => return { s with tunnel, replies := Function.update s.replies i (some (.refused err)) }
    | .ok text =>
      let (t, e) := central s.central text
      let r := Ocpp.comesTo task.frame.register e
      return { s with tunnel, central := t, replies := Function.update s.replies i (some r),
                      ends := Function.update s.ends i e }
  | .arrive _ => none
  | .sendEnd i => do
    let tunnel ← s.tunnel.step (.transferEnd i (← s.ends i))
    return { s with tunnel }
  | .sendQuit i => do
    let task ← s.tunnel.client.sendTasks i
    if s.replies i = some .hung ∧ task.state = .cancelling then
      let tunnel ← s.tunnel.step (.transferEnd i (.raised .cancelledError))
      return { s with tunnel }
    else none

end TunnelLine

/-- One script over the tunnel. -/
def tunnelLine (central : Central τ) (password : Option ℤ) (script : Script) (s : τ) :
    System (TunnelLine τ) LineEvent :=
  ⟨.init password script s, TunnelLine.step central⟩

/-- The runs of a script over the tunnel. -/
abbrev TunnelLineRun (central : Central τ) (password : Option ℤ) (script : Script) (s : τ)
    (es : List LineEvent) (t : TunnelLine τ) : Prop :=
  Run (tunnelLine central password script s) Always (.init password script s) es t

/-! ### The tunnel is a link -/

/-- What is known of one flight: how its call of `data_transfer` ends, what comes of its frame, the
reply that has not arrived yet, and its send. -/
inductive Tied : Option Ocpp.TransferEnd → Option Reply → Option Bytes → Option SendTask → Prop
  | unsent {task} : Tied none none none task
  | refused {err o c frame} : Tied none (some (.refused err)) none (some ⟨c, frame, .done o⟩)
  | sent {e c frame state} (hb : state.busy = true) :
      Tied e (some (Ocpp.comesTo frame.register e)) (Ocpp.comesTo frame.register e).payload?
        (some ⟨c, frame, state⟩)
  | ended {e o c frame} :
      Tied e (some (Ocpp.comesTo frame.register e)) none (some ⟨c, frame, .done o⟩)

/-- Nothing is known of a flight whose send has not started. -/
lemma Tied.of_created {er : Option Ocpp.TransferEnd} {r : Option Reply} {d : Option Bytes} {c : ℕ}
    {frame : Frame} (h : Tied er r d (some ⟨c, frame, .created⟩)) : er = none := by
  cases h with
  | unsent => rfl
  | sent hb => cases hb

/-- The tunnel and the link are in the same state. -/
structure TunnelLine.Sim (u : TunnelLine τ) (s : Line τ) : Prop where
  client : u.tunnel.client = s.client
  session : u.session = s.session
  central : u.central = s.peer
  replies : u.replies = s.replies
  connected : u.tunnel.transport.isConnected = s.client.connected
  tied : ∀ i, Tied (u.ends i) (s.replies i) (s.due i) (s.client.sendTasks i)

/-- A step of the client that neither starts a send nor ends it leaves what is known of its
flight. -/
lemma Tied.step {client client' : State Turn} {e : Event Turn} {i : ℕ}
    {er : Option Ocpp.TransferEnd} {r : Option Reply} {d : Option Bytes}
    (h : Tied er r d (client.sendTasks i)) (hs : client.Consistent)
    (hst : client.step e = some client') (hstart : e ≠ .sendStart i)
    (hend : ∀ o, e ≠ .sendEnd i o) : Tied er r d (client'.sendTasks i) := by
  have hc := (Step.of_step hst).sendTasks_cases i
  generalize client'.sendTasks i = task' at hc
  cases hc with
  | same ht => exact ht ▸ h
  | create hi =>
    rw [(hs.unborn i hi.ge).1] at h
    cases h
    exact .unsent
  | cancel hl hi ht =>
    rw [ht] at h
    cases h with
    | unsent => exact .unsent
    | refused => exact .refused
    | sent hb =>
      simp only [TaskState.cancel_of_busy hb]
      exact .sent rfl
    | ended => exact .ended
  | start => exact absurd rfl hstart
  | unwind ht hs =>
    rw [ht] at h
    cases h with
    | unsent => exact .unsent
    | refused | ended => cases hs
    | sent => exact .sent rfl
  | finish => exact absurd rfl (hend _)

section

variable {central : Central τ} {hint : Option String} {u : TunnelLine τ} {s : Line τ}

lemma Tunnel.step_call {β : Type} (v : Tunnel β) {e : Event β} (he : e.call.isSome = true) :
    v.step (.call e) = (v.client.step e).map (⟨·, v.transport⟩) := by
  simp only [Tunnel.step, Tunnel.clientEvents, he, if_true, Option.bind_eq_bind, Option.bind_some,
    List.foldlM_cons, List.foldlM_nil, Tunnel.nextTransport]
  cases v.client.step e <;> rfl

/-- A call takes a step. -/
private lemma call_rel (h : u.Sim s) (hs : s.Sound hint) {e : Event Turn} (he : e.call.isSome = true)
    (session : Session) :
    Option.Rel TunnelLine.Sim
      ((u.tunnel.step (.call e)).map fun tunnel => { u with tunnel := tunnel, session := session })
      ((s.client.step e).map fun client => { s with client := client, session := session }) := by
  rw [Tunnel.step_call _ he, h.client]
  cases hst : s.client.step e with
  | none => exact .none
  | some client =>
    have hu : client.connected = s.client.connected := (Step.of_step hst).connected <| by
      rintro up rfl
      cases he
    refine .some ⟨rfl, rfl, h.central, h.replies, h.connected.trans hu.symm, fun i => ?_⟩
    exact (h.tied i).step hs.consistent hst (by rintro rfl; cases he) (by rintro o rfl; cases he)

private lemma next_rel (h : u.Sim s) (hs : s.Sound hint) :
    Option.Rel TunnelLine.Sim (u.step central .next)
      (Line.stepJoined (tunnelPeer central) s .next) := by
  simp only [TunnelLine.step, Line.stepJoined, Line.step, h.session, Option.bind_eq_bind]
  cases hn : s.session.next with
  | none => exact .none
  | some v =>
    obtain ⟨act, session⟩ := v
    cases act with
    | spawn c p =>
      have hrel := call_rel h hs (e := .spawn c p 0) rfl session
      rw [Option.map_eq_bind, Option.map_eq_bind] at hrel
      exact hrel
    | connect =>
      refine .some ⟨congrArg (fun client => { client with connected := true }) h.client, rfl,
        h.central, h.replies, ?_, h.tied⟩
      simp only [Act.tunnelEvent, Tunnel.nextTransport]
      split_ifs with hu
      · exact hu
      · rfl
    | disconnect =>
      exact .some ⟨congrArg (fun client => { client with connected := false }) h.client, rfl,
        h.central, h.replies, rfl, h.tied⟩

private lemma run_rel (h : u.Sim s) (hs : s.Sound hint) :
    Option.Rel TunnelLine.Sim (u.step central .run)
      (Line.stepJoined (tunnelPeer central) s .run) := by
  simp only [TunnelLine.step, Line.stepJoined, Line.step, h.session, Option.bind_eq_bind]
  cases hc : s.session.calling with
  | none => exact .none
  | some c =>
    have hrel := call_rel h hs (e := .run c) rfl s.session
    rw [Option.map_eq_bind, Option.map_eq_bind] at hrel
    exact hrel

private lemma deadline_rel (h : u.Sim s) (hs : s.Sound hint) :
    Option.Rel TunnelLine.Sim (u.step central .deadline)
      (Line.stepJoined (tunnelPeer central) s .deadline) := by
  simp only [TunnelLine.step, Line.stepJoined, Line.step, h.session, h.client, h.replies,
    Option.bind_eq_bind]
  cases hc : s.session.calling with
  | none => exact .none
  | some c =>
    have hrel := call_rel h hs (e := .expire c) rfl s.session
    simp only [Option.map_eq_bind, h.replies] at hrel
    simp only [Option.bind_some]
    split_ifs
    · exact hrel
    · exact .none

private lemma returned_rel (h : u.Sim s) :
    Option.Rel TunnelLine.Sim (u.step central .returned)
      (Line.stepJoined (tunnelPeer central) s .returned) := by
  simp only [TunnelLine.step, Line.stepJoined, Line.step, h.session, h.client]
  cases s.session.take s.client with
  | none => exact .none
  | some session => exact .some ⟨h.client, rfl, h.central, h.replies, h.connected, h.tied⟩

/-- Before `data_transfer` is called, a frame goes through the tunnel as it does through the
link. -/
private lemma ask_eq (h : u.Sim s) (frame : Frame) :
    s.ask (tunnelPeer central) frame =
      match u.tunnel.transport.request frame.bytes with
      | .error err => (u.central, .refused err)
      | .ok text =>
        ((central u.central text).1, Ocpp.comesTo frame.register (central u.central text).2) := by
  have hu := h.connected
  obtain ⟨⟨client, ⟨onFrame, onDisconnect⟩⟩, session, c, replies, ends⟩ := u
  obtain rfl : c = s.peer := h.central
  cases onFrame with
  | none =>
    have hu : s.client.connected = false := hu.symm
    simp only [Line.ask, hu]
    rfl
  | some _ =>
    have hu : s.client.connected = true := hu.symm
    simp only [Line.ask, hu, if_true, tunnelPeer]
    rfl

/-- The first step of a send. -/
private lemma started (h : u.Sim s) {i : ℕ} {task : SendTask}
    (ht : s.client.sendTasks i = some task) {client : State Turn} (c : τ) {r : Reply}
    (ends : ℕ → Option Ocpp.TransferEnd) (hends : ∀ i', i' ≠ i → ends i' = u.ends i')
    (hr : (∃ err, r = .refused err ∧ ends i = u.ends i) ∨
      r = Ocpp.comesTo task.frame.register (ends i))
    (hst : (r.startEvents i).foldlM State.step s.client = some client) :
    TunnelLine.Sim
      { u with tunnel := ⟨client, u.tunnel.transport⟩, central := c, ends := ends
               replies := Function.update u.replies i (some r) }
      { s with client := client, peer := c, replies := Function.update s.replies i (some r)
               due := Function.update s.due i r.payload? } := by
  obtain ⟨hc, state, wire, rfl, hstate⟩ := startEvents_cases ht hst
  obtain ⟨c', frame, _⟩ := task
  obtain rfl : _ = TaskState.created := hc
  refine ⟨rfl, h.session, rfl, by rw [h.replies], h.connected, fun i' => ?_⟩
  by_cases hi : i' = i
  · subst hi
    have htied := h.tied i'
    rw [ht] at htied
    simp only [Function.update_self, State.setSend]
    rcases hstate with ⟨rfl, hrefused⟩ | ⟨err, rfl, rfl⟩
    · obtain ⟨err, rfl, -⟩ | rfl := hr
      · exact absurd rfl (hrefused err)
      · exact .sent rfl
    · obtain ⟨_, -, he⟩ | hr := hr
      · rw [he]
        rw [htied.of_created]
        exact .refused
      · exact absurd hr.symm (Ocpp.comesTo_ne_refused _ _ _)
  · simpa only [Function.update_of_ne hi, State.setSend, hends i' hi] using h.tied i'

private lemma sendStart_rel (h : u.Sim s) (i : ℕ) :
    Option.Rel TunnelLine.Sim (u.step central (.sendStart i))
      (Line.stepJoined (tunnelPeer central) s (.sendStart i)) := by
  simp only [TunnelLine.step, Line.stepJoined, Line.step, h.client, Option.bind_eq_bind]
  cases ht : s.client.sendTasks i with
  | none => exact .none
  | some task =>
    simp only [Option.bind_some, ask_eq h, Tunnel.step, Tunnel.clientEvents, h.client, ht,
      Option.bind_eq_bind]
    cases hreq : u.tunnel.transport.request task.frame.bytes with
    | error err =>
      simp only [Option.bind_some]
      cases hst : ((Reply.refused err).startEvents i).foldlM State.step s.client with
      | none =>
        rw [Reply.startEvents] at hst
        rw [hst]
        exact .none
      | some client =>
        have hst' := hst
        rw [Reply.startEvents] at hst'
        rw [hst']
        exact .some (started h ht u.central u.ends (fun _ _ => rfl) (.inl ⟨err, rfl, rfl⟩) hst)
    | ok text =>
      simp only [Option.bind_some, Ocpp.startEvents_comesTo]
      cases hst : [(.sendStart i : Event Turn)].foldlM State.step s.client with
      | none => exact .none
      | some client =>
        rw [← Ocpp.startEvents_comesTo task.frame.register (central u.central text).2] at hst
        refine .some (started h ht _ (Function.update u.ends i (central u.central text).2)
          (fun _ hi => Function.update_of_ne hi _ _) (.inr ?_) hst)
        rw [Function.update_self]

/-- A send ends, of whose reply nothing is left to arrive. -/
private lemma end_rel (h : u.Sim s) {client : State Turn} {i : ℕ} (o : Outcome Exc)
    (hs : client.Consistent) (hu : client.connected = s.client.connected) {c : ℕ} {frame : Frame}
    {state : TaskState Exc} (ht : client.sendTasks i = some ⟨c, frame, state⟩)
    (hr : s.replies i = some (Ocpp.comesTo frame.register (u.ends i)))
    (htied : ∀ i', i' ≠ i → Tied (u.ends i') (s.replies i') (s.due i') (client.sendTasks i')) :
    Option.Rel TunnelLine.Sim
      ((client.step (.sendEnd i o)).map fun client =>
        { u with tunnel := ⟨client, u.tunnel.transport⟩ })
      ((client.step (.sendEnd i o)).map fun client =>
        { s with client := client, due := Function.update s.due i none }) := by
  cases hst : client.step (.sendEnd i o) with
  | none => exact .none
  | some client' =>
    have hu' : client'.connected = client.connected := (Step.of_step hst).connected (by rintro _ ⟨⟩)
    refine .some ⟨rfl, h.session, h.central, h.replies, h.connected.trans (hu'.trans hu).symm,
      fun i' => ?_⟩
    by_cases hi : i' = i
    · subst hi
      cases Step.of_step hst with
      | sendEnd ht' hb ho =>
        cases ht'.symm.trans ht
        simp only [Function.update_self, State.setSend, hr]
        exact .ended
    · simp only [Function.update_of_ne hi]
      refine (htied i' hi).step hs hst (by rintro ⟨⟩) ?_
      rintro o' he
      cases he
      exact hi rfl

/-- What the client goes through when a call of `data_transfer` has come to this. -/
def Line.transferred (s : Line τ) (i : ℕ) : Except Exc (Option Bytes) → Option (State Turn)
  | .error err => s.client.step (.sendEnd i (raisedOutcome err))
  | .ok none => s.client.step (.sendEnd i .returned)
  | .ok (some p) => (s.notified p).bind fun client => client.step (.sendEnd i .returned)

private lemma transferEnd_eq (h : u.Sim s) {i : ℕ} {task : SendTask}
    (ht : s.client.sendTasks i = some task) (e : Ocpp.TransferEnd) :
    u.tunnel.step (.transferEnd i e) =
      (s.transferred i (Ocpp.reply task.frame.register e)).map (⟨·, u.tunnel.transport⟩) := by
  have hu := h.connected
  simp only [Tunnel.step, Tunnel.clientEvents, h.client, ht, Option.bind_eq_bind, Option.bind_some,
    Tunnel.nextTransport]
  cases Ocpp.reply task.frame.register e with
  | error err =>
    simp only [Line.transferred]
    cases hst : s.client.step (.sendEnd i (raisedOutcome err)) <;> simp [hst]
  | ok payload =>
    cases payload with
    | none =>
      simp only [Line.transferred]
      cases hst : s.client.step (.sendEnd i .returned) <;> simp [hst]
    | some p =>
      simp only [Line.transferred]
      rw [Ocpp.Transport.isConnected] at hu
      cases hon : u.tunnel.transport.onFrame with
      | none =>
        have hu : s.client.connected = false := by rw [← hu, hon]; rfl
        cases hst : s.client.step (.sendEnd i .returned) <;> simp [hst, Line.notified, hu]
      | some _ =>
        have hu : s.client.connected = true := by rw [← hu, hon]; rfl
        cases hn : s.client.step (.notify p) with
        | none => simp [hn, Line.notified, hu]
        | some client =>
          cases hst : client.step (.sendEnd i .returned) <;> simp [hst, hn, Line.notified, hu]

/-- The end of a send whose reply has arrived, or that has none. -/
private lemma stepJoined_end {r : Reply} {o : Outcome Exc} {i : ℕ} {peer : Peer τ}
    (hr : s.replies i = some r) (ho : r.outcome = some o) (hd : s.due i = none) :
    Line.stepJoined peer s (.sendEnd i) = (s.client.step (.sendEnd i o)).map fun client =>
      { s with client := client, due := Function.update s.due i none } := by
  have hdue : Function.update s.due i none = s.due := by rw [← hd, Function.update_eq_self]
  simp only [Line.stepJoined, Line.step, hd, Option.isSome_none, Bool.false_eq_true, if_false, hr,
    ho, hdue, Option.bind_eq_bind, Option.bind_some]
  cases s.client.step (.sendEnd i o) <;> rfl

/-- The end of a send whose reply arrives with it. -/
private lemma stepJoined_arrive {p : Bytes} {i : ℕ} {peer : Peer τ}
    (hr : s.replies i = some (.payload p)) (hd : s.due i = some p) :
    Line.stepJoined peer s (.sendEnd i) = (s.notified p).bind fun client =>
      (client.step (.sendEnd i .returned)).map fun client =>
        { s with client := client, due := Function.update s.due i none } := by
  simp only [Line.stepJoined, Line.step, hd, Option.isSome_some, if_true, hr, Reply.outcome,
    List.foldlM_cons, List.foldlM_nil, Option.bind_eq_bind, Option.bind_some]
  cases s.notified p with
  | none => rfl
  | some client => cases hst : client.step (.sendEnd i .returned) <;> simp [hst, hr]

/-- The end of a call of `data_transfer` that the transport has waited for. -/
private lemma step_sendEnd {e : Ocpp.TransferEnd} (h : u.Sim s) {i : ℕ} {task : SendTask}
    (ht : s.client.sendTasks i = some task) (he : u.ends i = some e) :
    u.step central (.sendEnd i) =
      (s.transferred i (Ocpp.reply task.frame.register e)).map fun client =>
        { u with tunnel := ⟨client, u.tunnel.transport⟩ } := by
  simp only [TunnelLine.step, he, transferEnd_eq h ht, Option.bind_eq_bind, Option.bind_some]
  cases s.transferred i (Ocpp.reply task.frame.register e) <;> rfl

/-- A notification leaves the sends and the link alone. -/
private lemma notified_keeps {p : Bytes} {client : State Turn} (hs : s.Sound hint)
    (hn : s.notified p = some client) : client.Consistent ∧
      client.connected = s.client.connected ∧ client.sendTasks = s.client.sendTasks := by
  unfold Line.notified at hn
  split_ifs at hn
  · have hst := Step.of_step hn
    exact ⟨hs.consistent.step hst, hst.connected nofun, by cases hst <;> rfl⟩
  · cases hn
    exact ⟨hs.consistent, rfl, rfl⟩

private lemma sendEnd_rel (h : u.Sim s) (hs : s.Sound hint) (i : ℕ) :
    Option.Rel TunnelLine.Sim (u.step central (.sendEnd i))
      (Line.stepJoined (tunnelPeer central) s (.sendEnd i)) := by
  have htied := h.tied i
  generalize he : u.ends i = er at htied
  generalize hr : s.replies i = r at htied
  generalize hd : s.due i = d at htied
  generalize ht : s.client.sendTasks i = task at htied
  have hquiet : er = none → u.step central (.sendEnd i) = none := by
    rintro rfl
    simp [TunnelLine.step, he]
  have hdone : ∀ {c frame o} (client : State Turn), client.sendTasks i = some ⟨c, frame, .done o⟩ →
      ∀ o', client.step (.sendEnd i o') = none := fun client ht o' => by
    simp [State.step, State.endSend, ht, TaskState.busy]
  cases htied with
  | unsent =>
    rw [hquiet rfl]
    simp only [Line.stepJoined, Line.step, hd, hr]
    exact .none
  | refused =>
    rw [hquiet rfl, stepJoined_end hr rfl hd, hdone _ ht]
    exact .none
  | @sent _ c frame state hb =>
    cases er with
    | none =>
      rw [hquiet rfl]
      simp only [Line.stepJoined, Line.step, hd, hr]
      exact .none
    | some e =>
      have hreply : s.replies i = some (Ocpp.comesTo frame.register (u.ends i)) := he ▸ hr
      have hend := fun o => end_rel h o hs.consistent rfl ht hreply fun i' _ => h.tied i'
      rw [step_sendEnd h ht he]
      simp only [Ocpp.comesTo] at hr hd
      cases hrep : Ocpp.reply frame.register e with
      | error err =>
        rw [hrep] at hr hd
        rw [stepJoined_end hr rfl hd]
        exact hend _
      | ok payload =>
        cases payload with
        | none =>
          rw [hrep] at hr hd
          rw [stepJoined_end hr rfl hd]
          exact hend _
        | some p =>
          rw [hrep] at hr hd
          rw [stepJoined_arrive hr hd, Line.transferred]
          cases hn : s.notified p with
          | none => exact .none
          | some client =>
            obtain ⟨hcons, hu, htasks⟩ := notified_keeps hs hn
            exact end_rel h .returned hcons hu (htasks ▸ ht) hreply fun i' _ => htasks ▸ h.tied i'
  | @ended _ o c frame =>
    cases er with
    | none =>
      rw [hquiet rfl]
      simp only [Line.stepJoined, Line.step, hd, hr]
      exact .none
    | some e =>
      have hright : Line.stepJoined (tunnelPeer central) s (.sendEnd i) = none := by
        simp only [Line.stepJoined, Line.step, hd, hr, Option.bind_eq_bind, Option.bind_some]
        cases (Ocpp.comesTo frame.register (some e)).outcome with
        | none => rfl
        | some o' => simp [hdone _ ht]
      have hleft : s.transferred i (Ocpp.reply frame.register e) = none := by
        cases Ocpp.reply frame.register e with
        | error err => exact hdone _ ht _
        | ok payload =>
          cases payload with
          | none => exact hdone _ ht _
          | some p =>
            simp only [Line.transferred, Option.bind_eq_none_iff]
            intro client hn
            obtain ⟨-, -, htasks⟩ := notified_keeps hs hn
            exact hdone client (htasks ▸ ht) _
      rw [step_sendEnd h ht he, hright, hleft]
      exact .none

private lemma sendQuit_rel (h : u.Sim s) (hs : s.Sound hint) (i : ℕ) :
    Option.Rel TunnelLine.Sim (u.step central (.sendQuit i))
      (Line.stepJoined (tunnelPeer central) s (.sendQuit i)) := by
  simp only [TunnelLine.step, Line.stepJoined, Line.step, h.client, Option.bind_eq_bind]
  cases ht : s.client.sendTasks i with
  | none => exact .none
  | some task =>
    simp only [Option.bind_some, transferEnd_eq h ht, h.replies]
    split_ifs with hq
    · obtain ⟨hr, hd⟩ :
          s.replies i = some (Ocpp.comesTo task.frame.register (u.ends i)) ∧ s.due i = none := by
        have htied := h.tied i
        rw [ht, hq.1] at htied
        generalize u.ends i = er at htied ⊢
        generalize s.due i = d at htied ⊢
        generalize hr : some Reply.hung = r at htied
        cases htied with
        | unsent | refused => cases hr
        | sent => exact ⟨hq.1.trans hr, by rw [← Option.some.inj hr]; rfl⟩
        | ended => cases hq.2
      have hrel := end_rel h .cancelled hs.consistent rfl ht hr fun i' _ => h.tied i'
      have hdue : Function.update s.due i none = s.due := by rw [← hd, Function.update_eq_self]
      rw [hdue] at hrel
      have hreply : Ocpp.reply task.frame.register (.raised .cancelledError) =
          .error .cancelledError := rfl
      simp only [hreply, Line.transferred, raisedOutcome]
      cases hst : s.client.step (.sendEnd i .cancelled) with
      | none => exact .none
      | some client =>
        rw [hst] at hrel
        simp only [h.replies] at hrel
        exact hrel
    · exact .none

/-- The tunnel and the link take the same steps. -/
lemma sim_step {e : LineEvent} (h : u.Sim s) (hs : s.Sound hint) :
    Option.Rel TunnelLine.Sim (u.step central e) (Line.stepJoined (tunnelPeer central) s e) := by
  cases e with
  | next => exact next_rel h hs
  | run => exact run_rel h hs
  | returned => exact returned_rel h
  | deadline => exact deadline_rel h hs
  | sendStart i => exact sendStart_rel h i
  | arrive i => exact .none
  | sendEnd i => exact sendEnd_rel h hs i
  | sendQuit i => exact sendQuit_rel h hs i

end

/-! ### Runs -/

section

variable {central : Central τ} {password : Option ℤ} {script : Script} {c : τ}
  {es : List LineEvent}

private lemma sim_init (password : Option ℤ) (script : Script) (c : τ) :
    (TunnelLine.init password script c).Sim (.init (some Ocpp.timeoutHint) password script c) :=
  ⟨rfl, rfl, rfl, rfl, rfl, fun _ => .unsent⟩

private lemma sound_of_sim {hint : Option String} {u : Option (TunnelLine τ)} {s : Option (Line τ)}
    (h : Option.Rel TunnelLine.Sim u s) (hs : ∀ t, s = some t → t.Sound hint) :
    Option.Rel (fun u s => u.Sim s ∧ s.Sound hint) u s ∧
      Option.Rel (fun s u => u.Sim s ∧ s.Sound hint) s u := by
  cases h with
  | none => exact ⟨.none, .none⟩
  | some h => exact ⟨.some ⟨h, hs _ rfl⟩, .some ⟨h, hs _ rfl⟩⟩

/-- A run over the tunnel is a run over the link. -/
lemma joined_of_tunnelLine {u : TunnelLine τ} (h : TunnelLineRun central password script c es u) :
    ∃ s, Run (joined (tunnelPeer central) (some Ocpp.timeoutHint) password script c) Always
      (.init (some Ocpp.timeoutHint) password script c) es s ∧ u.Sim s := by
  have hstep : ∀ u s e, (u.Sim s ∧ s.Sound (some Ocpp.timeoutHint)) →
      Option.Rel (fun u s => u.Sim s ∧ s.Sound (some Ocpp.timeoutHint))
        ((tunnelLine central password script c).step u e)
        ((joined (tunnelPeer central) (some Ocpp.timeoutHint) password script c).step s e) :=
    fun u s e hu => (sound_of_sim (sim_step hu.1 hu.2) fun _ => hu.2.stepJoined).1
  obtain ⟨s, hrun, hs, -⟩ := h.lockstep hstep ⟨sim_init password script c, .init _ _ _ _⟩
  exact ⟨s, hrun, hs⟩

/-- A run over the link is a run over the tunnel. -/
lemma tunnelLine_of_joined {s : Line τ}
    (h : Run (joined (tunnelPeer central) (some Ocpp.timeoutHint) password script c) Always
      (.init (some Ocpp.timeoutHint) password script c) es s) :
    ∃ u, TunnelLineRun central password script c es u ∧ u.Sim s := by
  have hstep : ∀ s u e, (u.Sim s ∧ s.Sound (some Ocpp.timeoutHint)) →
      Option.Rel (fun s u => u.Sim s ∧ s.Sound (some Ocpp.timeoutHint))
        ((joined (tunnelPeer central) (some Ocpp.timeoutHint) password script c).step s e)
        ((tunnelLine central password script c).step u e) :=
    fun s u e hu => (sound_of_sim (sim_step hu.1 hu.2) fun _ => hu.2.stepJoined).2
  obtain ⟨u, hrun, hu, -⟩ := h.lockstep hstep ⟨sim_init password script c, .init _ _ _ _⟩
  exact ⟨u, hrun, hu⟩

/-- A script that has come to its end over the tunnel has come to what its calls are for. -/
theorem ending_of_tunnelLine {u : TunnelLine τ} (hp : (tunnelPeer central).Echoes)
    (hscript : script.Plain) (h : TunnelLineRun central password script c es u)
    (hf : u.session.Finished) :
    (u.session.log, (⟨u.central, u.tunnel.client.connected, u.tunnel.client.password⟩ : World τ)) =
      (script.exec (World.call (tunnelPeer central) (some Ocpp.timeoutHint))
        ([], ⟨c, false, password⟩)).2 := by
  obtain ⟨s, hjoined, hs⟩ := joined_of_tunnelLine h
  obtain ⟨es', hline⟩ := line_of_joinedRun hjoined
  rw [← ending_of_run hp hscript hline (hs.session ▸ hf), hs.session, hs.central, hs.client]
  rfl

/-- Over the tunnel every script can come to its end. -/
theorem exists_finished_tunnelLine (hp : (tunnelPeer central).Echoes) (password : Option ℤ)
    (hscript : script.Plain) (c : τ) :
    ∃ es u, TunnelLineRun central password script c es u ∧ u.session.Finished := by
  obtain ⟨es, s, hjoined, hf⟩ := exists_finished hp (some Ocpp.timeoutHint) password hscript c
  obtain ⟨u, hrun, hu⟩ := tunnelLine_of_joined hjoined
  exact ⟨es, u, hrun, hu.session ▸ hf⟩

end

end SpinevBle
