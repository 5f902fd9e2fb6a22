import SpinevBle.Link.Script
import SpinevBle.Link.Tunnel

/-!
# A script over a link

One script, its client and a link that carries frames to a peer and notifies the client of replies.
The peer has its answer as soon as it is sent a frame, but the reply arrives and the send returns
whenever they like, in either order. What the link promises is that all of this takes less than the
client's timeout: a deadline passes only where there is nothing left to wait for.
-/

namespace SpinevBle

open Asyncio Interaction Transition

/-! ### The caller -/

/-- What a call comes to: its entry, and how its caller goes on. -/
abbrev Turn := Entry × Script

/-- The task that calls a method and does not raise. -/
def attempt (m : Method) (k : Except Failure m.Result → Script) : Program (Except Exc Turn) :=
  (fun r => .ok (⟨m, coarse r⟩, k (coarse r))) <$> m.program.run

/-- What a script does to its client. -/
inductive Act
  | spawn (c : ℕ) (p : Program (Except Exc Turn))
  | connect
  | disconnect

def Act.event : Act → Event Turn
  | .spawn c p => .spawn c p 0
  | .connect => .link true
  | .disconnect => .link false

/-- A script on its way. While one of its calls runs, `script` is what it came from. -/
structure Session where
  script : Script
  calls : ℕ
  calling : Option ℕ
  log : List Entry

namespace Session

def init (script : Script) : Session := ⟨script, 0, none, []⟩

/-- The next thing that the script does. -/
def next (s : Session) : Option (Act × Session) :=
  match s.calling, s.script with
  | none, .op (.method m) k =>
    some (.spawn s.calls (attempt m k), { s with calls := s.calls + 1, calling := some s.calls })
  | none, .op .connect k => some (.connect, { s with script := k () })
  | none, .op .disconnect k => some (.disconnect, { s with script := k () })
  | _, _ => none

/-- The script goes on with what its call came to. -/
def take (s : Session) (client : State Turn) : Option Session := do
  match ← client.calls (← s.calling) with
  | ⟨.finished (.ok (entry, script)), _⟩ =>
    some { s with script := script, calling := none, log := s.log ++ [entry] }
  | _ => none

/-- The script is at its end. -/
def Finished (s : Session) : Prop := s.calling = none ∧ s.script = .pure ()

end Session

/-! ### Replies on their way -/

namespace Reply

/-- How the send ends. -/
def outcome : Reply → Option (Outcome Exc)
  | .nothing | .payload _ => some .returned
  | .refused err | .raised err => some (raisedOutcome err)
  | .hung => none

def payload? : Reply → Option Bytes
  | .payload p => some p
  | _ => none

/-- What the first step of the send does. -/
def startEvents (i : ℕ) : Reply → List (Event Turn)
  | .refused err => [.sendStart i, .sendEnd i (raisedOutcome err)]
  | _ => [.sendStart i]

end Reply

/-- The deadline may pass: the frame that is being delivered hangs, or is delivered and goes
unanswered. -/
def overdue (client : State Turn) (replies : ℕ → Option Reply) : Bool :=
  match client.lock with
  | some (.delivering _ j _ _ fl) =>
    (replies fl.id).any fun r => r = .hung || j.waits r &&
      (client.sendTasks fl.id).any fun task => task.state.isDone
  | _ => false

/-! ### The system -/

/-- `replies` are the peer's answers to the frames so far, by flight, and `due` those of them that
have not arrived yet. -/
structure Line (σ : Type) where
  client : State Turn
  session : Session
  peer : σ
  replies : ℕ → Option Reply
  due : ℕ → Option Bytes

/-- `next` is the script's next step, `run` one of its call, `returned` the end of that call and
`deadline` its timeout. A send that hangs ends with `sendQuit` once it is cancelled. -/
inductive LineEvent
  | next
  | run
  | returned
  | deadline
  | sendStart (i : ℕ)
  | arrive (i : ℕ)
  | sendEnd (i : ℕ)
  | sendQuit (i : ℕ)

namespace Line

variable {σ : Type}

def init (hint : Option String) (password : Option ℤ) (script : Script) (s : σ) : Line σ :=
  ⟨.init Turn hint password, .init script, s, fun _ => none, fun _ => none⟩

/-- The peer hears nothing while the link is down. -/
def ask (peer : Peer σ) (s : Line σ) (frame : Frame) : σ × Reply :=
  if s.client.connected then peer s.peer frame else (s.peer, .refused notConnected)

/-- Notifications are dropped while the link is down. -/
def notified (s : Line σ) (p : Bytes) : Option (State Turn) :=
  if s.client.connected then s.client.step (.notify p) else some s.client

def step (peer : Peer σ) (s : Line σ) : LineEvent → Option (Line σ)
  | .next => do
    let (act, session) ← s.session.next
    let client ← s.client.step act.event
    return { s with client, session }
  | .run => do
    let client ← s.client.step (.run (← s.session.calling))
    return { s with client }
  | .returned => do
    let session ← s.session.take s.client
    return { s with session }
  | .deadline => do
    let c ← s.session.calling
    if overdue s.client s.replies then
      let client ← s.client.step (.expire c)
      return { s with client }
    else none
  | .sendStart i => do
    let task ← s.client.sendTasks i
    let (t, r) := s.ask peer task.frame
    let client ← (r.startEvents i).foldlM State.step s.client
    return { s with client, peer := t, replies := Function.update s.replies i (some r),
                    due := Function.update s.due i r.payload? }
  | .arrive i => do
    let client ← s.notified (← s.due i)
    return { s with client, due := Function.update s.due i none }
  | .sendEnd i => do
    let client ← s.client.step (.sendEnd i (← (← s.replies i).outcome))
    return { s with client }
  | .sendQuit i => do
    let task ← s.client.sendTasks i
    if s.replies i = some .hung ∧ task.state = .cancelling then
      let client ← s.client.step (.sendEnd i .cancelled)
      return { s with client }
    else none

/-- The transitions of a script over a link. -/
inductive Moves (peer : Peer σ) (s : Line σ) : LineEvent → Line σ → Prop
  | next {act session client} (hn : s.session.next = some (act, session))
      (hc : s.client.step act.event = some client) :
      Moves peer s .next { s with client := client, session := session }
  | run {c client} (hcall : s.session.calling = some c)
      (hc : s.client.step (.run c) = some client) : Moves peer s .run { s with client := client }
  | returned {session} (ht : s.session.take s.client = some session) :
      Moves peer s .returned { s with session := session }
  | deadline {c client} (hcall : s.session.calling = some c)
      (hover : overdue s.client s.replies = true) (hc : s.client.step (.expire c) = some client) :
      Moves peer s .deadline { s with client := client }
  | sendStart {i task client} (ht : s.client.sendTasks i = some task)
      (hc : ((s.ask peer task.frame).2.startEvents i).foldlM State.step s.client = some client) :
      Moves peer s (.sendStart i)
        { s with client := client, peer := (s.ask peer task.frame).1,
                 replies := Function.update s.replies i (some (s.ask peer task.frame).2),
                 due := Function.update s.due i (s.ask peer task.frame).2.payload? }
  | arrive {i p client} (hd : s.due i = some p) (hc : s.notified p = some client) :
      Moves peer s (.arrive i) { s with client := client, due := Function.update s.due i none }
  | sendEnd {i r o client} (hr : s.replies i = some r) (ho : r.outcome = some o)
      (hc : s.client.step (.sendEnd i o) = some client) :
      Moves peer s (.sendEnd i) { s with client := client }
  | sendQuit {i task client} (ht : s.client.sendTasks i = some task)
      (hr : s.replies i = some .hung) (hq : task.state = .cancelling)
      (hc : s.client.step (.sendEnd i .cancelled) = some client) :
      Moves peer s (.sendQuit i) { s with client := client }

/-- Every step is one of the transitions. -/
lemma Moves.of_step {peer : Peer σ} {s t : Line σ} {e : LineEvent} (h : s.step peer e = some t) :
    Moves peer s e t := by
  cases e with
  | next =>
    simp only [step, Option.bind_eq_bind, Option.bind_eq_some_iff] at h
    obtain ⟨⟨act, session⟩, hn, client, hc, h⟩ := h
    cases h
    exact .next hn hc
  | run =>
    simp only [step, Option.bind_eq_bind, Option.bind_eq_some_iff] at h
    obtain ⟨c, hcall, client, hc, h⟩ := h
    cases h
    exact .run hcall hc
  | returned =>
    simp only [step, Option.bind_eq_bind, Option.bind_eq_some_iff] at h
    obtain ⟨session, ht, h⟩ := h
    cases h
    exact .returned ht
  | deadline =>
    simp only [step, Option.bind_eq_bind, Option.bind_eq_some_iff] at h
    obtain ⟨c, hcall, h⟩ := h
    split_ifs at h with hover
    rw [Option.bind_eq_some_iff] at h
    obtain ⟨client, hc, h⟩ := h
    cases h
    exact .deadline hcall hover hc
  | sendStart i =>
    simp only [step, Option.bind_eq_bind, Option.bind_eq_some_iff] at h
    obtain ⟨task, ht, client, hc, h⟩ := h
    cases h
    exact .sendStart ht hc
  | arrive i =>
    simp only [step, Option.bind_eq_bind, Option.bind_eq_some_iff] at h
    obtain ⟨p, hd, client, hc, h⟩ := h
    cases h
    exact .arrive hd hc
  | sendEnd i =>
    simp only [step, Option.bind_eq_bind, Option.bind_eq_some_iff] at h
    obtain ⟨r, hr, o, ho, client, hc, h⟩ := h
    cases h
    exact .sendEnd hr ho hc
  | sendQuit i =>
    simp only [step, Option.bind_eq_bind, Option.bind_eq_some_iff] at h
    obtain ⟨task, ht, h⟩ := h
    split_ifs at h with hq
    rw [Option.bind_eq_some_iff] at h
    obtain ⟨client, hc, h⟩ := h
    cases h
    exact .sendQuit ht hq.1 hq.2 hc

end Line

/-- One script over a link to one peer. -/
def line {σ : Type} (peer : Peer σ) (hint : Option String) (password : Option ℤ) (script : Script)
    (s : σ) : System (Line σ) LineEvent :=
  ⟨.init hint password script s, Line.step peer⟩

/-- The runs of a script over a link. -/
abbrev LineRun {σ : Type} (peer : Peer σ) (hint : Option String) (password : Option ℤ)
    (script : Script) (s : σ) (es : List LineEvent) (t : Line σ) : Prop :=
  Run (line peer hint password script s) Always (.init hint password script s) es t

end SpinevBle
