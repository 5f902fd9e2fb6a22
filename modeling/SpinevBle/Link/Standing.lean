import SpinevBle.Charger.Echoes
import SpinevBle.Link.Line

/-!
# Where a script stands

A script over a link is at one of a few points: between two calls, on the way to the lock, with a
frame that is about to be sent or with one that is out. Each point says what is left to do, and so
what the whole script will come to if its calls do what they are for.
-/

namespace SpinevBle

open Asyncio Interaction Transition

/-! ### Scripts without history -/

/-- Requests and writes that cannot be mistaken for each other, and no history reads. -/
def plainJobs : Promise Op Op.Result where
  asks o := ∀ j, o = .locked j → j.Separate ∧ ∀ count, j ≠ .history count
  answers _ _ := True

/-- The script makes only calls with `A`, whatever they come to. -/
def Script.Calls (A : ClientCall → Prop) (script : Script) : Prop :=
  script.Meets ⟨A, fun _ _ => True⟩ fun _ => True

/-- The script does not read the history. -/
def Script.Plain (script : Script) : Prop :=
  script.Calls fun call => ∀ count, call ≠ .method (.getHistory count)

lemma Script.plain_pure : Script.Plain (.pure ()) := by
  unfold Script.Plain Script.Calls
  exact Prog.Meets.pure_iff.2 trivial

/-- What a plain script makes a call do. -/
def PlainTurn (p : Program (Except Exc Turn)) : Prop :=
  p.Meets plainJobs fun r => ∀ entry script, r = .ok (entry, script) → script.Plain

lemma plainJobs_covers {m : Method} (hm : ∀ count, m ≠ .getHistory count) :
    Covers plainJobs (fun _ => True) m := by
  refine covers_of_jobs fun j hj => ⟨hj.separate, ?_⟩
  rintro count rfl
  cases hj
  exact hm _ rfl

lemma plainTurn_attempt {m : Method} {k : Except Failure m.Result → Script}
    (h : Script.Plain (.op (.method m) k)) : PlainTurn (attempt m k) := by
  obtain ⟨hm, hk⟩ := Prog.Meets.op_iff.1 h
  have hcovers := plainJobs_covers fun count hc => hm count (congrArg ClientCall.method hc)
  refine (within_of_covers hcovers).meets.map fun r _ entry script he => ?_
  cases he
  exact hk _ trivial

/-! ### Replies that can be told apart -/

/-- No request takes the payload for its reply. -/
def Unasked (p : Bytes) : Prop := ∀ f, Requested f → ¬ Answers p f.register f.flag

/-- Register frames come in reply to the frame that they echo only. -/
def Echoes (frame : Frame) (p : Bytes) : Prop :=
  Answers p frame.register frame.flag ∨ isReply p = false

def Peer.Echoes {σ : Type} (peer : Peer σ) : Prop :=
  ∀ s frame p, (peer s frame).2 = .payload p → SpinevBle.Echoes frame p

lemma unasked_of_isReply {p : Bytes} (h : isReply p = false) : Unasked p := fun f _ ha => by
  rw [ha.isReply] at h
  cases h

/-- The echo of a written frame is nobody's reply. -/
lemma unasked_of_written {frame : Frame} {p : Bytes} (hw : Written frame) (h : Echoes frame p) :
    Unasked p := by
  rcases h with ha | hr
  · intro f hf ha'
    exact hw.disjoint hf (ha'.unique ha)
  · exact unasked_of_isReply hr

/-- The payload is the reply that the job waits for. -/
def Job.Accepts : Job → Bytes → Prop
  | .request frame register, p => Answers p register frame.flag
  | _, _ => False

/-- What a job does not accept no other will. -/
lemma Job.unasked {j : Job} {n : ℕ} {frame : Frame} {p : Bytes} (hj : j.Separate)
    (hh : ∀ count, j ≠ .history count) (hf : j.frames[n]? = some frame) (h : Echoes frame p)
    (ha : ¬ j.Accepts p) : Unasked p := by
  cases j with
  | request frame' register =>
    obtain ⟨-, rfl⟩ := Job.frames_request hf
    obtain ⟨-, rfl⟩ := hj
    exact unasked_of_isReply (h.resolve_left ha)
  | writeFrames frames => exact unasked_of_written (hj frame (List.mem_of_getElem? hf)) h
  | history count => exact absurd rfl (hh count)

/-! ### Standings -/

/-- Where a script stands. In `sent`, the peer has answered the frame with `r`. -/
inductive Standing
  | idle
  | fresh (p : Program (Except Exc Turn))
  | running (p : Program (Except Exc Turn))
  | queued (j : Job) (k : Except Exc j.Value → Program (Except Exc Turn))
  | created (j : Job) (k : Except Exc j.Value → Program (Except Exc Turn)) (n : ℕ)
  | sent (j : Job) (k : Except Exc j.Value → Program (Except Exc Turn)) (n : ℕ) (frame : Frame)
      (r : Reply)
  | finished (r : Except Exc Turn)

/-- What a script comes to: its calls with their results, and the state of the world. -/
abbrev Ending (σ : Type) := List Entry × World σ

section

variable {σ : Type} (peer : Peer σ) (hint : Option String)

/-- What the script comes to once its call has ended. -/
def World.afterCall (log : List Entry) : Except Exc Turn → World σ → Ending σ
  | .ok (entry, script), w => (script.exec (World.call peer hint) (log ++ [entry], w)).2
  | .error _, w => (log, w)

/-- What the script comes to once its call has done `p`. -/
def World.afterProgram (log : List Entry) (p : Program (Except Exc Turn)) (w : World σ) : Ending σ :=
  let (r, w) := p.exec (World.act peer hint) w
  w.afterCall peer hint log r

/-- What the script comes to once its call has sent these frames of its job. -/
def World.afterFrames (log : List Entry) (j : Job)
    (k : Except Exc j.Value → Program (Except Exc Turn)) (frames : List Frame) (w : World σ) :
    Ending σ :=
  let (v, w) := w.deliver peer hint j frames
  w.afterProgram peer hint log (k v)

/-- What the script comes to from where it stands. -/
def Standing.ending (log : List Entry) (script : Script) (w : World σ) : Standing → Ending σ
  | .idle => (script.exec (World.call peer hint) (log, w)).2
  | .fresh p | .running p => w.afterProgram peer hint log p
  | .queued j k => w.afterFrames peer hint log j k j.frames
  | .created j k n => w.afterFrames peer hint log j k (j.frames.drop n)
  | .sent j k n frame r =>
    match j.settled hint frame r with
    | some v => w.afterProgram peer hint log (k v)
    | none => w.afterFrames peer hint log j k (j.frames.drop (n + 1))
  | .finished r => w.afterCall peer hint log r

end

namespace Line

variable {σ : Type}

def world (s : Line σ) : World σ := ⟨s.peer, s.client.connected, s.client.password⟩

/-- What the script comes to if it stands at `x`. -/
def ending (peer : Peer σ) (hint : Option String) (s : Line σ) (x : Standing) : Ending σ :=
  x.ending peer hint s.session.log s.session.script s.world

/-- Call `c` runs outside the lock, and no reply that is still to arrive matters. -/
structure Outside (s : Line σ) (c : ℕ) : Prop where
  calling : s.session.calling = some c
  lock : s.client.lock = none
  due : ∀ i p, s.due i = some p → Unasked p

/-- Call `c` delivers a frame of its job, and no other reply that is still to arrive matters. -/
structure Aloft (s : Line σ) (c : ℕ) (j : Job) (k : Except Exc j.Value → Program (Except Exc Turn))
    (n : ℕ) (fl : Flight) (cn : Cancellation) (frame : Frame) (state : TaskState Exc) : Prop where
  calling : s.session.calling = some c
  lock : s.client.lock = some (.delivering c j k n fl)
  call : s.client.calls c = some ⟨.inside, cn⟩
  nth : j.frames[n]? = some frame
  task : s.client.sendTasks fl.id = some ⟨c, frame, state⟩
  connected : s.client.connected = true
  plain : PlainTurn (.op (.locked j) k)
  due : ∀ i p, i ≠ fl.id → s.due i = some p → Unasked p

/-- The frame has been sent, and the peer has answered it with `r`. -/
structure Sent (s : Line σ) (c : ℕ) (j : Job) (k : Except Exc j.Value → Program (Except Exc Turn))
    (n : ℕ) (fl : Flight) (cn : Cancellation) (frame : Frame) (state : TaskState Exc) (r : Reply) :
    Prop extends s.Aloft c j k n fl cn frame state where
  reply : s.replies fl.id = some r
  ended : state = .running ∨ ∃ o, state = .done o ∧ r.outcome = some o
  echo : ∀ p, r = .payload p → Echoes frame p
  own : ∀ p, s.due fl.id = some p → r = .payload p

end Line

/-- The deadline of the flight has not passed, and nobody has cancelled its call. -/
structure Flight.Open (fl : Flight) (cn : Cancellation) : Prop where
  expiring : fl.scope.expiring = false
  requests : cn.requests = fl.scope.cancelling
  mustCancel : cn.mustCancel = false

/-- What a job that has sent its frame waits for: its reply or the end of its send, its turn to take
the reply, or its turn to time out. -/
inductive Line.Awaits {σ : Type} (hint : Option String) (s : Line σ) (j : Job) (fl : Flight)
    (cn : Cancellation) (frame : Frame) (r : Reply) : Prop
  | waiting (ho : fl.Open cn) (hf : s.client.futures fl.id = .pending)
      (hdue : ∀ p, r = .payload p → j.Accepts p → s.due fl.id = some p)
  | answered {p} (ho : fl.Open cn) (hf : s.client.futures fl.id = .result p) (hr : r = .payload p)
      (ha : j.Accepts p) (hdue : s.due fl.id = none)
  | late (hx : fl.scope.expiring = true) (hreq : cn.requests = fl.scope.cancelling + 1)
      (hend : cn.mustCancel = true ∨ fl.point = .reply ∧ s.client.futures fl.id = .cancelled)
      (hw : j.settled hint frame r = some (.error (j.timedOut frame hint)))

/-- The script stands there. -/
inductive Line.At {σ : Type} (hint : Option String) (s : Line σ) : Standing → Prop
  | idle (hc : s.session.calling = none) (hl : s.client.lock = none) (hp : s.session.script.Plain)
      (hdue : ∀ i p, s.due i = some p → Unasked p) : At hint s .idle
  | fresh {c p cn} (ho : s.Outside c) (hc : s.client.calls c = some ⟨.fresh p, cn⟩)
      (hm : cn.mustCancel = false) (hp : PlainTurn p) : At hint s (.fresh p)
  | running {c p cn} (ho : s.Outside c) (hc : s.client.calls c = some ⟨.running p, cn⟩)
      (hm : cn.mustCancel = false) (hp : PlainTurn p) : At hint s (.running p)
  | queued {c j k cn} (ho : s.Outside c) (hc : s.client.calls c = some ⟨.queued j k, cn⟩)
      (hm : cn.mustCancel = false) (hu : s.client.connected = true)
      (hp : PlainTurn (.op (.locked j) k)) : At hint s (.queued j k)
  | created {c j k n fl cn frame} (ha : s.Aloft c j k n fl cn frame .created) (ho : fl.Open cn)
      (hf : s.client.futures fl.id = .pending) (hr : s.replies fl.id = none)
      (hdue : s.due fl.id = none) : At hint s (.created j k n)
  | sent {c j k n fl cn frame state r} (h : s.Sent c j k n fl cn frame state r)
      (hw : s.Awaits hint j fl cn frame r) : At hint s (.sent j k n frame r)
  | finished {c r cn} (ho : s.Outside c) (hc : s.client.calls c = some ⟨.finished r, cn⟩)
      (hp : PlainTurn (.pure r)) : At hint s (.finished r)

end SpinevBle
