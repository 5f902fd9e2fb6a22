import Mathlib.Data.Finset.Card
import Mathlib.Data.List.AList
import SpinevBle.Charger.Program
import SpinevBle.Lib.Asyncio
import SpinevBle.Lib.Transition

/-!
# One client and its event loop

The state of one `SpinEvCharger`, of the calls made on it and of the sends those calls have
handed to the transport, with one event for everything that the event loop, the transport or a
caller can make happen next. Calls are numbered by their callers. Flights are numbered by the
client: a flight is one frame on its way, and its number names both its future (the waiter of a
request, the abort of any other frame) and its send task.

`wire` and `blocks` are a record of what happened. No step reads them.
-/

namespace SpinevBle

open Asyncio Transition

/-! ### State -/

/-- An entry of `_waiters`. -/
structure Waiter where
  future : ℕ
  flag : UInt8
  deriving DecidableEq

abbrev Waiters := AList fun _ : UInt8 => Waiter

/-- Where a task that delivers a frame is suspended: in `asyncio.wait((send, abort))`, in
`await send` or in `await future`. -/
inductive Point
  | wait
  | send
  | reply
  deriving DecidableEq

/-- One frame on its way: `scope` is the `asyncio.timeout` block around it. -/
structure Flight where
  id : ℕ
  scope : Timeout
  point : Point
  deriving DecidableEq

def Flight.expire (fl : Flight) : Flight := { fl with scope := { fl.scope with expiring := true } }

/-- The task around `transport.async_send(frame)`. -/
structure SendTask where
  call : ℕ
  frame : Frame
  state : TaskState Exc
  deriving DecidableEq

/-- What the call that holds the lock is doing, and how its method goes on afterwards. `n` is
the index of the frame that is being delivered. -/
inductive Holder (β : Type)
  | delivering (c : ℕ) (j : Job) (k : Except Exc j.Value → Program (Except Exc β)) (n : ℕ)
      (fl : Flight)
  | collecting (c : ℕ) (count : ℤ) (k : Except Exc (List Bytes) → Program (Except Exc β))

def Holder.call {β : Type} : Holder β → ℕ
  | .delivering c _ _ _ _ => c
  | .collecting c _ _ => c

def Holder.job {β : Type} : Holder β → Job
  | .delivering _ j _ _ _ => j
  | .collecting _ count _ => .history count

/-- How far a call is. A call is `inside` while it holds the lock. -/
inductive Phase (β : Type)
  | fresh (p : Program (Except Exc β))
  | running (p : Program (Except Exc β))
  | queued (j : Job) (k : Except Exc j.Value → Program (Except Exc β))
  | inside
  | finished (r : Except Exc β)

structure Call (β : Type) where
  phase : Phase β
  cancellation : Cancellation

/-- A job that has released the lock, with what it returned or raised. -/
structure Block where
  call : ℕ
  job : Job
  outcome : Except Exc job.Value

/-- `sends` is `_sends`, `wire` the flights whose send has started, oldest first, and `blocks`
the jobs that have ended, newest first. -/
structure State (β : Type) where
  connected : Bool
  timeoutHint : Option String
  password : Option ℤ
  lock : Option (Holder β)
  waiters : Waiters
  sends : Finset ℕ
  bulk : List Bytes
  bulkEvent : Bool
  calls : ℕ → Option (Call β)
  futures : ℕ → Future Bytes Exc
  sendTasks : ℕ → Option SendTask
  nextId : ℕ
  wire : List ℕ
  blocks : List Block

/-- A new client, over a transport whose link is down. -/
def State.init (β : Type) (timeoutHint : Option String) (password : Option ℤ) : State β where
  connected := false
  timeoutHint := timeoutHint
  password := password
  lock := none
  waiters := ∅
  sends := ∅
  bulk := []
  bulkEvent := false
  calls := fun _ => none
  futures := fun _ => .pending
  sendTasks := fun _ => none
  nextId := 0
  wire := []
  blocks := []

/-- What can happen next. `spawn` makes a call, whose task may already have been asked to cancel
before; `run` resumes it, `expire` is the deadline of its current frame and `idle` the end of
its wait for history records. The `send` events are steps of a send task: its first step, a
step after its cancellation that does not end it, and its end. `link` changes what
`is_connected` says. -/
inductive Event (β : Type)
  | spawn (c : ℕ) (p : Program (Except Exc β)) (requests : ℕ)
  | run (c : ℕ)
  | cancel (c : ℕ)
  | expire (c : ℕ)
  | idle (c : ℕ)
  | sendStart (i : ℕ)
  | sendUnwind (i : ℕ)
  | sendEnd (i : ℕ) (o : Outcome Exc)
  | notify (payload : Bytes)
  | disconnect
  | link (up : Bool)

/-- The call that an event concerns. -/
def Event.call {β : Type} : Event β → Option ℕ
  | .spawn c _ _ | .run c | .cancel c | .expire c | .idle c => some c
  | _ => none

/-! ### Jobs -/

/-- The frame that asks for `count` history records. -/
def historyFrame (count : ℤ) : Except Exc Frame := buildReadOf Register.historySessions.value count

lemma historyFrame_eq (count : ℤ) :
    historyFrame count = buildRead Register.historySessions.id count :=
  (buildRead_id _ _ _).symm

namespace Job

/-- The frames a job sends, in order. A history read whose count does not fit sends none. -/
def frames : Job → List Frame
  | .request frame _ => [frame]
  | .writeFrames frames => frames
  | .history count =>
    match historyFrame count with
    | .ok frame => [frame]
    | .error _ => []

/-- A request sends one frame only. -/
lemma frames_request {frame frame' : Frame} {register : UInt8} {n : ℕ}
    (h : (request frame register).frames[n]? = some frame') : n = 0 ∧ frame' = frame := by
  cases n with
  | zero =>
    simp only [frames, List.getElem?_cons_zero, Option.some.injEq] at h
    exact ⟨rfl, h.symm⟩
  | succ n => simp [frames] at h

lemma frames_history {count : ℤ} {frame : Frame} (h : historyFrame count = .ok frame) :
    (history count).frames = [frame] := by
  unfold frames
  simp only [h]

lemma length_frames_history (count : ℤ) : (history count).frames.length ≤ 1 := by
  unfold frames
  simp only
  split <;> simp

/-- A request waits in `_waiters`, under its register and with the flag of its frame. -/
def addWaiter : Job → ℕ → Waiters → Waiters
  | .request frame register, i, w => w.insert register ⟨i, frame.flag⟩
  | _, _, w => w

def dropWaiter : Job → Waiters → Waiters
  | .request _ register, w => w.erase register
  | _, w => w

/-- Any other frame has its abort in `_sends`. -/
def addAbort : Job → ℕ → Finset ℕ → Finset ℕ
  | .request _ _, _, S => S
  | _, i, S => insert i S

def dropAbort : Job → ℕ → Finset ℕ → Finset ℕ
  | .request _ _, _, S => S
  | _, i, S => S.erase i

/-- The text of the `SpinEvTimeoutError`. -/
def timeoutMessage (j : Job) (frame : Frame) (hint : Option String) : String :=
  match j with
  | .request _ register =>
    let message := s!"no reply for register {hex register}"
    match hint with
    | some hint => if hint = "" then message else s!"{message}. {hint}"
    | none => message
  | _ => s!"frame for register {hex frame.register} was not delivered in time"

/-- The `except` clauses around a delivery. -/
def translate (j : Job) (frame : Frame) (hint : Option String) : Exc → Exc
  | .builtin .timeoutError _ => .spinEv .timeout (j.timeoutMessage frame hint)
  | .builtin _ message => .spinEv .connection s!"write failed: {message}"
  | e => e

end Job

/-! ### Delivering a frame -/

/-- How far `_deliver` gets when its task is resumed. -/
inductive Delivery
  | blocked
  | awaitSend
  | delivered
  | raised (e : Exc)
  deriving DecidableEq

namespace Delivery

/-- `await send`, once the send is done. -/
def ofOutcome : Outcome Exc → Delivery
  | .returned => .delivered
  | .raised e => .raised e
  | .cancelled => .raised .cancelledError

def ofSend : TaskState Exc → Delivery
  | .done o => ofOutcome o
  | _ => .blocked

/-- What `asyncio.wait((send, abort))` leads to. A send that is done goes first; an abort that
failed cuts the send short, and one that has a result leaves only the send to wait for. -/
def ofWait (send : TaskState Exc) (abort : Future Bytes Exc) : Delivery :=
  match send, abort with
  | .done o, _ => ofOutcome o
  | _, .pending => .blocked
  | _, .result _ => .awaitSend
  | _, .exception e => .raised e
  | _, .cancelled => .raised .cancelledError

/-- Resume `_deliver`, and at `reply` what comes after it. -/
def resume (point : Point) (mustCancel : Bool) (send : TaskState Exc)
    (abort : Future Bytes Exc) : Delivery :=
  if mustCancel then .raised .cancelledError
  else match point with
    | .wait => ofWait send abort
    | .send => ofSend send
    | .reply => .delivered

end Delivery

/-- The exception that leaves the `asyncio.timeout` block when `e` does, and the cancellation
requests that remain. -/
def leaveScope (scope : Timeout) (requests : ℕ) (e : Exc) : ℕ × Exc :=
  let (requests, expired) := scope.exit requests
  (requests, if expired ∧ e = .cancelledError then .builtin .timeoutError "" else e)

namespace State

variable {β : Type}

/-! ### Steps of a call -/

def setPhase (s : State β) (c : ℕ) (phase : Phase β) (cn : Cancellation) : State β :=
  { s with calls := Function.update s.calls c (some ⟨phase, cn⟩) }

@[simp] lemma setPhase_lock (s : State β) (c : ℕ) (phase : Phase β) (cn : Cancellation) :
    (s.setPhase c phase cn).lock = s.lock := rfl

@[simp] lemma setPhase_calls (s : State β) (c : ℕ) (phase : Phase β) (cn : Cancellation) :
    (s.setPhase c phase cn).calls = Function.update s.calls c (some ⟨phase, cn⟩) := rfl

@[simp] lemma setPhase_futures (s : State β) (c : ℕ) (phase : Phase β) (cn : Cancellation) :
    (s.setPhase c phase cn).futures = s.futures := rfl

@[simp] lemma setPhase_sendTasks (s : State β) (c : ℕ) (phase : Phase β) (cn : Cancellation) :
    (s.setPhase c phase cn).sendTasks = s.sendTasks := rfl

@[simp] lemma setPhase_nextId (s : State β) (c : ℕ) (phase : Phase β) (cn : Cancellation) :
    (s.setPhase c phase cn).nextId = s.nextId := rfl

/-- Register frame `n` of the job, create its send task and wait for it. -/
def launch (s : State β) (c : ℕ) (cn : Cancellation) (j : Job)
    (k : Except Exc j.Value → Program (Except Exc β)) (n : ℕ) (frame : Frame) : State β :=
  { s with
    lock := some (.delivering c j k n ⟨s.nextId, .enter cn.requests, .wait⟩)
    waiters := j.addWaiter s.nextId s.waiters
    sends := j.addAbort s.nextId s.sends
    calls := Function.update s.calls c (some ⟨.inside, cn⟩)
    sendTasks := Function.update s.sendTasks s.nextId (some ⟨c, frame, .created⟩)
    nextId := s.nextId + 1 }

/-- Cancel a send task. One that is done stays as it is. -/
def cancelSend (s : State β) (i : ℕ) : State β :=
  { s with
    sendTasks := Function.update s.sendTasks i
      ((s.sendTasks i).map fun task => { task with state := task.state.cancel }) }

/-- The `finally` clauses around a delivery: a send that is not done is cancelled and left to
itself, and the flight is forgotten. -/
def land (s : State β) (j : Job) (i : ℕ) : State β :=
  { s.cancelSend i with
    waiters := j.dropWaiter s.waiters
    sends := j.dropAbort i s.sends }

/-- Leave the lock and go on with the method. -/
def release (s : State β) (c requests : ℕ) (j : Job)
    (k : Except Exc j.Value → Program (Except Exc β)) (r : Except Exc j.Value) : State β :=
  { s with
    lock := none
    calls := Function.update s.calls c (some ⟨.running (k r), ⟨requests, false⟩⟩)
    blocks := ⟨c, j, r⟩ :: s.blocks }

/-- The delivery of `frame` raised `e`. -/
def abandon (s : State β) (c requests : ℕ) (j : Job)
    (k : Except Exc j.Value → Program (Except Exc β)) (frame : Frame) (fl : Flight) (e : Exc) :
    State β :=
  let (requests, e) := leaveScope fl.scope requests e
  (s.land j fl.id).release c requests j k (.error (j.translate frame s.timeoutHint e))

/-- The method goes on with the exception, as the handlers have translated it. -/
lemma abandon_calls (s : State β) (c requests : ℕ) (j : Job)
    (k : Except Exc j.Value → Program (Except Exc β)) (frame : Frame) (fl : Flight) (e : Exc) :
    (s.abandon c requests j k frame fl e).calls c =
      some ⟨.running (k (.error (j.translate frame s.timeoutHint
        (leaveScope fl.scope requests e).2))), ⟨(leaveScope fl.scope requests e).1, false⟩⟩ :=
  Function.update_self _ _ _

/-- Go on to frame `n` of `_write_frames`, or leave the lock after the last. -/
def nextFrame (s : State β) (c : ℕ) (cn : Cancellation) (frames : List Frame)
    (k : Except Exc Unit → Program (Except Exc β)) (n : ℕ) : State β :=
  match frames[n]? with
  | some frame => s.launch c cn (.writeFrames frames) k n frame
  | none => s.release c cn.requests (.writeFrames frames) k (.ok ())

def clearBulk (s : State β) : State β := { s with bulk := [], bulkEvent := false }

/-- Take the free lock and go on to the first point where the task is suspended. -/
def enter (s : State β) (c : ℕ) (cn : Cancellation) (j : Job)
    (k : Except Exc j.Value → Program (Except Exc β)) : State β :=
  match j, k with
  | .request frame register, k => s.launch c cn (.request frame register) k 0 frame
  | .writeFrames frames, k => s.nextFrame c cn frames k 0
  | .history count, k =>
    match historyFrame count with
    | .ok frame => s.clearBulk.launch c cn (.history count) k 0 frame
    | .error e => s.clearBulk.release c cn.requests (.history count) k (.error e)

/-- Resume the call that waits for the delivery of frame `n`. -/
def runDelivering (s : State β) (c : ℕ) (cn : Cancellation) (j : Job)
    (k : Except Exc j.Value → Program (Except Exc β)) (n : ℕ) (fl : Flight) :
    Option (State β) := do
  let task ← s.sendTasks fl.id
  match Delivery.resume fl.point cn.mustCancel task.state (s.futures fl.id) with
  | .blocked => none
  | .awaitSend => some { s with lock := some (.delivering c j k n { fl with point := .send }) }
  | .raised e => some (s.abandon c cn.requests j k task.frame fl e)
  | .delivered =>
    let requests := (fl.scope.exit cn.requests).1
    match j, k with
    | .request frame register, k =>
      match s.futures fl.id with
      | .pending =>
        if fl.point = .reply then none
        else some { s with
          lock := some (.delivering c (.request frame register) k n { fl with point := .reply }) }
      | .result payload =>
        some ((s.land (.request frame register) fl.id).release c requests
          (.request frame register) k (.ok payload))
      | .exception e => some (s.abandon c cn.requests (.request frame register) k frame fl e)
      | .cancelled =>
        some (s.abandon c cn.requests (.request frame register) k frame fl .cancelledError)
    | .writeFrames frames, k =>
      some ((s.land (.writeFrames frames) fl.id).nextFrame c ⟨requests, false⟩ frames k (n + 1))
    | .history count, k =>
      some { (s.land (.history count) fl.id).setPhase c .inside ⟨requests, false⟩ with
        lock := some (.collecting c count k) }

/-- Resume `_collect_bulk`: the event that woke it is cleared for the next wait. -/
def runCollecting (s : State β) (c : ℕ) (cn : Cancellation) (count : ℤ)
    (k : Except Exc (List Bytes) → Program (Except Exc β)) : Option (State β) :=
  if cn.mustCancel then
    some (s.release c cn.requests (.history count) k (.error .cancelledError))
  else if s.bulkEvent then some { s with bulkEvent := false }
  else none

/-- Resume a call. -/
def runCall (s : State β) (c : ℕ) : Option (State β) := do
  let ⟨phase, cn⟩ ← s.calls c
  match phase with
  | .fresh p =>
    if cn.mustCancel then
      some (s.setPhase c (.finished (.error .cancelledError)) ⟨cn.requests, false⟩)
    else some (s.setPhase c (.running p) cn)
  | .running (.pure r) => some (s.setPhase c (.finished r) cn)
  | .running (.op .getPassword k) => some (s.setPhase c (.running (k s.password)) cn)
  | .running (.op (.setPassword password) k) =>
    some { s.setPhase c (.running (k ())) cn with password := some password }
  | .running (.op (.locked j) k) =>
    if s.connected then some (s.setPhase c (.queued j k) cn)
    else some (s.setPhase c (.running (k (.error (.spinEv .connection "not connected")))) cn)
  | .queued j k =>
    if cn.mustCancel then
      some (s.setPhase c (.running (k (.error .cancelledError))) ⟨cn.requests, false⟩)
    else if s.lock.isNone then some (s.enter c cn j k)
    else none
  | .inside =>
    match s.lock with
    | some (.delivering c' j k n fl) => if c' = c then s.runDelivering c cn j k n fl else none
    | some (.collecting c' count k) => if c' = c then s.runCollecting c cn count k else none
    | none => none
  | .finished _ => none

/-- The wait for the next history record timed out, or its deadline has passed. -/
def idleCall (s : State β) (c : ℕ) : Option (State β) := do
  let ⟨_, cn⟩ ← s.calls c
  match s.lock with
  | some (.collecting c' count k) =>
    if c' = c ∧ ¬ cn.mustCancel then
      some { s.release c cn.requests (.history count) k (.ok s.bulk) with bulk := [] }
    else none
  | _ => none

/-! ### Cancellation -/

/-- `Task.cancel()` on the call that delivers a frame. It is passed on to what the task waits
for: the send or the waiter's future, if that is not done. -/
def interrupt (s : State β) (c : ℕ) (cn : Cancellation) (fl : Flight) : State β :=
  match fl.point with
  | .send =>
    if (s.sendTasks fl.id).all fun task => task.state.isDone then
      s.setPhase c .inside ⟨cn.requests + 1, true⟩
    else (s.cancelSend fl.id).setPhase c .inside ⟨cn.requests + 1, cn.mustCancel⟩
  | .reply =>
    if (s.futures fl.id).done then s.setPhase c .inside ⟨cn.requests + 1, true⟩
    else { s.setPhase c .inside ⟨cn.requests + 1, cn.mustCancel⟩ with
      futures := Function.update s.futures fl.id (s.futures fl.id).cancel }
  | .wait => s.setPhase c .inside ⟨cn.requests + 1, true⟩

lemma interrupt_calls (s : State β) {c c' : ℕ} (hc : c' ≠ c) (cn : Cancellation) (fl : Flight) :
    (s.interrupt c cn fl).calls c' = s.calls c' := by
  unfold interrupt
  split <;> try split_ifs
  all_goals exact Function.update_of_ne hc _ _

lemma interrupt_calls_self (s : State β) (c : ℕ) (cn : Cancellation) (fl : Flight) :
    ∃ cn', (s.interrupt c cn fl).calls c = some ⟨.inside, cn'⟩ := by
  unfold interrupt
  split <;> try split_ifs
  all_goals exact ⟨_, Function.update_self _ _ _⟩

@[simp] lemma interrupt_lock (s : State β) (c : ℕ) (cn : Cancellation) (fl : Flight) :
    (s.interrupt c cn fl).lock = s.lock := by
  unfold interrupt
  split <;> try split_ifs
  all_goals rfl

@[simp] lemma interrupt_nextId (s : State β) (c : ℕ) (cn : Cancellation) (fl : Flight) :
    (s.interrupt c cn fl).nextId = s.nextId := by
  unfold interrupt
  split <;> try split_ifs
  all_goals rfl

@[simp] lemma interrupt_blocks (s : State β) (c : ℕ) (cn : Cancellation) (fl : Flight) :
    (s.interrupt c cn fl).blocks = s.blocks := by
  unfold interrupt
  split <;> try split_ifs
  all_goals rfl

@[simp] lemma interrupt_password (s : State β) (c : ℕ) (cn : Cancellation) (fl : Flight) :
    (s.interrupt c cn fl).password = s.password := by
  unfold interrupt
  split <;> try split_ifs
  all_goals rfl

@[simp] lemma interrupt_connected (s : State β) (c : ℕ) (cn : Cancellation) (fl : Flight) :
    (s.interrupt c cn fl).connected = s.connected := by
  unfold interrupt
  split <;> try split_ifs
  all_goals rfl

@[simp] lemma interrupt_timeoutHint (s : State β) (c : ℕ) (cn : Cancellation) (fl : Flight) :
    (s.interrupt c cn fl).timeoutHint = s.timeoutHint := by
  unfold interrupt
  split <;> try split_ifs
  all_goals rfl

@[simp] lemma interrupt_wire (s : State β) (c : ℕ) (cn : Cancellation) (fl : Flight) :
    (s.interrupt c cn fl).wire = s.wire := by
  unfold interrupt
  split <;> try split_ifs
  all_goals rfl

@[simp] lemma interrupt_bulk (s : State β) (c : ℕ) (cn : Cancellation) (fl : Flight) :
    (s.interrupt c cn fl).bulk = s.bulk := by
  unfold interrupt
  split <;> try split_ifs
  all_goals rfl

/-- The caller cancels the call. -/
def cancelCall (s : State β) (c : ℕ) : Option (State β) := do
  let ⟨phase, cn⟩ ← s.calls c
  match phase with
  | .fresh p => some (s.setPhase c (.fresh p) ⟨cn.requests + 1, true⟩)
  | .queued j k => some (s.setPhase c (.queued j k) ⟨cn.requests + 1, true⟩)
  | .inside =>
    match s.lock with
    | some (.delivering c' _ _ _ fl) => if c' = c then some (s.interrupt c cn fl) else none
    | some (.collecting c' _ _) =>
      if c' = c then some (s.setPhase c .inside ⟨cn.requests + 1, true⟩) else none
    | none => none
  | _ => none

/-- The deadline of the frame that the call delivers has passed. -/
def expireCall (s : State β) (c : ℕ) : Option (State β) := do
  let ⟨_, cn⟩ ← s.calls c
  match s.lock with
  | some (.delivering c' j k n fl) =>
    if c' = c ∧ ¬ fl.scope.expiring then
      some ({ s with lock := some (.delivering c j k n fl.expire) }.interrupt c cn fl.expire)
    else none
  | _ => none

/-! ### Steps of a send -/

def setSend (s : State β) (i : ℕ) (task : SendTask) (state : TaskState Exc) : State β :=
  { s with sendTasks := Function.update s.sendTasks i (some { task with state := state }) }

def startSend (s : State β) (i : ℕ) : Option (State β) := do
  let task ← s.sendTasks i
  if task.state = .created then some { s.setSend i task .running with wire := s.wire ++ [i] }
  else none

def unwindSend (s : State β) (i : ℕ) : Option (State β) := do
  let task ← s.sendTasks i
  if task.state = .cancelling then some (s.setSend i task .unwinding) else none

/-- The end of a send. A task that raises `CancelledError` counts as cancelled. -/
def endSend (s : State β) (i : ℕ) (o : Outcome Exc) : Option (State β) := do
  let task ← s.sendTasks i
  if task.state.busy ∧ o ≠ .raised .cancelledError then some (s.setSend i task (.done o)) else none

/-! ### Callbacks -/

/-- Hand a reply to the waiter it is for. -/
def answerWaiter (s : State β) (register : UInt8) (w : Waiter) (payload : Bytes) : State β :=
  { s with
    waiters := s.waiters.erase register
    futures := Function.update s.futures w.future ((s.futures w.future).resolve payload) }

/-- `_on_notify`. Every path that does not stop at a history record reads `payload[3]`. -/
def onNotify (s : State β) (payload : Bytes) : Except Exc (State β) := do
  if ← isHistoryRecord payload then
    return { s with bulk := s.bulk ++ [payload], bulkEvent := true }
  if isReply payload then
    let register ← byteAt payload 2
    let flag ← byteAt payload 3
    match s.waiters.lookup register with
    | some w =>
      if flag = w.flag then return s.answerWaiter register w payload else return s
    | none => return s
  return s

/-- The futures in `_waiters`. -/
def waiting (s : State β) : List ℕ := s.waiters.entries.map fun e => e.2.future

/-- What a drop fails everything in flight with. -/
def dropped : Exc := .spinEv .connection "charger disconnected"

/-- Fail everything in flight and wake the wait for history records. -/
def failAll (s : State β) : State β :=
  { s with
    futures := fun i =>
      if i ∈ s.waiting ∨ i ∈ s.sends then (s.futures i).fail dropped else s.futures i
    waiters := ∅
    sends := ∅
    bulkEvent := true }

/-- `_on_disconnect`. The aborts are failed without a look at whether they are done. -/
def onDisconnect (s : State β) : Except Exc (State β) :=
  if ∃ i ∈ s.sends, (s.futures i).done then .error (.builtin .invalidStateError "invalid state")
  else .ok s.failAll

/-! ### The machine -/

def step (s : State β) : Event β → Option (State β)
  | .spawn c p requests =>
    if (s.calls c).isNone then some (s.setPhase c (.fresh p) ⟨requests, false⟩) else none
  | .run c => s.runCall c
  | .cancel c => s.cancelCall c
  | .expire c => s.expireCall c
  | .idle c => s.idleCall c
  | .sendStart i => s.startSend i
  | .sendUnwind i => s.unwindSend i
  | .sendEnd i o => s.endSend i o
  | .notify payload => (s.onNotify payload).toOption
  | .disconnect => s.onDisconnect.toOption
  | .link up => some { s with connected := up }

end State

/-- One client and everything around it. -/
def machine (β : Type) (timeoutHint : Option String) (password : Option ℤ) :
    System (State β) (Event β) :=
  ⟨State.init β timeoutHint password, State.step⟩

/-- The runs of a new client. -/
abbrev ClientRun {β : Type} (timeoutHint : Option String) (password : Option ℤ)
    (P : State β → Event β → Prop) (es : List (Event β)) (s : State β) : Prop :=
  Run (machine β timeoutHint password) P (State.init β timeoutHint password) es s

end SpinevBle
