import SpinevBle.Charger.Machine
import SpinevBle.Charger.Methods

/-!
# Sequential callers

A script makes one call of the client after the other, and may choose the next by what the last one
came to. Here a script is run on nothing but a peer that answers frames: that is what its calls are
for, whatever carries the frames.
-/

namespace SpinevBle

open Interaction

/-! ### Scripts -/

/-- What a caller learns of an exception: the class, if it is one of the package's own. -/
inductive Failure
  | spinEv (cls : ErrorClass)
  | other (e : Exc)
  deriving DecidableEq

def Exc.failure : Exc → Failure
  | .spinEv cls _ => .spinEv cls
  | e => .other e

/-- A result up to the text of the package's errors. -/
def coarse {α : Type} : Except Exc α → Except Failure α := Except.mapError Exc.failure

@[simp] lemma coarse_ok {α : Type} (a : α) : coarse (.ok a) = .ok a := rfl

@[simp] lemma coarse_error {α : Type} (e : Exc) :
    coarse (.error e : Except Exc α) = .error e.failure := rfl

/-- What a caller can do with a client. -/
inductive ClientCall
  | method (m : Method)
  | connect
  | disconnect

abbrev ClientCall.Result : ClientCall → Type
  | .method m => Except Failure m.Result
  | .connect | .disconnect => Unit

abbrev Script := Prog ClientCall ClientCall.Result Unit

/-- A call that was made, with what it came to. -/
structure Entry where
  method : Method
  result : Except Failure method.Result

/-! ### Peers -/

/-- What comes of one frame. Its send returns without a reply or with one, raises in its first step
or later, or does not end until it is cancelled. -/
inductive Reply
  | nothing
  | payload (p : Bytes)
  | refused (err : Exc)
  | raised (err : Exc)
  | hung
  deriving DecidableEq

/-- Whatever is at the other end of the link, with its state. -/
abbrev Peer (σ : Type) := σ → Frame → σ × Reply

/-- The same peer, which keeps a record of the frames that have reached it. -/
def Peer.recorded {σ : Type} (peer : Peer σ) : Peer (σ × List Frame) := fun s frame =>
  let (t, r) := peer s.1 frame
  ((t, s.2 ++ [frame]), r)

/-! ### Jobs -/

namespace Job

/-- The exception of a job that runs into its deadline with this frame. -/
def timedOut (j : Job) (frame : Frame) (hint : Option String) : Exc :=
  j.translate frame hint (.builtin .timeoutError "")

/-- The job waits for a reply to a frame that has been sent, and this is not it. -/
def waits : Job → Reply → Bool
  | .request _ _, .nothing => true
  | .request frame register, .payload p => ¬ Answers p register frame.flag
  | _, _ => false

/-- What the job comes to because of the reply to one of its frames, unless it goes on. -/
def settled (hint : Option String) (frame : Frame) : (j : Job) → Reply → Option (Except Exc j.Value)
  | j, .refused err | j, .raised err => some (.error (j.translate frame hint err))
  | j, .hung => some (.error (j.timedOut frame hint))
  | .request sent register, .nothing =>
    some (.error ((Job.request sent register).timedOut frame hint))
  | .request sent register, .payload p =>
    some (if Answers p register sent.flag then .ok p
      else .error ((Job.request sent register).timedOut frame hint))
  | .writeFrames _, _ | .history _, _ => none

/-- What the job comes to once all its frames are sent. No request gets so far, and what a history
read would then collect is left out. -/
def spent : (j : Job) → Except Exc j.Value
  | .writeFrames _ => .ok ()
  | .request _ _ => .error (.spinEv .unsupported "")
  | .history _ => .error (.spinEv .unsupported "")

end Job

/-! ### Runs without a link -/

/-- A client and its peer between two operations. -/
structure World (σ : Type) where
  peer : σ
  connected : Bool
  password : Option ℤ

/-- What raises where there is no link. -/
def notConnected : Exc := .spinEv .connection "not connected"

namespace World

variable {σ : Type}

/-- The frames of a job go to the peer one after the other. -/
def deliver (peer : Peer σ) (hint : Option String) (j : Job) :
    List Frame → World σ → Except Exc j.Value × World σ
  | [], w => (j.spent, w)
  | frame :: frames, w =>
    let (s, r) := peer w.peer frame
    match j.settled hint frame r with
    | some v => (v, { w with peer := s })
    | none => deliver peer hint j frames { w with peer := s }

/-- One operation of a method. -/
def act (peer : Peer σ) (hint : Option String) : (o : Op) → World σ → Op.Result o × World σ
  | .locked j, w => if w.connected then w.deliver peer hint j j.frames else (.error notConnected, w)
  | .getPassword, w => (w.password, w)
  | .setPassword password, w => ((), { w with password := some password })

/-- One call of a script, with the calls so far. -/
def call (peer : Peer σ) (hint : Option String) :
    (call : ClientCall) → List Entry × World σ → call.Result × (List Entry × World σ)
  | .method m, (log, w) =>
    let (r, w) := m.program.run.exec (act peer hint) w
    (coarse r, log ++ [⟨m, coarse r⟩], w)
  | .connect, (log, w) => ((), log, { w with connected := true })
  | .disconnect, (log, w) => ((), log, { w with connected := false })

end World

end SpinevBle
