import SpinevBle.Charger.Arguments
import SpinevBle.Charger.Matching

/-!
# Where a password comes from

A client that was given a password sends its commands with it. A client that was given none takes
the password from a reply to its own read of it, and remembers it. In a run in which all calls are
those of methods, no command goes out with any other password.
-/

namespace SpinevBle

open Asyncio Interaction Transition

variable {β : Type} {es : List (Event β)} {password : Option ℤ}

/-! ### Sources -/

/-- The password in a reply: the low three bytes of its value. -/
def passwordOf (payload : Bytes) : Except Exc ℤ := do
  let raw ← valueBytes payload s!"register {hex Register.password.value}"
  let value ← decodeUInt raw
  return (value &&& 0xFFFFFF : ℕ)

/-- The frame that reads the password. -/
def passwordFrame : Frame := ⟨Register.password.value, Operation.read.value, ⟨0, 0, 0, 0⟩⟩

lemma buildRead_password : buildRead Register.password.id = .ok passwordFrame := by
  rw [buildRead_id]
  rfl

lemma asyncGetPassword_eq : asyncGetPassword = (do
    let payload ← request passwordFrame Register.password.value
    raising (passwordOf payload)) := by
  unfold asyncGetPassword asyncReadRaw passwordOf
  simp only [buildRead_password, ← raising_bind_raising, bind_assoc]
  rfl

/-- The client was given the password, or it was given none and a reply that has arrived has it. -/
inductive Sourced (password : Option ℤ) (es : List (Event β)) (n : ℤ) : Prop
  | configured (h : password = some n)
  | read {payload} (h : password = none) (hmem : .notify payload ∈ es)
      (ha : Answers payload Register.password.value Operation.read.value)
      (hn : passwordOf payload = .ok n)

/-- A client answers the question for its password with one that has a source, and remembers no
other. What a request returns has arrived. -/
def sourced (password : Option ℤ) (es : List (Event β)) (asks : Job → Prop) :
    Promise Op Op.Result where
  asks
    | .locked j => asks j
    | .getPassword => True
    | .setPassword n => Sourced password es n
  answers
    | .getPassword, r => (r = none → password = none) ∧ ∀ n, r = some n → Sourced password es n
    | .locked (.request frame register), .ok payload =>
      .notify payload ∈ es ∧ Answers payload register frame.flag
    | _, _ => True

private lemma grants {asks : Job → Prop} {j : Job} (h : asks j) :
    Grants (sourced password es asks) (fun _ => True) j :=
  ⟨h, fun _ _ => trivial⟩

/-- What needs a password goes on with one that has a source. -/
lemma within_requirePassword_bind {α : Type} {asks : Job → Prop} {f : ℤ → Client α}
    (hread : asks (.request passwordFrame Register.password.value))
    (hf : ∀ n, Sourced password es n → Client.Within (sourced password es asks) (fun _ => True) (f n)) :
    Client.Within (sourced password es asks) (fun _ => True) (asyncRequirePassword >>= f) := by
  simp only [asyncRequirePassword, asyncGetPassword_eq, bind_assoc]
  refine .getPassword_bind trivial fun r hr => ?_
  cases r with
  | some n =>
    rw [pure_bind]
    exact hf n (hr.2 n rfl)
  | none =>
    simp only [bind_assoc]
    refine .locked_bind (grants hread) fun payload hp => .raising_bind (fun _ _ => trivial) fun n hn => ?_
    have hn : Sourced password es n := .read (hr.1 rfl) hp.1 hp.2 hn
    exact .bind (.setPassword hn) fun _ => hf n hn

/-- The jobs of a command: its frame is built with a password that has a source. -/
def SourcedCommand (command : Command) (password : Option ℤ) (es : List (Event β)) (j : Job) : Prop :=
  ∀ frame, j = .request frame Register.control.value →
    ∃ n, Sourced password es n ∧ buildControl command n = .ok frame

lemma within_asyncSendControl (command : Command) :
    Client.Within (sourced password es (SourcedCommand command password es)) (fun _ => True)
      (asyncSendControl command) := by
  have hread : SourcedCommand command password es
      (.request passwordFrame Register.password.value) := by
    rintro frame ⟨⟩
  unfold asyncSendControl
  refine within_requirePassword_bind hread fun n hn => ?_
  refine .raising_bind (fun _ _ => trivial) fun frame hf => ?_
  have hsend : SourcedCommand command password es (.request frame Register.control.value) := by
    rintro _ ⟨rfl⟩
    exact ⟨n, hn, hf⟩
  exact .bind (.locked (grants hsend)) fun _ => .raising fun _ _ => trivial

/-- No method remembers another password. -/
lemma sourced_kept (m : Method) :
    Client.Within (sourced password es fun _ => True) (fun _ => True) m.program := by
  refine within_of_issues (fun _ _ => grants trivial) (fun _ _ => trivial)
    (.inr fun _ => trivial) fun _ _ => ?_
  rw [← bind_pure asyncRequirePassword]
  exact within_requirePassword_bind trivial fun n _ => .ok n

/-! ### Runs -/

section

variable {timeoutHint : Option String} {s s' : State β} {e : Event β}

/-- The password that the client has is one that has a source, because no call that is still to go
on will set another. -/
structure State.HasSource (s : State β) (timeoutHint : Option String) (password : Option ℤ)
    (es : List (Event β)) : Prop where
  past : ∃ es₁ ⊆ es, ClientRun timeoutHint password Always es₁ s
  unset : s.password = none → password = none
  set : ∀ n, s.password = some n → Sourced password es n
  obeys : ∀ c, s.Obeys c (sourced password es fun _ => True) fun _ => True

namespace State.HasSource

/-- Every step answers an operation as promised. -/
lemma answers (h : s.HasSource timeoutHint password es) (hs : s.Consistent) (hst : Step s e s')
    {asks : Job → Prop} {c : ℕ} {o : Op} {r : Op.Result o} (ha : Answered s s' c e o r) :
    (sourced password es asks).answers o r := by
  cases ha with
  | getPassword => exact ⟨h.unset, h.set⟩
  | setPassword => trivial
  | @refused j | @gaveUp j => cases j <;> trivial
  | @block _ j r hb =>
    cases j with
    | writeFrames | history => trivial
    | request frame register =>
      cases r with
      | error x => trivial
      | ok payload =>
        obtain ⟨i, hr, hf⟩ := future_of_returned hst hs hb
        obtain ⟨es₁, hsub, hrun⟩ := h.past
        obtain ⟨es₂, es₃, -, rfl, -, -, -, -, ha⟩ := answered_of_resolved hrun hr hf
        exact ⟨hsub (by simp), ha⟩

lemma step (h : s.HasSource timeoutHint password es) (hs : s.Consistent) (hP : OnlyMethods s e)
    (he : e ∈ es) (hst : s.step e = some s') : s'.HasSource timeoutHint password es := by
  have hstep := Step.of_step hst
  refine ⟨?_, fun hn => ?_, fun n hn => ?_, fun c => ?_⟩
  · obtain ⟨es₁, hsub, hrun⟩ := h.past
    refine ⟨es₁ ++ [e], ?_, hrun.append (.single trivial hst)⟩
    intro e' he'
    rcases List.mem_append.1 he' with he' | he'
    · exact hsub he'
    · rwa [List.mem_singleton.1 he']
  · rcases hstep.password_cases with hp | ⟨c, n, k, hp, -⟩
    · exact h.unset (hp ▸ hn)
    · cases hp.symm.trans hn
  · rcases hstep.password_cases with hp | ⟨c, n', k, hp, hr⟩
    · exact h.set n (hp ▸ hn)
    · cases hp.symm.trans hn
      exact (Prog.Meets.op_iff.1 ((h.obeys c).remains _ hr)).1
  · refine (h.obeys c).step hstep hs (fun p n hp => ?_) (fun _ _ _ _ => trivial)
      fun o k r _ ha => h.answers hs hstep ha
    subst hp
    obtain ⟨m, f, rfl⟩ := hP
    exact (((sourced_kept m).map f).meets).mono fun _ _ => trivial

end State.HasSource

/-- A command that is on its way was built with a password that has a source. -/
theorem sourced_of_requesting (h : ClientRun timeoutHint password OnlyMethods es s) {c n i : ℕ}
    {command : Command} {f : Unit → β} {frame : Frame}
    (hspawn : .spawn c (f <$> asyncSendControl command).run n ∈ es)
    (hr : s.Requesting c frame Register.control.value i) :
    ∃ n, Sourced password es n ∧ buildControl command n = .ok frame := by
  let I (u : State β) : Prop := u.HasSource timeoutHint password es ∧
    u.Obeys c (sourced password es (SourcedCommand command password es)) fun _ => True
  have hstep : ∀ u e v, I u → OnlyMethods u e ∧ e ∈ es → u.step e = some v → I v := by
    rintro u e v ⟨hsrc, hobeys⟩ ⟨hP, he⟩ hst
    obtain ⟨es₁, -, hpast⟩ := hsrc.past
    have hu := State.consistent_of_run hpast
    refine ⟨hsrc.step hu hP he hst, hobeys.step (Step.of_step hst) hu (fun p m hp => ?_)
      (fun _ _ _ _ => trivial) fun o k r _ ha => hsrc.answers hu (Step.of_step hst) ha⟩
    obtain rfl := spawn_unique h hspawn (hp ▸ he)
    exact (((within_asyncSendControl command).map f).meets).mono fun _ _ => trivial
  have hinit : I (State.init β timeoutHint password) := by
    refine ⟨⟨⟨[], List.nil_subset _, .nil _⟩, id, fun n hn => .configured hn, fun c => ?_⟩, ?_⟩
    · exact State.Obeys.init timeoutHint password
    · exact State.Obeys.init timeoutHint password
  obtain ⟨k, m, fl, hl, -⟩ := hr
  have hmeets := (h.mem.invariant hstep hinit).2.remains _ (.delivering hl)
  exact (Prog.Meets.op_iff.1 hmeets).1 frame rfl

end

end SpinevBle
