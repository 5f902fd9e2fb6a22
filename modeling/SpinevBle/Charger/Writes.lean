import SpinevBle.Charger.Answers
import SpinevBle.Charger.Control
import SpinevBle.Protocol.FloatCodec

/-!
# Nothing is written that was not asked for

Whatever the calls of a client do to each other, a frame that is not a read belongs to a call whose
method is there to send it: a command carries the command that was asked for, a setting the values
that it was given, a restart comes from a call that commits. The current limit stays within its
bounds as the charger reads it, since the bounds survive the rounding.
-/

namespace SpinevBle

open Asyncio Interaction Transition

variable {β : Type} {s s' : State β} {e : Event β} {c : ℕ}

/-! ### Frames that change something -/

/-- A frame that only asks for something. The flag of an alarm read is its bank. -/
def Frame.IsRead (f : Frame) : Prop :=
  f.flag = Operation.read.value ∨ f.register = Register.alarms.value

/-- The limit is within the bounds of the call, as a float and as the charger reads it. -/
structure WithinLimits (amps maxAmps : PyFloat) (raw : Word) : Prop where
  least : minCurrentA.le amps = true
  most : amps.le maxAmps = true
  packed : packFloat amps = .ok raw
  leastRead : minCurrentA.le (unpackFloat raw) = true
  mostRead : maxAmps.IsBinary32 → (unpackFloat raw).le maxAmps = true

/-- What a method is there to change, and with which frame. -/
inductive Method.Changes : Method → Frame → Prop
  | control {command frame} (hr : frame.register = Register.control.value)
      (hc : frame.raw.b₀ = UInt8.ofNat command.value) : Changes (control command) frame
  | limit {amps maxAmps allow applied frame} (hr : frame.register = Register.currentLimit.value)
      (hraw : WithinLimits amps maxAmps frame.raw) :
      Changes (set (.currentLimit amps maxAmps allow) applied) frame
  | setting {setter applied frames frame} (hs : setter.isRequest = false)
      (h : setter.frames = .ok frames) (hf : frame ∈ frames) : Changes (set setter applied) frame
  | commit {m frame} (hm : m.commits = true) (h : buildCommit = .ok frame) : Changes m frame

/-! ### What a method issues -/

/-- A limit that is out of range is not issued at all. -/
def Method.InRange : Method → Prop
  | set (.currentLimit amps maxAmps _) _ => minCurrentA.le amps = true ∧ amps.le maxAmps = true
  | _ => True

/-- The jobs of a call of the method. -/
def ofMethod (m : Method) : Promise Op Op.Result where
  asks o := ∀ j, o = .locked j → m.Issues j ∧ m.InRange
  answers _ _ := True

lemma Method.within_ofMethod (m : Method) :
    Client.Within (ofMethod m) (fun _ => True) m.program := by
  by_cases hm : m.InRange
  · exact within_of_covers (covers_of_jobs fun j hj => ⟨hj, hm⟩)
  · cases m with
    | set setter applied =>
      cases setter with
      | currentLimit amps maxAmps allow =>
        exact .ite (fun _ => .throw_bind trivial) fun hn => absurd (not_not.1 hn) hm
      | _ => exact absurd trivial hm
    | _ => exact absurd trivial hm

/-- Whatever a method issues is a read or changes what the method is there to change. -/
lemma Method.Issues.changes {m : Method} {j : Job} (h : m.Issues j) (hm : m.InRange) {f : Frame}
    (hf : f ∈ j.frames) : f.IsRead ∨ m.Changes f := by
  have hsingle : ∀ {frame : Frame} {register : UInt8},
      f ∈ (Job.request frame register).frames → f = frame := fun hf => List.mem_singleton.1 hf
  have hread : ∀ {frame : Frame} {register parameter : ℤ},
      buildRead register parameter = .ok frame → frame.IsRead := by
    intro frame register parameter hb
    rw [buildRead, bind_eq_ok] at hb
    obtain ⟨r, -, hb⟩ := hb
    exact .inl (flag_buildReadOf hb)
  cases h with
  | readRaw hb | readString hb =>
    cases hsingle hf
    exact .inl (hread hb)
  | read _ hb =>
    cases hsingle hf
    exact .inl (hread hb)
  | alarms _ hb =>
    cases hsingle hf
    exact .inl (.inr (register_buildAlarmRead hb))
  | control hb =>
    cases hsingle hf
    obtain ⟨hp, rfl⟩ := buildControl_eq_ok.1 hb
    exact .inr (.control rfl (b₀_control _ hp))
  | @limit amps maxAmps allow applied frame hb =>
    cases hsingle hf
    have hraw : packFloat amps = .ok f.raw := by
      rw [buildWriteFloat, bind_eq_ok] at hb
      obtain ⟨raw, hraw, hb⟩ := hb
      cases hb
      exact hraw
    exact .inr (.limit (register_buildWriteFloat hb) ⟨hm.1, hm.2, hraw,
      le_unpackFloat hraw isBinary32_minCurrentA hm.1, fun hmax => unpackFloat_le hraw hmax hm.2⟩)
  | setting hs hb => exact .inr (.setting hs hb hf)
  | commit hc hb =>
    cases List.mem_singleton.1 hf
    exact .inr (.commit hc hb)
  | @history count =>
    cases hx : historyFrame count with
    | error x => simp [Job.frames, hx] at hf
    | ok frame =>
      rw [Job.frames_history hx] at hf
      cases List.mem_singleton.1 hf
      rw [historyFrame_eq] at hx
      exact .inl (hread hx)

/-! ### Every run -/

/-- Every send was created for a call that has been made. -/
lemma calls_of_sendTask {timeoutHint : Option String} {password : Option ℤ}
    {P : State β → Event β → Prop} {es : List (Event β)}
    (h : ClientRun timeoutHint password P es s) {i : ℕ} {task : SendTask}
    (ht : s.sendTasks i = some task) : s.calls task.call ≠ none := by
  have hstep : ∀ (u : State β) e v, u.Consistent →
      (∀ i task, u.sendTasks i = some task → u.calls task.call ≠ none) → P u e → Step u e v →
      ∀ i task, v.sendTasks i = some task → v.calls task.call ≠ none := by
    intro u e v hs hu _ hst i task ht
    rcases hst.sendTask_origin ht with ⟨state, ht'⟩ | ⟨j, k, n, fl, hl, -⟩
    · exact hst.calls_ne_none (hu i { task with state := state } ht')
    · obtain ⟨cn, hc⟩ := (hs.step hst).owner _ hl
      have hc' : v.calls task.call = some ⟨.inside, cn⟩ := hc
      rw [hc']
      exact Option.some_ne_none _
  exact invariant_of_run hstep h (.init _ _) (fun _ _ h => by cases h) i task ht

section

variable {timeoutHint : Option String} {password : Option ℤ} {es : List (Event β)}

/-- A call of a client of methods is one of a method, and does what its method may issue. -/
lemma obeys_method (h : ClientRun timeoutHint password OnlyMethods es s) (hc : s.calls c ≠ none) :
    ∃ (m : Method) (f : m.Result → β) (n : ℕ), .spawn c (f <$> m.program).run n ∈ es ∧
      s.Obeys c (ofMethod m) fun _ => True := by
  obtain ⟨p, n, hspawn⟩ := exists_spawn h hc
  obtain ⟨m, f, rfl⟩ : ∃ (m : Method) (f : m.Result → β), p = (f <$> m.program).run := by
    obtain ⟨es₁, es₂, rfl⟩ := List.append_of_mem hspawn
    obtain ⟨u, -, hrun⟩ := h.of_append
    cases hrun with
    | cons hP => exact hP
  refine ⟨m, f, n, hspawn, (obeys_of_run (J := fun _ => True) (fun _ _ _ _ _ _ _ => trivial)
    trivial (fun p' n' hp' => ?_) (fun _ _ _ _ _ _ => trivial)
    (fun _ _ _ _ _ _ _ _ _ _ _ _ => trivial) h).2⟩
  obtain rfl := spawn_unique h hp' hspawn
  exact (m.within_ofMethod.map f).meets.mono fun _ _ => trivial

/-- What a call has to do next is one of the jobs of its method. -/
lemma issues_of_remains (h : ClientRun timeoutHint password OnlyMethods es s) {j : Job}
    {k : Except Exc j.Value → Program (Except Exc β)} (hr : s.Remains c (.op (.locked j) k)) :
    ∃ (m : Method) (f : m.Result → β) (n : ℕ), .spawn c (f <$> m.program).run n ∈ es ∧
      m.Issues j := by
  have hc := hr.calls_ne_none (State.consistent_of_run h)
  obtain ⟨m, f, n, hspawn, hobeys⟩ := obeys_method h hc
  exact ⟨m, f, n, hspawn, ((Prog.Meets.op_iff.1 (hobeys.remains _ hr)).1 j rfl).1⟩

/-- So is every job that has had the lock. -/
lemma issues_of_block (h : ClientRun timeoutHint password OnlyMethods es s) {b : Block}
    (hb : b ∈ s.blocks) :
    ∃ (m : Method) (f : m.Result → β) (n : ℕ), .spawn b.call (f <$> m.program).run n ∈ es ∧
      m.Issues b.job := by
  obtain ⟨es₁, e, es₂, v, w, rfl, h₁, hv, -, hst, hw, -⟩ :=
    h.exists_step (fun u => b ∈ u.blocks) (by simp [State.init]) hb
  have hst : Step v e w := Step.of_step hst
  rcases hst.blocks_cases (State.consistent_of_run h₁) with hsame | ⟨b', hnew, -⟩
  · exact absurd (hsame ▸ hw) hv
  · rw [hnew, List.mem_cons] at hw
    obtain rfl := hw.resolve_right hv
    obtain ⟨-, k, cn, hremains, -⟩ := hst.ended hnew
    obtain ⟨m, f, n, hspawn, hj⟩ := issues_of_remains h₁ hremains
    exact ⟨m, f, n, List.mem_append_left _ hspawn, hj⟩

end

/-- Every frame that a client of methods has made is a read, or it changes what its call was made to
change. -/
theorem writes_asked_for {timeoutHint : Option String} {password : Option ℤ}
    {es : List (Event β)} (h : ClientRun timeoutHint password OnlyMethods es s) {i : ℕ}
    {task : SendTask} (ht : s.sendTasks i = some task) :
    task.frame.IsRead ∨ ∃ (m : Method) (f : m.Result → β) (n : ℕ),
      .spawn task.call (f <$> m.program).run n ∈ es ∧ m.Changes task.frame := by
  obtain ⟨m, f, n, hspawn, hobeys⟩ := obeys_method h (calls_of_sendTask h ht)
  obtain ⟨j, hj, hf⟩ := hobeys.sends i task ht rfl
  obtain ⟨hissues, hrange⟩ := hj j rfl
  rcases hissues.changes hrange hf with hread | hchange
  · exact .inl hread
  · exact .inr ⟨m, f, n, hspawn, hchange⟩

/-- The offset is set while another call reads the state. -/
def timezoneBesideReadEvents : List (Event Unit) :=
  [.link true, .spawn 0 (id <$> (Method.set (.timezone 1 0) false).program).run 0,
    .spawn 1 ((fun _ => ()) <$> Method.getStateValue.program).run 0, .run 1, .run 1, .run 0, .run 0,
    .run 0]

theorem writes_asked_for_timezone :
    ∃ s : State Unit, ClientRun none none OnlyMethods timezoneBesideReadEvents s ∧
      ∃ task, s.sendTasks 0 = some task ∧ task.frame.register = 0x78 ∧
        (task.frame.IsRead ∨ ∃ (m : Method) (f : m.Result → Unit) (n : ℕ),
          .spawn task.call (f <$> m.program).run n ∈ timezoneBesideReadEvents ∧
            m.Changes task.frame) := by
  have hrun : ClientRun none none Always timezoneBesideReadEvents _ := Run.of_exec rfl
  have hmethods : ∀ e ∈ timezoneBesideReadEvents, ∀ u, OnlyMethods u e := by
    simp only [timezoneBesideReadEvents, List.forall_mem_cons, OnlyMethods, implies_true, true_and,
      List.not_mem_nil, false_implies, and_true]
    exact ⟨fun _ => ⟨_, _, rfl⟩, fun _ => ⟨_, _, rfl⟩⟩
  have h := onlyMethods_of_mem hrun hmethods
  exact ⟨_, h, _, rfl, rfl, writes_asked_for (i := 0) h rfl⟩

end SpinevBle
