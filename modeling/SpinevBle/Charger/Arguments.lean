import SpinevBle.Charger.Answers

/-!
# Refused arguments

A call is refused because of its arguments if it raises whatever its reads and writes come to. Such
a call sends no write: the only thing it may have sent is the read of the charger's state.
-/

namespace SpinevBle

open Asyncio Interaction Transition

variable {β : Type}

/-! ### What is refused -/

/-- No outcome of its operations lets the method return, on a client with this password. -/
def Method.Refused (m : Method) (password : Option ℤ) : Prop :=
  ∀ answer : (o : Op) → Op.Result o, answer .getPassword = password →
    ∀ a, m.program.run.eval answer ≠ .ok a

/-- The arguments that a setter accepts. -/
structure Setter.Accepted (setter : Setter) : Prop where
  frames : ∃ frames, setter.frames = .ok frames
  range : ∀ amps maxAmps allow, setter = .currentLimit amps maxAmps allow →
    minCurrentA.le amps = true ∧ amps.le maxAmps = true

/-- The passwords with which a command can be sent. One that is read from the charger always
fits. -/
def PasswordAccepted (password : Option ℤ) : Prop :=
  ∀ n, password = some n → 0 ≤ n ∧ n ≤ passwordMax

/-- All writes succeed, the charger is idle, and it has the password zero. -/
def agreeable (password : Option ℤ) : (o : Op) → Op.Result o
  | .locked (.request frame _) =>
    .ok (if frame.register = Register.control.value then frame.bytes
      else [0x10, 0xAC, 0, 0, 0, 0, 0, 0])
  | .locked (.writeFrames _) => .ok ()
  | .locked (.history _) => .ok []
  | .getPassword => password
  | .setPassword _ => ()

private lemma eval_commitIf (password : Option ℤ) (commit : Bool) :
    (commitIf commit).run.eval (agreeable password) = .ok () := by
  cases commit <;> rfl

private lemma eval_limit {password : Option ℤ} {amps : PyFloat} {frame : Frame}
    (hf : buildWriteFloat .currentLimit amps = .ok frame) (commit : Bool) :
    (do
      let frame ← raising (buildWriteFloat .currentLimit amps)
      let _ ← request frame Register.currentLimit.value
      commitIf commit : Client Unit).run.eval (agreeable password) = .ok () := by
  rw [hf]
  exact eval_commitIf password commit

private lemma eval_set {setter : Setter} {commit : Bool} {password : Option ℤ}
    (h : setter.Accepted) : (setter.program commit).run.eval (agreeable password) = .ok () := by
  obtain ⟨⟨frames, hframes⟩, hrange⟩ := h
  cases hs : setter.isRequest with
  | false =>
    rw [Setter.program_eq hs, hframes]
    exact eval_commitIf password commit
  | true =>
    obtain ⟨amps, maxAmps, allow, rfl⟩ := Setter.eq_currentLimit hs
    have hin := hrange amps maxAmps allow rfl
    cases hf : buildWriteFloat .currentLimit amps with
    | error x =>
      rw [Setter.frames, hf] at hframes
      cases hframes
    | ok frame =>
      simp only [Setter.program, asyncSetCurrentLimit, hin, and_self, not_true_eq_false, if_false]
      cases allow with
      | true => exact eval_limit hf commit
      | false =>
        have hstate : asyncGetStateValue.run.eval (agreeable password) = .ok 0 := rfl
        exact (Client.eval_bind hstate _).trans (eval_limit hf commit)

private lemma eval_control {command : Command} {password : Option ℤ}
    (h : PasswordAccepted password) :
    (asyncSendControl command).run.eval (agreeable password) = .ok () := by
  have hsend : ∀ n : ℤ, 0 ≤ n ∧ n ≤ passwordMax → Prog.eval (agreeable password)
      (do
        let frame ← raising (buildControl command n)
        let reply ← request frame Register.control.value
        raising (checkControlReply frame reply) : Client Unit).run = .ok () := by
    intro n hn
    obtain ⟨frame, hf⟩ : ∃ frame, buildControl command n = .ok frame :=
      ⟨_, buildControl_eq_ok.2 ⟨hn, rfl⟩⟩
    have hr := register_buildControl hf
    have hreply : (request frame Register.control.value).run.eval (agreeable password) =
        .ok frame.bytes := congrArg Except.ok (if_pos hr)
    rw [hf]
    refine (Client.eval_bind hreply _).trans ?_
    exact checkControlReply_echo hr (raw_buildControl hf)
  cases password with
  | some n => exact hsend n (h n rfl)
  | none =>
    have hread : asyncRequirePassword.run.eval (agreeable none) = .ok 0 := rfl
    exact (Client.eval_bind hread _).trans (hsend 0 (by decide))

/-- What a setter raises whatever comes back, it raises because of its arguments. -/
lemma Setter.refused {setter : Setter} {commit : Bool} {password : Option ℤ} :
    (Method.set setter commit).Refused password → ¬ setter.Accepted :=
  fun h ha => h (agreeable password) rfl () (eval_set ha)

lemma control_refused {command : Command} {password : Option ℤ}
    (h : (Method.control command).Refused password) : ¬ PasswordAccepted password :=
  fun ha => h (agreeable password) rfl () (eval_control ha)

/-! ### What a refused call asks for -/

/-- A configured password is what the client knows, and it is not replaced. -/
def knownPassword (password : Option ℤ) (asks : Job → Prop) : Promise Op Op.Result where
  asks
    | .locked j => asks j
    | .getPassword => True
    | .setPassword _ => password = none
  answers
    | .getPassword, answer => ∀ n, password = some n → answer = some n
    | _, _ => True

lemma knownPassword_kept (password : Option ℤ) : KeptByAll (knownPassword password fun _ => True) :=
  fun _ => {
    jobs := fun _ _ => ⟨trivial, fun _ _ => trivial⟩
    getPassword := trivial
    setPassword := fun h _ => Option.eq_none_iff_forall_ne_some.2 fun n hn => by cases h n hn
    spinEv := fun _ _ => trivial
    fits := .inr fun _ => trivial }

/-- The read of the state. -/
def Job.IsStateRead (j : Job) : Prop :=
  ∃ frame, buildRead Register.state.id = .ok frame ∧ j = .request frame frame.register

/-- Nothing but the state is asked for. -/
abbrev readsState (password : Option ℤ) : Promise Op Op.Result :=
  knownPassword password Job.IsStateRead

private lemma grants_state {password : Option ℤ} :
    GrantsRead (readsState password) (fun _ => True) Register.state.id 0 := fun frame hf =>
  ⟨⟨frame, hf, rfl⟩, fun _ _ => trivial⟩

private lemma within_set {setter : Setter} {commit : Bool} {password : Option ℤ}
    (h : ¬ setter.Accepted) :
    Client.Within (readsState password) (fun _ => True) (setter.program commit) := by
  cases hs : setter.isRequest with
  | false =>
    rw [Setter.program_eq hs]
    cases hf : setter.frames with
    | error x => exact .throw_bind trivial
    | ok frames =>
      refine absurd ⟨⟨frames, hf⟩, ?_⟩ h
      rintro amps maxAmps allow rfl
      cases hs
  | true =>
    obtain ⟨amps, maxAmps, allow, rfl⟩ := Setter.eq_currentLimit hs
    refine .ite (fun _ => .throw_bind trivial) fun hin => ?_
    rw [not_not] at hin
    cases hf : buildWriteFloat .currentLimit amps with
    | error x =>
      refine .ite (fun _ => .bind ?_ fun state => ?_) fun _ => .throw_bind trivial
      · exact within_asyncGetStateValue (fun _ _ => trivial) grants_state
      · exact .ite (fun _ => .throw_bind trivial) fun _ => .throw_bind trivial
    | ok frame =>
      refine absurd ⟨⟨[frame], by rw [Setter.frames, hf]; rfl⟩, ?_⟩ h
      rintro _ _ _ ⟨rfl⟩
      exact hin

private lemma within_control {command : Command} {password : Option ℤ}
    (h : ¬ PasswordAccepted password) :
    Client.Within (readsState password) (fun _ => True) (asyncSendControl command) := by
  simp only [PasswordAccepted, not_forall] at h
  obtain ⟨n, rfl, hn⟩ := h
  simp only [asyncSendControl, asyncRequirePassword, bind_assoc]
  refine .getPassword_bind trivial fun configured hc => ?_
  obtain rfl := hc n rfl
  rw [pure_bind, buildControl, if_neg hn]
  exact .throw_bind trivial

/-! ### Runs -/

section

variable {timeoutHint : Option String} {password : Option ℤ} {es : List (Event β)} {s : State β}

/-- The client still has the password that it was configured with. -/
def State.KnowsPassword (s : State β) (password : Option ℤ) : Prop :=
  ∀ n, password = some n → s.password = some n

/-- A step answers the question for the password with the one the client has. -/
lemma State.KnowsPassword.answers {s s' : State β} {e : Event β} {c : ℕ} {asks : Job → Prop}
    (h : s.KnowsPassword password) {o : Op} {r : Op.Result o} (ha : Answered s s' c e o r) :
    (knownPassword password asks).answers o r := by
  cases ha with
  | getPassword => exact h
  | setPassword | refused | gaveUp | block => exact trivial

/-- Only a call that sets the password changes it. -/
lemma Step.password_cases {s s' : State β} {e : Event β} (h : Step s e s') :
    s'.password = s.password ∨
      ∃ c password k, s'.password = some password ∧ s.Remains c (.op (.setPassword password) k) := by
  cases h with
  | setPassword hc => exact .inr ⟨_, _, _, rfl, .running hc⟩
  | enter => exact .inl (s.goesOn_enter _ _ _ _).password
  | next => exact .inl (State.goesOn_nextFrame _ _ _ _ _ _).password
  | cancel | expire => exact .inl (State.interrupt_password _ _ _ _)
  | _ => exact .inl rfl

/-- The configured password stays, because no call that is still to go on will replace it. -/
structure State.KeepsPassword (s : State β) (password : Option ℤ) : Prop where
  known : s.KnowsPassword password
  obeys : ∀ c, s.Obeys c (knownPassword password fun _ => True) fun _ => True

lemma State.KeepsPassword.step {s s' : State β} {e : Event β} (h : s.KeepsPassword password)
    (hs : s.Consistent) (hP : OnlyMethods s e) (hst : Step s e s') :
    s'.KeepsPassword password := by
  constructor
  · intro n hn
    rcases hst.password_cases with hp | ⟨c, n', k, -, hr⟩
    · exact hp.trans (h.known n hn)
    · have hnone : password = none := (Prog.Meets.op_iff.1 ((h.obeys c).remains _ hr)).1
      cases hnone.symm.trans hn
  · intro c
    refine (h.obeys c).step hst hs (fun p n he => ?_) (fun _ _ _ _ => trivial)
      fun o k r _ ha => h.known.answers ha
    subst he
    obtain ⟨m, f, rfl⟩ := hP
    exact (knownPassword_kept password).meets m f

/-- A call that is refused because of its arguments has handed nothing to the transport but a read
of the state. -/
theorem refused_calls_write_nothing {m : Method}
    (hm : (∃ setter commit, m = .set setter commit) ∨ ∃ command, m = .control command)
    (hr : m.Refused password) (h : ClientRun timeoutHint password OnlyMethods es s) {c n : ℕ}
    {f : m.Result → β} (hspawn : .spawn c (f <$> m.program).run n ∈ es) :
    ∀ i task, s.sendTasks i = some task → task.call = c →
      task.frame.register = Register.state.value ∧ task.frame.flag = Operation.read.value := by
  have hwithin : Client.Within (readsState password) (fun _ => True) m.program := by
    obtain ⟨setter, commit, rfl⟩ | ⟨command, rfl⟩ := hm
    · exact within_set (Setter.refused hr)
    · exact within_control (control_refused hr)
  have hmeets : ∀ p n, .spawn c p n ∈ es → p.Meets (readsState password) fun _ => True := by
    intro p n' hp
    obtain rfl := spawn_unique h hspawn hp
    exact ((hwithin.map f).meets).mono fun _ _ => trivial
  have hinit : (State.init β timeoutHint password).KeepsPassword password :=
    ⟨fun _ hn => hn, fun _ => .init _ _⟩
  have hstep : ∀ (u : State β) e v, u.Consistent → u.KeepsPassword password →
      OnlyMethods u e → Step u e v → v.KeepsPassword password := fun _ _ _ hu hk hP hst =>
    hk.step hu hP hst
  have hobeys : s.Obeys c (readsState password) fun _ => True :=
    (obeys_of_run hstep hinit hmeets (fun _ _ _ _ _ _ => trivial)
      (fun _ _ _ _ _ _ _ hk _ _ _ ha => hk.known.answers ha) h).2
  intro i task ht hc
  obtain ⟨j, ⟨frame, hframe, rfl⟩, hj⟩ := hobeys.sends i task ht hc
  obtain rfl := List.mem_singleton.1 hj
  rw [buildRead_id] at hframe
  exact ⟨register_buildReadOf hframe, flag_buildReadOf hframe⟩

end

/-- Everything but the last field is fine. -/
def badIdConfig : OcppConfig := ⟨"example.org", 80, "/", "é"⟩

/-- The settings are refused, and the state that another call has asked for is read. -/
def badIdEvents : List (Event Unit) :=
  [.link true, .spawn 0 (id <$> (Method.set (.ocppConfig badIdConfig) true).program).run 0, .run 0,
    .run 0, .spawn 1 ((fun _ => ()) <$> Method.getStateValue.program).run 0, .run 1, .run 1, .run 1,
    .sendStart 0]

theorem refused_calls_write_nothing_bad_id :
    ∃ s, ClientRun none none OnlyMethods badIdEvents s ∧
      (∃ x cn, s.calls 0 = some ⟨.finished (.error x), cn⟩) ∧
      ∀ i task, s.sendTasks i = some task → task.call = 0 →
        task.frame.register = Register.state.value ∧ task.frame.flag = Operation.read.value := by
  have hrun : ClientRun none none Always badIdEvents _ := Run.of_exec rfl
  have h : ClientRun none none OnlyMethods badIdEvents _ := onlyMethods_of_mem hrun <| by
    simp only [badIdEvents, List.forall_mem_cons]
    simp only [OnlyMethods, implies_true, true_and, List.not_mem_nil, false_implies, and_true]
    exact ⟨fun _ => ⟨_, _, rfl⟩, fun _ => ⟨_, _, rfl⟩⟩
  have hr : (Method.set (.ocppConfig badIdConfig) true).Refused none := fun answer _ a ha => by
    cases ha
  exact ⟨_, h, ⟨_, _, rfl⟩, refused_calls_write_nothing (.inl ⟨_, _, rfl⟩) hr h (.tail _ (.head _))⟩

end SpinevBle
