import SpinevBle.Link.Course

/-!
# Replies that arrive with their sends

A link may hand over the reply to a frame in the last step of its send, as the tunnel does. Over
such a link every script can come to its end, and what it does there it can do over any link.
-/

namespace SpinevBle

open Asyncio Interaction Transition

variable {σ : Type} {peer : Peer σ} {hint : Option String} {s t : Line σ} {x : Standing}

/-! ### The system -/

/-- A reply arrives with the end of its send and not otherwise. -/
def Line.stepJoined (peer : Peer σ) (s : Line σ) : LineEvent → Option (Line σ)
  | .arrive _ => none
  | .sendEnd i =>
    if (s.due i).isSome then [LineEvent.arrive i, .sendEnd i].foldlM (Line.step peer) s
    else Line.step peer s (.sendEnd i)
  | e => Line.step peer s e

/-- One script over a link whose replies arrive with their sends. -/
def joined {σ : Type} (peer : Peer σ) (hint : Option String) (password : Option ℤ) (script : Script)
    (s : σ) : System (Line σ) LineEvent :=
  ⟨.init hint password script s, Line.stepJoined peer⟩

/-- Each step is one or two steps of a link. -/
lemma line_of_joined {e : LineEvent} (h : Line.stepJoined peer s e = some t) :
    ∃ es : List LineEvent, es.foldlM (Line.step peer) s = some t := by
  cases e with
  | arrive i => cases h
  | sendEnd i =>
    simp only [Line.stepJoined] at h
    split_ifs at h
    · exact ⟨_, h⟩
    · exact ⟨[.sendEnd i], by simp [h]⟩
  | next => exact ⟨[.next], by simp [← h, Line.stepJoined]⟩
  | run => exact ⟨[.run], by simp [← h, Line.stepJoined]⟩
  | returned => exact ⟨[.returned], by simp [← h, Line.stepJoined]⟩
  | deadline => exact ⟨[.deadline], by simp [← h, Line.stepJoined]⟩
  | sendStart i => exact ⟨[.sendStart i], by simp [← h, Line.stepJoined]⟩
  | sendQuit i => exact ⟨[.sendQuit i], by simp [← h, Line.stepJoined]⟩

/-- Whatever a script can do there it can do over any link. -/
theorem line_of_joinedRun {password : Option ℤ} {script : Script} {s₀ : σ} {es : List LineEvent}
    (h : Run (joined peer hint password script s₀) Always s es t) :
    ∃ es, Run (line peer hint password script s₀) Always s es t :=
  h.expand id fun _ _ _ hst =>
    let ⟨_, hes⟩ := line_of_joined hst
    ⟨_, Run.of_foldlM hes⟩

lemma Line.Sound.stepJoined {e : LineEvent} (hs : s.Sound hint)
    (h : Line.stepJoined peer s e = some t) : t.Sound hint := by
  obtain ⟨es, hes⟩ := line_of_joined h
  have hrun : Run ⟨s, Line.step peer⟩ Always s es t := Run.of_foldlM hes
  have hstep : ∀ u e v, u.Sound hint → Always u e → Line.step peer u e = some v → v.Sound hint :=
    fun _ _ _ hu _ hst => hu.step hst
  exact hrun.invariant hstep hs

/-! ### A frame in progress -/

/-- The script stands at one of these points. -/
def Line.Rests (hint : Option String) (session : Session) (X : Standing → Prop) (s : Line σ) :
    Prop :=
  s.Sound hint ∧ s.session = session ∧ ∃ x, X x ∧ s.At hint x

section

variable {password : Option ℤ} {script : Script} {s₀ : σ} {X : Standing → Prop}

private lemma step_joined {e : LineEvent} {Q : Line σ → Prop}
    (hst : Line.stepJoined peer s e = some t)
    (h : CanReach (joined peer hint password script s₀) t Q) :
    CanReach (joined peer hint password script s₀) s Q := by
  obtain ⟨es, u, hrun, hu⟩ := h
  exact ⟨e :: es, u, .cons trivial hst hrun, hu⟩

variable {c n : ℕ} {j : Job} {k : Except Exc j.Value → Program (Except Exc Turn)} {fl : Flight}
  {cn : Cancellation} {frame : Frame} {state : TaskState Exc} {r : Reply}

/-- The call goes on. -/
private lemma pass (hs : s.Sound hint) (h : s.Sent c j k n fl cn frame state r)
    (hw : s.Awaits hint j fl cn frame r)
    (hready : fl.scope.expiring = true ∨ (∃ o, state = .done o) ∧
      (s.client.futures fl.id = .pending → j.settled hint frame r = none ∨
        ∃ err, r = .refused err ∨ r = .raised err)) :
    CanReach (joined peer hint password script s₀) s
      (Line.Rests hint s.session (Standing.Follows j k (n + 1))) := by
  obtain ⟨client, hst, y, hy, hat, -⟩ := passes_of_sent peer hs h hw hready
  have hstep : Line.stepJoined peer s .run = some { s with client := client } := by
    simp [Line.stepJoined, Line.step, h.calling, hst]
  exact step_joined hstep (.now ⟨hs.stepJoined hstep, rfl, y, hy, hat⟩)

/-- The deadline passes of a frame that nothing will come of. -/
private lemma pass_of_late (hs : s.Sound hint)
    (h : s.Sent c j k n fl cn frame state r) (ho : fl.Open cn)
    (hf : s.client.futures fl.id = .pending)
    (hset : j.settled hint frame r = some (.error (j.timedOut frame hint)))
    (hover : r = .hung ∨ j.waits r = true ∧ ∃ o, state = .done o) :
    CanReach (joined peer hint password script s₀) s
      (Line.Rests hint s.session (Standing.Follows j k (n + 1))) := by
  obtain ⟨client, cn', hst, hsent, hawaits, -⟩ := sent_of_expire hs h ho hf hset
  have hoverdue : overdue s.client s.replies = true := by
    simp only [overdue, h.lock, h.reply, h.task, Option.any_some, Bool.or_eq_true,
      decide_eq_true_eq, Bool.and_eq_true]
    rcases hover with hr | ⟨hwaits, o, rfl⟩
    · exact .inl hr
    · exact .inr ⟨hwaits, rfl⟩
  have hstep : Line.stepJoined peer s .deadline = some { s with client := client } := by
    simp [Line.stepJoined, Line.step, h.calling, hoverdue, hst]
  exact step_joined hstep (pass (hs.stepJoined hstep) hsent hawaits (.inl rfl))

/-- The send has ended, and the reply has arrived if there is one. -/
private lemma pass_of_done {o : Outcome Exc} (hs : s.Sound hint)
    (h : s.Sent c j k n fl cn frame (.done o) r) (hw : s.Awaits hint j fl cn frame r)
    (hdue : s.due fl.id = none) :
    CanReach (joined peer hint password script s₀) s
      (Line.Rests hint s.session (Standing.Follows j k (n + 1))) := by
  obtain ⟨_, ⟨⟩, hro⟩ := h.ended.resolve_left nofun
  cases hw with
  | late hx hreq hend hset => exact pass hs h (.late hx hreq hend hset) (.inl hx)
  | answered ho hf hr ha hnone =>
    exact pass hs h (.answered ho hf hr ha hnone)
      (.inr ⟨⟨o, rfl⟩, fun hp => by cases hf.symm.trans hp⟩)
  | waiting ho hf hown =>
    have hready : (j.settled hint frame r = none ∨ ∃ err, r = .refused err ∨ r = .raised err) →
        CanReach (joined peer hint password script s₀) s
          (Line.Rests hint s.session (Standing.Follows j k (n + 1))) := fun hready =>
      pass hs h (.waiting ho hf hown) (.inr ⟨⟨o, rfl⟩, fun _ => hready⟩)
    have hlate : j.waits r = true → CanReach (joined peer hint password script s₀) s
        (Line.Rests hint s.session (Standing.Follows j k (n + 1))) := fun hwaits =>
      pass_of_late hs h ho hf (Job.settled_of_waits h.nth hwaits) (.inr ⟨hwaits, o, rfl⟩)
    cases r with
    | refused err => exact hready (.inr ⟨err, .inl rfl⟩)
    | raised err => exact hready (.inr ⟨err, .inr rfl⟩)
    | hung => cases hro
    | nothing =>
      cases j with
      | request sent register => exact hlate rfl
      | writeFrames | history => exact hready (.inl rfl)
    | payload p =>
      have ha : ¬ j.Accepts p := fun ha => by cases hdue.symm.trans (hown p rfl ha)
      cases j with
      | request sent register => exact hlate (decide_eq_true ha)
      | writeFrames | history => exact hready (.inl rfl)

/-- A send that does not hang can end. -/
private lemma step_end {o : Outcome Exc} {client : State Turn} {task : SendTask} {i : ℕ}
    (ht : client.sendTasks i = some task) (hrun : task.state = .running) (ho : r.outcome = some o) :
    client.step (.sendEnd i o) = some (client.setSend i task (.done o)) := by
  have hne : o ≠ .raised .cancelledError := by
    rintro rfl
    cases r with
    | nothing | payload p | hung => cases ho
    | refused err | raised err => cases err <;> cases ho
  simp [State.step, State.endSend, ht, hrun, TaskState.busy, hne]

/-- The frame has been sent. -/
private lemma pass_of_sent (hs : s.Sound hint)
    (h : s.Sent c j k n fl cn frame state r) (ho : fl.Open cn)
    (hf : s.client.futures fl.id = .pending)
    (hdue : s.due fl.id = r.payload?) (hstate : r.Started state) :
    CanReach (joined peer hint password script s₀) s
      (Line.Rests hint s.session (Standing.Follows j k (n + 1))) := by
  have hw : s.Awaits hint j fl cn frame r := .waiting ho hf fun p hr _ => by
    rw [hdue, hr]
    rfl
  rcases hstate with ⟨rfl, -⟩ | ⟨err, rfl, rfl⟩
  · cases hro : r.outcome with
    | none =>
      have hr : r = .hung := by
        cases r <;> cases hro
        rfl
      subst hr
      exact pass_of_late hs h ho hf (by cases j <;> rfl) (.inl rfl)
    | some o =>
      cases hd : s.due fl.id with
      | none =>
        obtain ⟨t, rfl, hsent, hawaits⟩ := sent_of_end h hw hro
        have hstep : Line.stepJoined peer s (.sendEnd fl.id) =
            some { s with client := s.client.setSend fl.id ⟨c, frame, .running⟩ (.done o) } := by
          simp [Line.stepJoined, Line.step, hd, h.reply, hro, step_end h.task rfl hro]
        exact step_joined hstep (pass_of_done (hs.stepJoined hstep) hsent hawaits hd)
      | some p =>
        obtain ⟨client, hn, -⟩ := Step.of_onNotify s.client p
        have hst : s.client.step (.notify p) = some client := by simp [State.step, hn, Except.toOption]
        obtain ⟨t, ht, hsent, hawaits, -⟩ := sent_of_arrive hs h hw hd hst
        obtain ⟨u, hu, hsent', hawaits'⟩ := sent_of_end hsent hawaits hro
        have hstep : Line.stepJoined peer s (.sendEnd fl.id) = some u := by
          subst ht
          simp only [Line.stepJoined, hd, Option.isSome_some, if_true, List.foldlM_cons,
            List.foldlM_nil, Line.step, Line.notified, h.connected, hst, Option.bind_eq_bind,
            Option.bind_some, h.reply, hro, step_end hsent.task rfl hro, hu, Option.pure_def]
        have hsession : u.session = s.session := by rw [hu, ht]
        have hnone : u.due fl.id = none := by
          rw [hu, ht]
          exact Function.update_self _ _ _
        rw [← hsession]
        exact step_joined hstep (pass_of_done (hs.stepJoined hstep) hsent' hawaits' hnone)
  · exact pass_of_done hs h hw hdue

/-- A send that has been created can be started. -/
private lemma exists_start {i : ℕ} {task : SendTask} (ht : s.client.sendTasks i = some task)
    (hc : task.state = .created) (r : Reply) :
    ∃ client, (r.startEvents i).foldlM State.step s.client = some client := by
  obtain ⟨client, hstart, ht'⟩ : ∃ client, s.client.step (.sendStart i) = some client ∧
      client.sendTasks i = some { task with state := .running } := by
    simp only [State.step, State.startSend, ht, hc, Option.bind_eq_bind, Option.bind_some, if_true]
    exact ⟨_, rfl, Function.update_self _ _ _⟩
  cases r with
  | refused err =>
    have hend : client.step (.sendEnd i (raisedOutcome err)) = some (client.setSend i _ _) :=
      step_end (r := .refused err) ht' rfl rfl
    exact ⟨_, by simp only [Reply.startEvents, List.foldlM_cons, List.foldlM_nil, hstart, hend,
      Option.bind_eq_bind, Option.bind_some]; rfl⟩
  | nothing | payload p | raised err | hung =>
    exact ⟨client, by simp [Reply.startEvents, hstart]⟩

/-- The call goes on to its next frame, or with what its job has come to. -/
private lemma pass_of_created (hp : peer.Echoes) (hs : s.Sound hint)
    (h : s.At hint (.created j k n)) :
    CanReach (joined peer hint password script s₀) s
      (Line.Rests hint s.session (Standing.Follows j k (n + 1))) := by
  cases h with
  | @created c _ _ _ fl cn frame ha ho hf hrep hdue =>
    obtain ⟨t, r, hr⟩ : ∃ t r, peer s.peer frame = (t, r) := ⟨_, _, rfl⟩
    obtain ⟨client, hst⟩ := exists_start ha.task rfl r
    obtain ⟨-, state, wire, hclient, hstate⟩ := startEvents_cases ha.task hst
    have hstep : Line.stepJoined peer s (.sendStart fl.id) =
        some { s with client := client, peer := t
                      replies := Function.update s.replies fl.id (some r)
                      due := Function.update s.due fl.id r.payload? } := by
      simp [Line.stepJoined, Line.step, ha.task, Line.ask, ha.connected, hr, hst]
    subst hclient
    exact step_joined hstep (pass_of_sent (hs.stepJoined hstep) (sent_of_start hp ha hr hstate) ho hf
      (Function.update_self _ _ _) hstate)

/-- The job comes to its end. -/
private lemma deliver (hp : peer.Echoes) {session : Session} (m : ℕ)
    (hm : j.frames.length ≤ n + m) (hs : s.Rests hint session (Standing.Follows j k n)) :
    CanReach (joined peer hint password script s₀) s
      (Line.Rests hint session fun x => ∃ v, x = .running (k v)) := by
  induction m generalizing s n with
  | zero =>
    obtain ⟨hsound, hsession, x, hx, hat⟩ := hs
    cases hx with
    | created =>
      cases hat with
      | created ha => exact absurd (List.getElem?_eq_some_iff.1 ha.nth).1 (not_lt.2 hm)
    | running v => exact .now ⟨hsound, hsession, _, ⟨v, rfl⟩, hat⟩
  | succ m ih =>
    obtain ⟨hsound, rfl, x, hx, hat⟩ := hs
    cases hx with
    | created => exact (pass_of_created hp hsound hat).trans fun t ht => ih (by omega) ht
    | running v => exact .now ⟨hsound, rfl, _, ⟨v, rfl⟩, hat⟩

end

/-! ### A call -/

section

variable {password : Option ℤ} {script : Script} {s₀ : σ}

/-- A step of a call that does not hold the lock. -/
private lemma step_call {client : State Turn} {c : ℕ} {Q : Line σ → Prop}
    (hs : s.Sound hint) (hc : s.session.calling = some c)
    (hst : s.client.step (.run c) = some client)
    (h : { s with client := client }.Sound hint →
      CanReach (joined peer hint password script s₀) { s with client := client } Q) :
    CanReach (joined peer hint password script s₀) s Q := by
  have hstep : Line.stepJoined peer s .run = some { s with client := client } := by
    simp [Line.stepJoined, Line.step, hc, hst]
  exact step_joined hstep (h (hs.stepJoined hstep))

/-- The call comes to its end. -/
private lemma finish (hp : peer.Echoes) {Q : Except Exc Turn → Prop} {session : Session}
    {p : Program (Except Exc Turn)} (hQ : p.Meets ⟨fun _ => True, fun _ _ => True⟩ Q)
    (hs : s.Rests hint session (· = .running p)) :
    CanReach (joined peer hint password script s₀) s
      (Line.Rests hint session fun x => ∃ r, x = .finished r ∧ Q r) := by
  induction p generalizing s with
  | pure r =>
    obtain ⟨hsound, rfl, _, rfl, hat⟩ := hs
    cases hat with
    | @running c _ cn ho hc hm hplain =>
      have hst : s.client.step (.run c) = some (s.client.setPhase c (.finished r) cn) := by
        simp [State.step, State.runCall, hc]
      refine step_call hsound ho.calling hst fun hsound => ?_
      exact .now ⟨hsound, rfl, _, ⟨r, rfl, Prog.Meets.pure_iff.1 hQ⟩,
        .finished ⟨ho.calling, ho.lock, ho.due⟩ (Function.update_self _ _ _) hplain⟩
  | op o k ih =>
    have hk := fun r => (Prog.Meets.op_iff.1 hQ).2 r trivial
    obtain ⟨hsound, rfl, _, rfl, hat⟩ := hs
    cases hat with
    | @running c _ cn ho hc hm hplain =>
      have hplain' := (Prog.Meets.op_iff.1 hplain).2
      cases o with
      | getPassword =>
        have hst : s.client.step (.run c) =
            some (s.client.setPhase c (.running (k s.client.password)) cn) := by
          simp [State.step, State.runCall, hc]
        refine step_call hsound ho.calling hst fun hsound => ih s.client.password (hk _) ?_
        exact ⟨hsound, rfl, _, rfl, .running ⟨ho.calling, ho.lock, ho.due⟩
          (Function.update_self _ _ _) hm (hplain' _ trivial)⟩
      | setPassword password =>
        have hst : s.client.step (.run c) =
            some { s.client.setPhase c (.running (k ())) cn with password := some password } := by
          simp [State.step, State.runCall, hc]
        refine step_call hsound ho.calling hst fun hsound => ih () (hk _) ?_
        exact ⟨hsound, rfl, _, rfl, .running ⟨ho.calling, ho.lock, ho.due⟩
          (Function.update_self _ _ _) hm (hplain' _ trivial)⟩
      | locked j =>
        by_cases hu : s.client.connected = true
        · have hst : s.client.step (.run c) = some (s.client.setPhase c (.queued j k) cn) := by
            simp [State.step, State.runCall, hc, hu]
          refine step_call hsound ho.calling hst fun hsound => ?_
          have ho' : ({ s with client := s.client.setPhase c (.queued j k) cn } : Line σ).Outside c :=
            ⟨ho.calling, ho.lock, ho.due⟩
          obtain ⟨client, hst, x, hx, hat, -⟩ := run_queued peer hsound ho'
            (Function.update_self _ _ _) hm hu hplain
          refine step_call hsound ho'.calling hst fun hsound => ?_
          refine (deliver hp j.frames.length (by omega) ⟨hsound, rfl, x, hx, hat⟩).trans ?_
          rintro t ⟨hsound, hsession, _, ⟨v, rfl⟩, hat⟩
          exact ih v (hk v) ⟨hsound, hsession, _, rfl, hat⟩
        · have hst : s.client.step (.run c) =
              some (s.client.setPhase c (.running (k (.error notConnected))) cn) := by
            simp [State.step, State.runCall, hc, hu, notConnected]
          refine step_call hsound ho.calling hst fun hsound =>
            ih (.error notConnected) (hk _) ?_
          exact ⟨hsound, rfl, _, rfl, .running ⟨ho.calling, ho.lock, ho.due⟩
            (Function.update_self _ _ _) hm (hplain' _ trivial)⟩

/-! ### A script -/

/-- Whatever a method does, the script goes on with what it came to. -/
private lemma meets_attempt (m : Method) (k : Except Failure m.Result → Script) :
    (attempt m k).Meets ⟨fun _ => True, fun _ _ => True⟩
      fun r => ∃ x, r = .ok (⟨m, x⟩, k x) := by
  have hm : m.program.run.Meets ⟨fun _ => True, fun _ _ => True⟩ fun _ => True :=
    .trivial fun _ _ => trivial
  exact hm.map fun r _ => ⟨coarse r, rfl⟩

/-- The script makes its next call, and the call comes to its end. -/
private lemma finish_method (hp : peer.Echoes) {m : Method} {k : Except Failure m.Result → Script}
    (hscript : s.session.script = .op (.method m) k) (hs : s.Sound hint) (hat : s.At hint .idle) :
    CanReach (joined peer hint password script s₀) s fun t =>
      t.Sound hint ∧ t.At hint .idle ∧ ∃ x, t.session.script = k x := by
  cases hat with
  | idle hc hl hplain hdue =>
    rw [hscript] at hplain
    have hturn := plainTurn_attempt hplain
    have hst : s.client.step (.spawn s.session.calls (attempt m k) 0) =
        some (s.client.setPhase s.session.calls (.fresh (attempt m k)) ⟨0, false⟩) := by
      simp [State.step, hs.uncalled _ le_rfl]
    have hnext : Line.stepJoined peer s .next =
        some { s with client := s.client.setPhase s.session.calls (.fresh (attempt m k)) ⟨0, false⟩
                      session := { s.session with calls := s.session.calls + 1
                                                  calling := some s.session.calls } } := by
      simp [Line.stepJoined, Line.step, Session.next, hc, hscript, Act.event, hst]
    refine step_joined hnext ?_
    have hsound : Line.Sound hint _ := hs.stepJoined hnext
    generalize ht : ({ s with
      client := s.client.setPhase s.session.calls (.fresh (attempt m k)) ⟨0, false⟩
      session := { s.session with calls := s.session.calls + 1
                                  calling := some s.session.calls } } : Line σ) = t at hsound
    have ho : t.Outside s.session.calls := ht ▸ ⟨rfl, hl, hdue⟩
    have hcall : t.client.calls s.session.calls = some ⟨.fresh (attempt m k), ⟨0, false⟩⟩ :=
      ht ▸ Function.update_self _ _ _
    have hrun : t.client.step (.run s.session.calls) =
        some (t.client.setPhase s.session.calls (.running (attempt m k)) ⟨0, false⟩) := by
      simp [State.step, State.runCall, hcall]
    refine step_call hsound ho.calling hrun fun hsound => ?_
    refine (finish hp (meets_attempt m k) ⟨hsound, rfl, _, rfl, .running
      ⟨ho.calling, ho.lock, ho.due⟩ (Function.update_self _ _ _) rfl hturn⟩).trans ?_
    rintro u ⟨hsound, -, _, ⟨_, rfl, x, rfl⟩, hat⟩
    cases hat with
    | @finished c _ cn ho hcall hp =>
      have hreturned : Line.stepJoined peer u .returned =
          some { u with session := { u.session with script := k x, calling := none
                                                    log := u.session.log ++ [⟨m, x⟩] } } := by
        simp [Line.stepJoined, Line.step, Session.take, ho.calling, hcall]
      exact step_joined hreturned (.now ⟨hsound.stepJoined hreturned,
        .idle rfl ho.lock (Prog.Meets.pure_iff.1 hp _ _ rfl) ho.due, x, rfl⟩)

/-- The script changes its link. -/
private lemma next_link {up : Bool} {rest : Script} {act : Act}
    (hn : s.session.next = some (act, { s.session with script := rest }))
    (hact : act.event = .link up) (hs : s.Sound hint) (hat : s.At hint .idle)
    (hplain : rest.Plain) {Q : Line σ → Prop}
    (h : ∀ t : Line σ, t.Sound hint → t.At hint .idle → t.session.script = rest →
      CanReach (joined peer hint password script s₀) t Q) :
    CanReach (joined peer hint password script s₀) s Q := by
  cases hat with
  | idle hc hl _ hdue =>
    have hstep : Line.stepJoined peer s .next =
        some { s with client := { s.client with connected := up }
                      session := { s.session with script := rest } } := by
      simp [Line.stepJoined, Line.step, hn, hact, State.step]
    exact step_joined hstep (h _ (hs.stepJoined hstep) (.idle hc hl hplain hdue)
      rfl)

/-- The script comes to its end. -/
private lemma finished_of_sound (hp : peer.Echoes) {todo : Script}
    (htodo : s.session.script = todo) (hs : s.Sound hint) (hat : s.At hint .idle) :
    CanReach (joined peer hint password script s₀) s fun t => t.session.Finished := by
  induction todo generalizing s with
  | pure u =>
    cases hat with
    | idle hc => exact .now ⟨hc, htodo⟩
  | op call k ih =>
    obtain ⟨hc, hk⟩ : s.session.calling = none ∧ ∀ r, Script.Plain (k r) := by
      cases hat with
      | idle hc _ hplain =>
        rw [htodo] at hplain
        exact ⟨hc, fun r => (Prog.Meets.op_iff.1 hplain).2 r trivial⟩
    cases call with
    | method m =>
      refine (finish_method hp htodo hs hat).trans ?_
      rintro t ⟨hsound, hat, x, hx⟩
      exact ih x hx hsound hat
    | connect =>
      have hn : s.session.next = some (.connect, { s.session with script := k () }) := by
        simp [Session.next, hc, htodo]
      exact next_link hn rfl hs hat (hk ()) fun t hs hat ht => ih () ht hs hat
    | disconnect =>
      have hn : s.session.next = some (.disconnect, { s.session with script := k () }) := by
        simp [Session.next, hc, htodo]
      exact next_link hn rfl hs hat (hk ()) fun t hs hat ht => ih () ht hs hat

/-- Over a link whose replies arrive with their sends, a script can come to its end. -/
theorem exists_finished (hp : peer.Echoes) (hint : Option String) (password : Option ℤ)
    {script : Script} (hscript : script.Plain) (s : σ) :
    ∃ es t, Run (joined peer hint password script s) Always (.init hint password script s) es t ∧
      t.session.Finished := by
  have hsound : (Line.init hint password script s).Sound hint := .init _ _ _ _
  have hat : (Line.init hint password script s).At hint .idle := .idle rfl rfl hscript nofun
  exact finished_of_sound hp rfl hsound hat

end

end SpinevBle
