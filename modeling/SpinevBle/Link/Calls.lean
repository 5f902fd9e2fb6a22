import SpinevBle.Link.Standing

/-!
# Steps of a call over a link

A call of a script goes on from one frame of a job to the next, and from one job to the next. Where
it goes is settled by the peer's answer to its frame alone, whether the send returns first or the
reply arrives first.
-/

namespace SpinevBle

open Asyncio Interaction Transition

variable {σ : Type} {peer : Peer σ} {hint : Option String} {s t : Line σ} {x : Standing}

/-! ### Sound states -/

/-- The tables of the client are in order, and nothing is known yet of flights and calls to come. -/
structure Line.Sound (hint : Option String) (s : Line σ) : Prop where
  consistent : s.client.Consistent
  owned : s.client.SendsOwned
  timeoutHint : s.client.timeoutHint = hint
  unborn : ∀ i, s.client.nextId ≤ i → s.replies i = none ∧ s.due i = none
  called : ∀ c, s.session.calling = some c → c < s.session.calls
  uncalled : ∀ c, s.session.calls ≤ c → s.client.calls c = none

/-- The script stands somewhere from where it comes to `e`. -/
def Line.ComesTo (peer : Peer σ) (hint : Option String) (s : Line σ) (e : Ending σ) : Prop :=
  ∃ x, s.At hint x ∧ s.ending peer hint x = e

/-! ### Jobs -/

namespace Job

variable {j : Job} {frame : Frame} {n : ℕ}

lemma drop_of_nth (h : j.frames[n]? = some frame) :
    j.frames.drop n = frame :: j.frames.drop (n + 1) := by
  obtain ⟨hn, rfl⟩ := List.getElem?_eq_some_iff.1 h
  exact List.drop_eq_getElem_cons hn

lemma settled_of_waits {r : Reply} (hf : j.frames[n]? = some frame) (h : j.waits r = true) :
    j.settled hint frame r = some (.error (j.timedOut frame hint)) := by
  cases j with
  | request sent register =>
    cases r with
    | nothing => rfl
    | payload p =>
      have ha : ¬ Answers p register sent.flag := by simpa [waits] using h
      simp only [settled, if_neg ha]
    | refused | raised | hung => cases h
  | writeFrames | history => cases r <;> cases h

lemma settled_of_accepts {p : Bytes} {frame' : Frame} {register : UInt8}
    (h : (request frame register).Accepts p) :
    (request frame register).settled hint frame' (.payload p) = some (.ok p) :=
  congrArg some (if_pos h)

end Job

/-- A job raises `err` with its frame. -/
lemma Delivery.ofOutcome_raisedOutcome (err : Exc) :
    ofOutcome (raisedOutcome err) = .raised err := by
  cases err <;> rfl

/-! ### Leaving the lock and going on -/

/-- The call goes on to frame `n` of its job, or with what the job has come to. -/
inductive Standing.Follows (j : Job) (k : Except Exc j.Value → Program (Except Exc Turn)) (n : ℕ) :
    Standing → Prop
  | created : Follows j k n (.created j k n)
  | running (v : Except Exc j.Value) : Follows j k n (.running (k v))

/-- The call has gone on to frame `n` of its job, or beyond. -/
def Line.Follows (peer : Peer σ) (hint : Option String) (s : Line σ) (j : Job)
    (k : Except Exc j.Value → Program (Except Exc Turn)) (n : ℕ) (e : Ending σ) : Prop :=
  ∃ y : Standing, y.Follows j k n ∧ s.At hint y ∧ s.ending peer hint y = e

lemma Line.Follows.comesTo {j : Job} {k : Except Exc j.Value → Program (Except Exc Turn)} {n : ℕ}
    {e : Ending σ} (h : s.Follows peer hint j k n e) : s.ComesTo peer hint e :=
  let ⟨y, _, hy⟩ := h
  ⟨y, hy⟩

namespace Line

variable {c n : ℕ} {j : Job} {k : Except Exc j.Value → Program (Except Exc Turn)} {fl : Flight}
  {cn : Cancellation} {frame : Frame} {state : TaskState Exc}

/-- The call leaves the lock with `v`. -/
lemma at_release {client : State Turn} {requests : ℕ} {v : Except Exc j.Value}
    (hc : s.session.calling = some c) (hp : PlainTurn (.op (.locked j) k))
    (hdue : ∀ i p, s.due i = some p → Unasked p) :
    { s with client := client.release c requests j k v }.At hint (.running (k v)) :=
  .running ⟨hc, rfl, hdue⟩ (Function.update_self _ _ _) rfl ((Prog.Meets.op_iff.1 hp).2 v trivial)

/-- The call hands the next frame to the link. -/
lemma at_launch {client : State Turn} (hc : s.session.calling = some c)
    (hm : cn.mustCancel = false) (hu : client.connected = true)
    (hp : PlainTurn (.op (.locked j) k)) (hj : j.frames[n]? = some frame)
    (hf : client.futures client.nextId = .pending) (hr : s.replies client.nextId = none)
    (hd : s.due client.nextId = none) (hdue : ∀ i p, s.due i = some p → Unasked p) :
    { s with client := client.launch c cn j k n frame }.At hint (.created j k n) :=
  .created ⟨hc, rfl, Function.update_self _ _ _, hj, Function.update_self _ _ _, hu, hp,
    fun i p _ => hdue i p⟩ ⟨rfl, rfl, hm⟩ hf hr hd

variable (peer hint) in
/-- The call goes on to frame `n` of its job. -/
lemma follows_goesOn {client client' : State Turn}
    (hg : client.GoesOn c cn j k n client') (hc : s.session.calling = some c)
    (hm : cn.mustCancel = false) (hu : client.connected = true)
    (hp : PlainTurn (.op (.locked j) k))
    (hf : client.futures client.nextId = .pending)
    (hr : s.replies client.nextId = none ∧ s.due client.nextId = none)
    (hdue : ∀ i p, s.due i = some p → Unasked p) :
    { s with client := client' }.Follows peer hint j k n
      (World.afterFrames peer hint s.session.log j k (j.frames.drop n)
        ⟨s.peer, client.connected, client.password⟩) := by
  cases hg with
  | @launch bulk bulkEvent frame hj =>
    exact ⟨_, .created, at_launch hc hm hu hp hj hf hr.1 hr.2 hdue, rfl⟩
  | @release bulk bulkEvent r hj hl =>
    refine ⟨_, .running r, at_release hc hp hdue, ?_⟩
    have hr : r = j.spent := by
      obtain ⟨hplain, hh⟩ := (Prog.Meets.op_iff.1 hp).1 j rfl
      cases j with
      | request frame register => exact absurd hl (by simp [Job.Leaves])
      | writeFrames frames => exact hl
      | history count => exact absurd rfl (hh count)
    rw [List.drop_eq_nil_iff.2 (List.getElem?_eq_none_iff.1 hj), hr]
    rfl

end Line

/-! ### Steps of the call -/

section

variable {c : ℕ} {client : State Turn}

/-- A step of the call outside the lock. -/
lemma run_running {p : Program (Except Exc Turn)} {cn : Cancellation} (ho : s.Outside c)
    (hc : s.client.calls c = some ⟨.running p, cn⟩) (hm : cn.mustCancel = false) (hp : PlainTurn p)
    (hst : s.client.step (.run c) = some client) :
    { s with client := client }.ComesTo peer hint (s.ending peer hint (.running p)) := by
  have houter : ∀ {phase cn'} {password : Option ℤ},
      ({ s with client := { s.client.setPhase c phase cn' with password := password } } :
        Line σ).Outside c :=
    ⟨ho.calling, ho.lock, ho.due⟩
  simp only [State.step, State.runCall, hc, Option.bind_eq_bind, Option.bind_some] at hst
  cases p with
  | pure r =>
    cases hst
    exact ⟨.finished r, .finished houter (Function.update_self _ _ _) hp, rfl⟩
  | op o k =>
    obtain ⟨hj, hk⟩ := Prog.Meets.op_iff.1 hp
    cases o with
    | getPassword =>
      cases hst
      exact ⟨.running (k s.client.password),
        .running houter (Function.update_self _ _ _) hm (hk _ trivial), rfl⟩
    | setPassword password =>
      cases hst
      exact ⟨.running (k ()), .running houter (Function.update_self _ _ _) hm (hk _ trivial), rfl⟩
    | locked j =>
      simp only at hst
      split_ifs at hst with hu
      · cases hst
        refine ⟨.queued j k, .queued houter (Function.update_self _ _ _) hm hu hp, ?_⟩
        simp [Line.ending, Standing.ending, World.afterProgram, World.afterFrames, Prog.exec,
          World.act, Line.world, State.setPhase, hu]
      · cases hst
        refine ⟨.running (k (.error notConnected)),
          .running houter (Function.update_self _ _ _) hm (hk _ trivial), ?_⟩
        simp [Line.ending, Standing.ending, World.afterProgram, Prog.exec, World.act, Line.world,
          State.setPhase, hu]

variable (peer) in
/-- The call takes the lock. -/
lemma run_queued (hs : s.Sound hint) {j : Job}
    {k : Except Exc j.Value → Program (Except Exc Turn)} {cn : Cancellation} (ho : s.Outside c)
    (hc : s.client.calls c = some ⟨.queued j k, cn⟩) (hm : cn.mustCancel = false)
    (hu : s.client.connected = true) (hp : PlainTurn (.op (.locked j) k)) :
    ∃ client, s.client.step (.run c) = some client ∧
      { s with client := client }.Follows peer hint j k 0 (s.ending peer hint (.queued j k)) := by
  refine ⟨s.client.enter c cn j k, ?_, ?_⟩
  · simp [State.step, State.runCall, hc, hm, ho.lock]
  · exact Line.follows_goesOn peer hint (s.client.goesOn_enter c cn j k) ho.calling hm hu hp
      (hs.consistent.unborn _ le_rfl).2 (hs.unborn _ le_rfl) ho.due

section

variable {j : Job} {k : Except Exc j.Value → Program (Except Exc Turn)} {n : ℕ} {fl : Flight}
  {cn : Cancellation} {frame : Frame} {state : TaskState Exc} {r : Reply}

/-- What a step of a call makes of the frame that it delivers. -/
private lemma step_run (ha : s.Aloft c j k n fl cn frame state) :
    s.client.step (.run c) = s.client.runDelivering c cn j k n fl := by
  simp only [State.step, State.runCall, ha.call, Option.bind_eq_bind, Option.bind_some, ha.lock,
    if_true]

/-- A step of the call takes it past its frame. -/
def Line.Passes (peer : Peer σ) (hint : Option String) (s : Line σ) (c : ℕ) (j : Job)
    (k : Except Exc j.Value → Program (Except Exc Turn)) (n : ℕ) (e : Ending σ) : Prop :=
  ∃ client, s.client.step (.run c) = some client ∧
    { s with client := client }.Follows peer hint j k (n + 1) e

/-- The delivery has raised. -/
private lemma passes_of_abandon {e x : Exc} (hs : s.Sound hint)
    (ha : s.Aloft c j k n fl cn frame state)
    (hstep : s.client.step (.run c) = some (s.client.abandon c cn.requests j k frame fl e))
    (hdue : ∀ i p, s.due i = some p → Unasked p)
    (hleave : (leaveScope fl.scope cn.requests e).2 = x)
    (hset : j.settled hint frame r = some (.error (j.translate frame hint x))) :
    s.Passes peer hint c j k n (s.ending peer hint (.sent j k n frame r)) := by
  refine ⟨_, hstep, _, .running _, Line.at_release ha.calling ha.plain hdue, ?_⟩
  subst hleave
  simp only [Line.ending, Standing.ending, hset]
  rw [hs.timeoutHint]
  rfl

/-- The deadline has passed. -/
private lemma passes_of_late (hs : s.Sound hint) (ha : s.Aloft c j k n fl cn frame state)
    (hdue : ∀ i p, s.due i = some p → Unasked p) (hx : fl.scope.expiring = true)
    (hreq : cn.requests = fl.scope.cancelling + 1)
    (hend : cn.mustCancel = true ∨ fl.point = .reply ∧ s.client.futures fl.id = .cancelled)
    (hw : j.settled hint frame r = some (.error (j.timedOut frame hint))) :
    s.Passes peer hint c j k n (s.ending peer hint (.sent j k n frame r)) := by
  have hleave : (leaveScope fl.scope cn.requests .cancelledError).2 = .builtin .timeoutError "" := by
    simp [leaveScope, Timeout.exit, hx, hreq]
  refine passes_of_abandon hs ha ?_ hdue hleave hw
  rw [step_run ha]
  by_cases hm : cn.mustCancel = true
  · simp [State.runDelivering, ha.task, Delivery.resume, hm]
  · obtain ⟨hp, hf⟩ := hend.resolve_left hm
    obtain ⟨⟨frame', register, rfl⟩, -⟩ := (hs.consistent.flying _ _ _ _ _ ha.lock).atReply hp
    obtain ⟨-, rfl⟩ := Job.frames_request ha.nth
    simp [State.runDelivering, ha.task, Delivery.resume, hm, hp, hf]

/-- The send has raised. -/
private lemma passes_of_raised {err : Exc} (hs : s.Sound hint)
    (ha : s.Aloft c j k n fl cn frame (.done (raisedOutcome err)))
    (hdue : ∀ i p, s.due i = some p → Unasked p) (ho : fl.Open cn)
    (hw : j.settled hint frame r = some (.error (j.translate frame hint err))) :
    s.Passes peer hint c j k n (s.ending peer hint (.sent j k n frame r)) := by
  have hfl := hs.consistent.flying _ _ _ _ _ ha.lock
  have hp : fl.point ≠ .reply := by
    intro hp
    obtain ⟨-, frame', ht⟩ := hfl.atReply hp
    rw [ha.task] at ht
    cases err <;> cases ht
  have hleave : (leaveScope fl.scope cn.requests err).2 = err := by
    simp [leaveScope, Timeout.exit, ho.expiring]
  have hres : Delivery.resume fl.point cn.mustCancel (.done (raisedOutcome err))
      (s.client.futures fl.id) = .raised err := by
    rw [← Delivery.ofOutcome_raisedOutcome err]
    cases hpoint : fl.point with
    | wait | send => simp [Delivery.resume, ho.mustCancel, Delivery.ofWait, Delivery.ofSend]
    | reply => exact absurd hpoint hp
  refine passes_of_abandon hs ha ?_ hdue hleave hw
  rw [step_run ha]
  simp [State.runDelivering, ha.task, hres]

/-- A send that has returned has delivered its frame. -/
private lemma resume_returned (ho : fl.Open cn) (f : Future Bytes Exc) :
    Delivery.resume fl.point cn.mustCancel (.done .returned) f = .delivered := by
  cases hpoint : fl.point with
  | wait | send | reply =>
    simp [Delivery.resume, ho.mustCancel, Delivery.ofWait, Delivery.ofSend, Delivery.ofOutcome]

/-- The reply is there, and the send has returned. -/
private lemma passes_of_answered {p : Bytes} (ha : s.Aloft c j k n fl cn frame (.done .returned))
    (hdue : ∀ i p, s.due i = some p → Unasked p) (ho : fl.Open cn)
    (hf : s.client.futures fl.id = .result p) (hp : j.Accepts p) :
    s.Passes peer hint c j k n (s.ending peer hint (.sent j k n frame (.payload p))) := by
  cases j with
  | request sent register =>
    refine ⟨(s.client.land (.request sent register) fl.id).release c (fl.scope.exit cn.requests).1
      (.request sent register) k (.ok p), ?_, ?_⟩
    · rw [step_run ha]
      simp only [State.runDelivering, ha.task, Option.bind_eq_bind, Option.bind_some,
        resume_returned ho, hf]
    · refine ⟨_, .running (.ok p), Line.at_release ha.calling ha.plain hdue, ?_⟩
      simp only [Line.ending, Standing.ending, Job.settled_of_accepts hp]
      rfl
  | writeFrames | history => exact hp.elim

/-- A frame that is written and not waited for is delivered. -/
private lemma passes_of_written {frames : List Frame}
    {k : Except Exc Unit → Program (Except Exc Turn)} (hs : s.Sound hint)
    (ha : s.Aloft c (.writeFrames frames) k n fl cn frame (.done .returned))
    (hdue : ∀ i p, s.due i = some p → Unasked p) (ho : fl.Open cn)
    (hw : (Job.writeFrames frames).settled hint frame r = none) :
    s.Passes peer hint c (.writeFrames frames) k n
      (s.ending peer hint (.sent (.writeFrames frames) k n frame r)) := by
  refine ⟨(s.client.land (.writeFrames frames) fl.id).nextFrame c
    ⟨(fl.scope.exit cn.requests).1, false⟩ frames k (n + 1), ?_, ?_⟩
  · rw [step_run ha]
    simp only [State.runDelivering, ha.task, Option.bind_eq_bind, Option.bind_some,
      resume_returned ho]
  · have hland := hs.consistent.land ha.lock
    have h := Line.follows_goesOn peer hint (State.goesOn_nextFrame
      (s.client.land (.writeFrames frames) fl.id) c ⟨(fl.scope.exit cn.requests).1, false⟩ frames k
      (n + 1)) ha.calling rfl ha.connected ha.plain (hland.unborn _ le_rfl).2 (hs.unborn _ le_rfl)
      hdue
    simp only [Line.ending, Standing.ending, hw]
    exact h

/-- No reply matters that is still to arrive, unless the job waits for it. -/
private lemma unasked_of_sent (h : s.Sent c j k n fl cn frame state r)
    (hown : ∀ p, s.due fl.id = some p → ¬ j.Accepts p) : ∀ i p, s.due i = some p → Unasked p := by
  intro i p hd
  by_cases hi : i = fl.id
  · subst hi
    obtain ⟨hsep, hh⟩ := (Prog.Meets.op_iff.1 h.plain).1 j rfl
    exact Job.unasked hsep hh h.nth (h.echo p (h.own p hd)) (hown p hd)
  · exact h.due i p hi hd

/-- A reply that a job has been handed too late, or has no use for, is not what it waits for. -/
lemma not_accepts_of_settled {p : Bytes} {x : Exc}
    (hw : j.settled hint frame (.payload p) = some (.error x)) : ¬ j.Accepts p := by
  intro ha
  cases j with
  | request sent register =>
    rw [Job.settled_of_accepts ha] at hw
    cases hw
  | writeFrames | history => exact ha

variable (peer) in
/-- The call goes on as soon as its frame is settled and its send has ended, or it is late. -/
lemma passes_of_sent (hs : s.Sound hint) (h : s.Sent c j k n fl cn frame state r)
    (hw : s.Awaits hint j fl cn frame r)
    (hready : fl.scope.expiring = true ∨ (∃ o, state = .done o) ∧
      (s.client.futures fl.id = .pending → j.settled hint frame r = none ∨
        ∃ err, r = .refused err ∨ r = .raised err)) :
    s.Passes peer hint c j k n (s.ending peer hint (.sent j k n frame r)) := by
  cases hw with
  | late hx hreq hend hset =>
    refine passes_of_late hs h.toAloft (unasked_of_sent h fun p hd => ?_) hx hreq hend hset
    cases h.own p hd
    exact not_accepts_of_settled hset
  | answered ho hf hr ha hdue =>
    subst hr
    obtain ⟨⟨o, rfl⟩, -⟩ := hready.resolve_left (by simp [ho.expiring])
    obtain ⟨o, ⟨⟩, ⟨⟩⟩ := h.ended.resolve_left (by simp)
    exact passes_of_answered h.toAloft (unasked_of_sent h fun p hd => by simp [hdue] at hd) ho hf ha
  | waiting ho hf hdue =>
    obtain ⟨⟨o, rfl⟩, hsettled⟩ := hready.resolve_left (by simp [ho.expiring])
    obtain ⟨_, ⟨⟩, hro⟩ := h.ended.resolve_left (by simp)
    have hnone : (∃ err, r = .refused err ∨ r = .raised err) →
        ∀ i p, s.due i = some p → Unasked p := by
      rintro ⟨err, hr⟩
      refine unasked_of_sent h fun p hd => ?_
      rcases hr with rfl | rfl <;> cases h.own p hd
    rcases hsettled hf with hset | ⟨err, hr⟩
    · obtain ⟨-, hh⟩ := (Prog.Meets.op_iff.1 h.plain).1 j rfl
      cases j with
      | request sent register => cases r <;> simp [Job.settled] at hset
      | writeFrames frames =>
        have hret : o = .returned := by
          cases r with
          | nothing | payload p =>
            cases hro
            rfl
          | refused err | raised err | hung => cases hset
        subst hret
        exact passes_of_written hs h.toAloft (unasked_of_sent h fun p _ ha => ha) ho hset
      | history count => exact absurd rfl (hh count)
    · have hset : j.settled hint frame r = some (.error (j.translate frame hint err)) := by
        rcases hr with rfl | rfl <;> cases j <;> rfl
      have hraised : o = raisedOutcome err := by
        rcases hr with rfl | rfl <;> cases hro <;> rfl
      subst hraised
      exact passes_of_raised hs h.toAloft (hnone ⟨err, hr⟩) ho hset

/-- The call goes on to wait for something else. -/
private lemma sent_setPoint (h : s.Sent c j k n fl cn frame state r) (point : Point) :
    { s with client := { s.client with
      lock := some (.delivering c j k n { fl with point := point }) } }.Sent c j k n
        { fl with point := point } cn frame state r :=
  { h with lock := rfl }

/-- The call waits for the first step of its send. -/
lemma blocked_of_created (hs : s.Sound hint) (ha : s.Aloft c j k n fl cn frame .created)
    (ho : fl.Open cn) (hf : s.client.futures fl.id = .pending) : s.client.step (.run c) = none := by
  have hfl := hs.consistent.flying _ _ _ _ _ ha.lock
  rw [step_run ha]
  simp only [State.runDelivering, ha.task, Option.bind_eq_bind, Option.bind_some]
  cases hpoint : fl.point with
  | wait => simp [Delivery.resume, ho.mustCancel, hf, Delivery.ofWait]
  | send => simp [Delivery.resume, ho.mustCancel, Delivery.ofSend]
  | reply =>
    obtain ⟨-, frame', ht⟩ := hfl.atReply hpoint
    cases ha.task.symm.trans ht

/-- A step of the call that delivers a frame. -/
lemma run_sent (hs : s.Sound hint) (h : s.Sent c j k n fl cn frame state r)
    (hw : s.Awaits hint j fl cn frame r) (hst : s.client.step (.run c) = some client) :
    { s with client := client }.ComesTo peer hint (s.ending peer hint (.sent j k n frame r)) := by
  by_cases hready : fl.scope.expiring = true ∨ (∃ o, state = .done o) ∧
      (s.client.futures fl.id = .pending → j.settled hint frame r = none ∨
        ∃ err, r = .refused err ∨ r = .raised err)
  · obtain ⟨client', hst', hfollows⟩ := passes_of_sent peer hs h hw hready
    rw [hst'] at hst
    cases hst
    exact hfollows.comesTo
  · have hfl := hs.consistent.flying _ _ _ _ _ h.lock
    simp only [not_or, not_and, not_forall] at hready
    rw [step_run h.toAloft] at hst
    simp only [State.runDelivering, h.task, Option.bind_eq_bind, Option.bind_some] at hst
    cases hw with
    | late hx => exact absurd hx hready.1
    | answered ho hf hr ha hdue =>
      have hrunning : state = .running := by
        rcases h.ended with hrunning | ⟨o, hd, -⟩
        · exact hrunning
        · exact absurd (hready.2 ⟨o, hd⟩) (by simp [hf])
      subst hrunning
      cases hpoint : fl.point with
      | wait =>
        simp only [Delivery.resume, ho.mustCancel, hpoint, hf, Delivery.ofWait, if_false,
          Bool.false_eq_true, Option.some.injEq] at hst
        subst hst
        exact ⟨_, .sent (sent_setPoint h .send) (.answered ⟨ho.1, ho.2, ho.3⟩ hf hr ha hdue), rfl⟩
      | send => simp [Delivery.resume, ho.mustCancel, hpoint, Delivery.ofSend] at hst
      | reply =>
        obtain ⟨-, frame', ht⟩ := hfl.atReply hpoint
        rw [h.task] at ht
        cases ht
    | waiting ho hf hdue =>
      rcases h.ended with rfl | ⟨o, rfl, hro⟩
      · cases hpoint : fl.point with
        | wait => simp [Delivery.resume, ho.mustCancel, hpoint, hf, Delivery.ofWait] at hst
        | send =>
          obtain ⟨p, hp⟩ := hfl.atSend hpoint
          cases hf.symm.trans hp
        | reply =>
          obtain ⟨-, frame', ht⟩ := hfl.atReply hpoint
          rw [h.task] at ht
          cases ht
      · obtain ⟨hnone, hraised⟩ := by simpa [hf] using hready.2 ⟨o, rfl⟩
        have hanswer : r = .nothing ∨ ∃ p, r = .payload p := by
          cases r with
          | nothing => exact .inl rfl
          | payload p => exact .inr ⟨p, rfl⟩
          | refused err => exact absurd rfl (hraised err).1
          | raised err => exact absurd rfl (hraised err).2
          | hung => cases hro
        cases j with
        | request sent register =>
          obtain rfl : o = .returned := by
            rcases hanswer with rfl | ⟨p, rfl⟩ <;> cases hro <;> rfl
          simp only [resume_returned ho, hf] at hst
          split_ifs at hst
          cases hst
          exact ⟨_, .sent (sent_setPoint h .reply) (.waiting ⟨ho.1, ho.2, ho.3⟩ hf hdue), rfl⟩
        | writeFrames frames =>
          rcases hanswer with rfl | ⟨p, rfl⟩ <;> exact absurd rfl hnone
        | history count => exact absurd rfl (((Prog.Meets.op_iff.1 h.plain).1 _ rfl).2 count)

end

end

end SpinevBle
