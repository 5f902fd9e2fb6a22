import SpinevBle.Link.Calls

/-!
# A script keeps its course

Whatever the link does next, the script stands at a point from which it comes to what it would have
come to before. So a script that has come to its end over a link has come to what its calls are for,
in whatever order sends have returned and replies have arrived.
-/

namespace SpinevBle

open Asyncio Interaction Transition

variable {σ : Type} {peer : Peer σ} {hint : Option String} {s t : Line σ} {x : Standing}

/-! ### Steps of the link -/

/-- What happens elsewhere leaves the script where it stands. -/
private lemma at_congr (h : s.At hint x) (hsession : t.session = s.session)
    (hcalls : t.client.calls = s.client.calls) (hlock : t.client.lock = s.client.lock)
    (hu : t.client.connected = s.client.connected)
    (hdue : ∀ i p, t.due i = some p → s.due i = some p)
    (hfl : ∀ c j k n fl, s.client.lock = some (.delivering c j k n fl) →
      t.client.sendTasks fl.id = s.client.sendTasks fl.id ∧
      t.client.futures fl.id = s.client.futures fl.id ∧
      t.replies fl.id = s.replies fl.id ∧ t.due fl.id = s.due fl.id) : t.At hint x := by
  have houter : ∀ {c}, s.Outside c → t.Outside c := fun ho =>
    ⟨hsession ▸ ho.calling, hlock ▸ ho.lock, fun i p hd => ho.due i p (hdue i p hd)⟩
  have haloft : ∀ {c j k n fl cn frame state}, s.Aloft c j k n fl cn frame state →
      t.Aloft c j k n fl cn frame state := fun ha =>
    ⟨hsession ▸ ha.calling, hlock ▸ ha.lock, hcalls ▸ ha.call, ha.nth,
      (hfl _ _ _ _ _ ha.lock).1.trans ha.task, hu.trans ha.connected, ha.plain,
      fun i p hi hd => ha.due i p hi (hdue i p hd)⟩
  cases h with
  | idle hc hl hp hd =>
    exact .idle (hsession ▸ hc) (hlock ▸ hl) (hsession ▸ hp) fun i p hi => hd i p (hdue i p hi)
  | fresh ho hc hm hp => exact .fresh (houter ho) (hcalls ▸ hc) hm hp
  | running ho hc hm hp => exact .running (houter ho) (hcalls ▸ hc) hm hp
  | queued ho hc hm hu' hp => exact .queued (houter ho) (hcalls ▸ hc) hm (hu.trans hu') hp
  | finished ho hc hp => exact .finished (houter ho) (hcalls ▸ hc) hp
  | created ha ho hf hr hd =>
    obtain ⟨-, hf', hr', hd'⟩ := hfl _ _ _ _ _ ha.lock
    exact .created (haloft ha) ho (hf'.trans hf) (hr'.trans hr) (hd'.trans hd)
  | sent h hw =>
    obtain ⟨-, hf', hr', hd'⟩ := hfl _ _ _ _ _ h.lock
    refine .sent ⟨haloft h.toAloft, hr'.trans h.reply, h.ended, h.echo, fun p hp => h.own p ?_⟩ ?_
    · rw [← hp, hd']
    · cases hw with
      | waiting ho hf hown =>
        exact .waiting ho (hf'.trans hf) fun p hp ha => hd'.trans (hown p hp ha)
      | answered ho hf hr ha hd => exact .answered ho (hf'.trans hf) hr ha (hd'.trans hd)
      | late hx hreq hend hset => exact .late hx hreq (by simpa only [hf'] using hend) hset

/-- The jobs of a plain script are separate. -/
private lemma separate_of_at (h : s.At hint x) {c n : ℕ} {j : Job}
    {k : Except Exc j.Value → Program (Except Exc Turn)} {fl : Flight}
    (hl : s.client.lock = some (.delivering c j k n fl)) : j.Separate := by
  have hplain : ∀ {j : Job} {k : Except Exc j.Value → Program (Except Exc Turn)},
      PlainTurn (.op (.locked j) k) → j.Separate := fun hp => ((Prog.Meets.op_iff.1 hp).1 _ rfl).1
  cases h with
  | idle hc hl' => cases hl'.symm.trans hl
  | fresh ho | running ho | queued ho | finished ho => cases ho.lock.symm.trans hl
  | created ha =>
    cases ha.lock.symm.trans hl
    exact hplain ha.plain
  | sent h =>
    cases h.lock.symm.trans hl
    exact hplain h.plain

/-- A payload that nobody waits for changes nothing but the history records. -/
private lemma notify_unasked {p : Bytes} {client : State Turn} (hs : s.Sound hint)
    (h : s.At hint x) (hp : Unasked p) (hst : s.client.step (.notify p) = some client) :
    ∃ bulk bulkEvent, client = { s.client with bulk := bulk, bulkEvent := bulkEvent } := by
  cases Step.of_step hst with
  | record => exact ⟨_, _, rfl⟩
  | ignore => exact ⟨_, _, rfl⟩
  | answer ha hw =>
    obtain ⟨c, frame, k, n, fl, hl, rfl⟩ := hs.consistent.lookup hw
    obtain ⟨hf, hr⟩ := separate_of_at h hl
    exact absurd (hr ▸ ha) (hp frame hf)

/-- The reply arrives that the job waits for. -/
private lemma notify_accepted {p : Bytes} {client : State Turn} {c n : ℕ} {j : Job}
    {k : Except Exc j.Value → Program (Except Exc Turn)} {fl : Flight} (hs : s.Sound hint)
    (hl : s.client.lock = some (.delivering c j k n fl)) (hp : j.Accepts p)
    (hf : s.client.futures fl.id = .pending) (hst : s.client.step (.notify p) = some client) :
    ∃ register w, client = s.client.answerWaiter register w p ∧
      client.futures fl.id = .result p := by
  cases j with
  | request frame register =>
    have hw : s.client.waiters.lookup register = some ⟨fl.id, frame.flag⟩ := by
      rw [(hs.consistent.flying _ _ _ _ _ hl).waiters_of_pending hf]
      exact Waiters.lookup_singleton.2 ⟨rfl, rfl⟩
    have hrep : isReply p = true := Answers.isReply hp
    cases Step.of_step hst with
    | record hh => simp [isReply_eq_false_of_isHistoryRecord hh] at hrep
    | ignore hh hn => exact absurd hp (hn _ _ hw)
    | answer ha hw' =>
      obtain ⟨rfl, -⟩ := ha.unique hp
      cases hw'.symm.trans hw
      exact ⟨_, _, rfl, by simp [State.answerWaiter, hf]⟩
  | writeFrames | history => exact hp.elim

/-- The reply to the frame in progress arrives. -/
lemma sent_of_arrive {p : Bytes} {client : State Turn} {c n : ℕ} {j : Job}
    {k : Except Exc j.Value → Program (Except Exc Turn)} {fl : Flight} {cn : Cancellation}
    {frame : Frame} {state : TaskState Exc} {r : Reply} (hs : s.Sound hint)
    (h : s.Sent c j k n fl cn frame state r) (hw : s.Awaits hint j fl cn frame r)
    (hd : s.due fl.id = some p) (hst : s.client.step (.notify p) = some client) :
    ∃ t : Line σ, t = { s with client := client, due := Function.update s.due fl.id none } ∧
      t.Sent c j k n fl cn frame state r ∧ t.Awaits hint j fl cn frame r ∧ t.world = s.world := by
  have hr := h.own p hd
  have hsent : ∀ client' : State Turn, client'.lock = s.client.lock →
      client'.calls = s.client.calls → client'.sendTasks = s.client.sendTasks →
      client'.connected = s.client.connected →
      { s with client := client', due := Function.update s.due fl.id none }.Sent c j k n fl cn frame
        state r := fun client' hl hc ht hu =>
    ⟨⟨h.calling, hl.trans h.lock, hc ▸ h.call, h.nth, ht ▸ h.task, hu.trans h.connected, h.plain,
      fun i p' hi hp => h.due i p' hi (by simpa [hi] using hp)⟩, h.reply, h.ended, h.echo, by simp⟩
  refine ⟨_, rfl, ?_⟩
  by_cases ha : j.Accepts p
  · cases hw with
    | waiting ho hf hown =>
      obtain ⟨register, w, rfl, hf'⟩ := notify_accepted hs h.lock ha hf hst
      exact ⟨hsent _ rfl rfl rfl rfl, .answered ho hf' hr ha (Function.update_self _ _ _), rfl⟩
    | answered ho hf hr' ha' hnone => cases hnone.symm.trans hd
    | late hx hreq hend hset =>
      subst hr
      exact absurd ha (not_accepts_of_settled hset)
  · have hp : Unasked p := by
      obtain ⟨hsep, hh⟩ := (Prog.Meets.op_iff.1 h.plain).1 j rfl
      exact Job.unasked hsep hh h.nth (h.echo p hr) ha
    obtain ⟨bulk, bulkEvent, rfl⟩ := notify_unasked hs (.sent h hw) hp hst
    refine ⟨hsent _ rfl rfl rfl rfl, ?_, rfl⟩
    cases hw with
    | waiting ho hf hown =>
      refine .waiting ho hf fun p' hp' ha' => absurd ha' ?_
      cases hr.symm.trans hp'
      exact ha
    | answered ho hf hr' ha' hnone => cases hnone.symm.trans hd
    | late hx hreq hend hset => exact .late hx hreq hend hset

/-- A reply arrives. -/
private lemma arrive_comesTo {i : ℕ} {p : Bytes} {client : State Turn} (hs : s.Sound hint)
    (h : s.At hint x) (hd : s.due i = some p) (hst : s.notified p = some client) :
    { s with client := client, due := Function.update s.due i none }.ComesTo peer hint
      (s.ending peer hint x) := by
  have hdue : ∀ i' p', Function.update s.due i none i' = some p' → s.due i' = some p' := by
    intro i' p' h'
    by_cases hi : i' = i
    · simp [hi] at h'
    · rwa [Function.update_of_ne hi] at h'
  have hquiet : Unasked p →
      (∀ c j k n fl, s.client.lock = some (.delivering c j k n fl) → i ≠ fl.id) →
      { s with client := client, due := Function.update s.due i none }.ComesTo peer hint
        (s.ending peer hint x) := by
    intro hp hi
    obtain ⟨bulk, bulkEvent, rfl⟩ :
        ∃ bulk bulkEvent, client = { s.client with bulk := bulk, bulkEvent := bulkEvent } := by
      unfold Line.notified at hst
      split_ifs at hst
      · exact notify_unasked hs h hp hst
      · cases hst
        exact ⟨s.client.bulk, s.client.bulkEvent, rfl⟩
    refine ⟨x, at_congr h rfl rfl rfl rfl hdue fun c j k n fl hl => ⟨rfl, rfl, rfl, ?_⟩, rfl⟩
    exact Function.update_of_ne (hi c j k n fl hl).symm _ _
  have hfree : s.client.lock = none →
      ∀ c j k n fl, s.client.lock = some (.delivering c j k n fl) → i ≠ fl.id :=
    fun hl c j k n fl hl' => by cases hl.symm.trans hl'
  have hother : ∀ {c j k n fl}, s.client.lock = some (.delivering c j k n fl) → i ≠ fl.id →
      ∀ c j k n fl, s.client.lock = some (.delivering c j k n fl) → i ≠ fl.id :=
    fun hl hi c' j' k' n' fl' hl' => by
      cases hl.symm.trans hl'
      exact hi
  cases h with
  | idle hc hl hp hd' => exact hquiet (hd' i p hd) (hfree hl)
  | fresh ho | running ho | queued ho | finished ho => exact hquiet (ho.due i p hd) (hfree ho.lock)
  | @created c j k n fl cn frame ha ho hf hr hnone =>
    have hi : i ≠ fl.id := by
      rintro rfl
      cases hnone.symm.trans hd
    exact hquiet (ha.due i p hi hd) (hother ha.lock hi)
  | @sent c j k n fl cn frame state r h hw =>
    by_cases hi : i = fl.id
    · subst hi
      rw [Line.notified, if_pos h.connected] at hst
      obtain ⟨t, rfl, hsent, hawaits, hworld⟩ := sent_of_arrive hs h hw hd hst
      exact ⟨_, .sent hsent hawaits, congrArg (Standing.ending peer hint _ _ · _) hworld⟩
    · exact hquiet (h.due i p hi hd) (hother h.lock hi)

/-- A send is started for the flight in progress only. -/
private lemma lock_of_created {i : ℕ} {task : SendTask} (hs : s.Sound hint)
    (ht : s.client.sendTasks i = some task) (hc : task.state = .created) :
    ∃ c j k n fl, s.client.lock = some (.delivering c j k n fl) ∧ fl.id = i :=
  hs.owned i task ht (.inl hc)

/-- How far a send is after its first step. -/
def Reply.Started (r : Reply) (state : TaskState Exc) : Prop :=
  state = .running ∧ (∀ err, r ≠ .refused err) ∨
    ∃ err, r = .refused err ∧ state = .done (raisedOutcome err)

lemma Reply.Started.ended {r : Reply} {state : TaskState Exc} (h : r.Started state) :
    state = .running ∨ ∃ o, state = .done o ∧ r.outcome = some o := by
  rcases h with ⟨hrun, -⟩ | ⟨err, rfl, rfl⟩
  · exact .inl hrun
  · exact .inr ⟨_, rfl, rfl⟩

/-- What the first step of a send makes of its task. -/
lemma startEvents_cases {i : ℕ} {task : SendTask} {client : State Turn} {r : Reply}
    (ht : s.client.sendTasks i = some task)
    (hst : (r.startEvents i).foldlM State.step s.client = some client) :
    task.state = .created ∧ ∃ state wire,
      client = { s.client.setSend i task state with wire := wire } ∧ r.Started state := by
  have hstart : ∀ {client₁}, s.client.step (.sendStart i) = some client₁ → task.state = .created ∧
      client₁ = { s.client.setSend i task .running with wire := s.client.wire ++ [i] } := by
    intro client₁ h₁
    cases Step.of_step h₁ with
    | sendStart ht' hs =>
      cases ht.symm.trans ht'
      exact ⟨hs, rfl⟩
  cases r with
  | refused err =>
    simp only [Reply.startEvents, List.foldlM_cons, List.foldlM_nil, Option.bind_eq_bind,
      Option.bind_eq_some_iff] at hst
    obtain ⟨client₁, h₁, client₂, h₂, hst⟩ := hst
    cases hst
    obtain ⟨hc, rfl⟩ := hstart h₁
    refine ⟨hc, .done (raisedOutcome err), s.client.wire ++ [i], ?_, .inr ⟨err, rfl, rfl⟩⟩
    cases Step.of_step h₂ with
    | sendEnd ht' hs ho =>
      simp only [State.setSend, Function.update_self, Option.some.injEq] at ht'
      subst ht'
      simp [State.setSend]
  | nothing | payload p | raised err | hung =>
    simp only [Reply.startEvents, List.foldlM_cons, List.foldlM_nil, Option.bind_eq_bind,
      Option.bind_eq_some_iff] at hst
    obtain ⟨client₁, h₁, hst⟩ := hst
    cases hst
    obtain ⟨hc, rfl⟩ := hstart h₁
    exact ⟨hc, .running, _, rfl, .inl ⟨rfl, by simp⟩⟩

/-- The peer has the frame in progress, and has answered it with `r`. -/
lemma sent_of_start {c n : ℕ} {j : Job} {k : Except Exc j.Value → Program (Except Exc Turn)}
    {fl : Flight} {cn : Cancellation} {frame : Frame} {t : σ} {r : Reply} {state : TaskState Exc}
    {wire : List ℕ} (hp : peer.Echoes) (ha : s.Aloft c j k n fl cn frame .created)
    (hr : peer s.peer frame = (t, r)) (hstate : r.Started state) :
    ({ s with client := { s.client.setSend fl.id ⟨c, frame, .created⟩ state with wire := wire }
              peer := t
              replies := Function.update s.replies fl.id (some r)
              due := Function.update s.due fl.id r.payload? } : Line σ).Sent c j k n fl cn frame state
      r where
  calling := ha.calling
  lock := ha.lock
  call := ha.call
  nth := ha.nth
  task := Function.update_self _ _ _
  connected := ha.connected
  plain := ha.plain
  due i p hi h := ha.due i p hi (by simpa [Function.update_of_ne hi] using h)
  reply := Function.update_self _ _ _
  ended := hstate.ended
  echo p h := hp s.peer frame p (by rw [hr, h])
  own p h := by
    have h : r.payload? = some p := by simpa using h
    cases r <;> cases h
    rfl

/-- The frame in progress is sent. -/
private lemma sendStart_comesTo {i : ℕ} {task : SendTask} {client : State Turn} {t : σ} {r : Reply}
    (hp : peer.Echoes) (hs : s.Sound hint) (h : s.At hint x)
    (ht : s.client.sendTasks i = some task) (hr : s.ask peer task.frame = (t, r))
    (hst : (r.startEvents i).foldlM State.step s.client = some client) :
    { s with client := client, peer := t, replies := Function.update s.replies i (some r),
             due := Function.update s.due i r.payload? }.ComesTo peer hint
      (s.ending peer hint x) := by
  obtain ⟨hc, state, wire, rfl, hstate⟩ := startEvents_cases ht hst
  obtain ⟨c, j, k, n, fl, hl, rfl⟩ := lock_of_created hs ht hc
  cases h with
  | idle hcall hl' => cases hl'.symm.trans hl
  | fresh ho | running ho | queued ho | finished ho => cases ho.lock.symm.trans hl
  | sent h =>
    cases h.lock.symm.trans hl
    cases h.task.symm.trans ht
    rcases h.ended with he | ⟨o, he, -⟩ <;> cases he.symm.trans hc
  | @created _ _ _ _ _ cn frame ha ho hf hrep hdue =>
    cases ha.lock.symm.trans hl
    cases ha.task.symm.trans ht
    have hask : peer s.peer frame = (t, r) := by simpa [Line.ask, ha.connected] using hr
    refine ⟨_, .sent (sent_of_start hp ha hask hstate) (.waiting ho hf fun p h _ => ?_), ?_⟩
    · simp [h, Reply.payload?]
    · simp only [Line.ending, Standing.ending, World.afterFrames, Job.drop_of_nth ha.nth,
        World.deliver, Line.world, hask]
      cases j.settled hint frame r <;> rfl

/-- A send ends that was left to itself. -/
lemma at_setSend {i : ℕ} {task : SendTask} {state : TaskState Exc} (h : s.At hint x)
    (hi : ∀ c j k n fl, s.client.lock = some (.delivering c j k n fl) → fl.id ≠ i) :
    { s with client := s.client.setSend i task state }.At hint x :=
  at_congr h rfl rfl rfl rfl (fun _ _ h => h) fun c j k n fl hl =>
    ⟨Function.update_of_ne (hi c j k n fl hl) _ _, rfl, rfl, rfl⟩

/-- The send of the frame in progress ends. -/
lemma sent_of_end {c n : ℕ} {j : Job} {k : Except Exc j.Value → Program (Except Exc Turn)}
    {fl : Flight} {cn : Cancellation} {frame : Frame} {state : TaskState Exc} {r : Reply}
    {o : Outcome Exc} (h : s.Sent c j k n fl cn frame state r) (hw : s.Awaits hint j fl cn frame r)
    (ho : r.outcome = some o) :
    ∃ t : Line σ, t = { s with client := s.client.setSend fl.id ⟨c, frame, state⟩ (.done o) } ∧
      t.Sent c j k n fl cn frame (.done o) r ∧ t.Awaits hint j fl cn frame r := by
  refine ⟨_, rfl, { h with
    task := Function.update_self _ _ _
    ended := .inr ⟨o, rfl, ho⟩ }, ?_⟩
  cases hw with
  | waiting ho hf hown => exact .waiting ho hf hown
  | answered ho hf hr ha hdue => exact .answered ho hf hr ha hdue
  | late hx hreq hend hset => exact .late hx hreq hend hset

/-- A send ends. -/
private lemma sendEnd_comesTo {i : ℕ} {o : Outcome Exc} {client : State Turn} (h : s.At hint x)
    (hst : s.client.step (.sendEnd i o) = some client)
    (ho : ∀ c j k n fl cn frame state r, s.Sent c j k n fl cn frame state r → fl.id = i →
      r.outcome = some o) (hrep : ∀ c j k n fl, s.client.lock = some (.delivering c j k n fl) →
      fl.id = i → s.replies fl.id ≠ none) :
    { s with client := client }.ComesTo peer hint (s.ending peer hint x) := by
  cases Step.of_step hst with
  | @sendEnd _ task _ ht hb _ =>
    have hfree : s.client.lock = none →
        ∀ c j k n fl, s.client.lock = some (.delivering c j k n fl) → fl.id ≠ i :=
      fun hl c j k n fl hl' => by cases hl.symm.trans hl'
    cases h with
    | idle hc hl hp hdue => exact ⟨_, at_setSend (.idle hc hl hp hdue) (hfree hl), rfl⟩
    | fresh ho' hc hm hp => exact ⟨_, at_setSend (.fresh ho' hc hm hp) (hfree ho'.lock), rfl⟩
    | running ho' hc hm hp => exact ⟨_, at_setSend (.running ho' hc hm hp) (hfree ho'.lock), rfl⟩
    | queued ho' hc hm hu hp =>
      exact ⟨_, at_setSend (.queued ho' hc hm hu hp) (hfree ho'.lock), rfl⟩
    | finished ho' hc hp => exact ⟨_, at_setSend (.finished ho' hc hp) (hfree ho'.lock), rfl⟩
    | created ha hopen hf hr hdue =>
      refine ⟨_, at_setSend (.created ha hopen hf hr hdue) fun c j k n fl hl hi => ?_, rfl⟩
      cases ha.lock.symm.trans hl
      exact hrep _ _ _ _ _ hl hi hr
    | @sent c j k n fl cn frame state r h hw =>
      by_cases hi : fl.id = i
      · subst hi
        cases h.task.symm.trans ht
        obtain ⟨t, rfl, hsent, hawaits⟩ := sent_of_end h hw (ho _ _ _ _ _ _ _ _ _ h rfl)
        exact ⟨_, .sent hsent hawaits, rfl⟩
      · refine ⟨_, at_setSend (.sent h hw) fun c' j' k' n' fl' hl => ?_, rfl⟩
        cases h.lock.symm.trans hl
        exact hi

/-- The deadline of the frame in progress passes. -/
lemma sent_of_expire {c n : ℕ} {j : Job} {k : Except Exc j.Value → Program (Except Exc Turn)}
    {fl : Flight} {cn : Cancellation} {frame : Frame} {state : TaskState Exc} {r : Reply}
    (hs : s.Sound hint) (h : s.Sent c j k n fl cn frame state r) (ho : fl.Open cn)
    (hf : s.client.futures fl.id = .pending)
    (hset : j.settled hint frame r = some (.error (j.timedOut frame hint))) :
    ∃ client cn', s.client.step (.expire c) = some client ∧
      { s with client := client }.Sent c j k n fl.expire cn' frame state r ∧
      { s with client := client }.Awaits hint j fl.expire cn' frame r ∧
      ({ s with client := client } : Line σ).world = s.world := by
  have hfl := hs.consistent.flying _ _ _ _ _ h.lock
  have hstep : s.client.step (.expire c) =
      some ({ s.client with lock := some (.delivering c j k n fl.expire) }.interrupt c cn
        fl.expire) := by
    simp [State.step, State.expireCall, h.call, h.lock, ho.expiring]
  rw [hstep]
  cases hpoint : fl.point with
  | wait =>
    refine ⟨_, ⟨cn.requests + 1, true⟩, rfl, ?_⟩
    simp only [State.interrupt, Flight.expire, hpoint]
    exact ⟨{ h with lock := rfl, call := Function.update_self _ _ _ },
      .late rfl (congrArg (· + 1) ho.requests) (.inl rfl) hset, rfl⟩
  | send =>
    obtain ⟨p, hp⟩ := hfl.atSend hpoint
    cases hf.symm.trans hp
  | reply =>
    refine ⟨_, ⟨cn.requests + 1, cn.mustCancel⟩, rfl, ?_⟩
    simp only [State.interrupt, Flight.expire, hpoint, hf, Future.done_pending, Bool.false_eq_true,
      if_false]
    exact ⟨{ h with lock := rfl, call := Function.update_self _ _ _ },
      .late rfl (congrArg (· + 1) ho.requests) (.inr ⟨rfl, Function.update_self _ _ _⟩) hset, rfl⟩

/-- The deadline passes. -/
private lemma deadline_comesTo {c : ℕ} {client : State Turn} (hs : s.Sound hint) (h : s.At hint x)
    (hover : overdue s.client s.replies = true) (hst : s.client.step (.expire c) = some client) :
    { s with client := client }.ComesTo peer hint (s.ending peer hint x) := by
  have hlock : s.client.lock ≠ none := fun hl => by simp [overdue, hl] at hover
  cases h with
  | idle hc hl => exact absurd hl hlock
  | fresh ho | running ho | queued ho | finished ho => exact absurd ho.lock hlock
  | created ha ho hf hr hdue => simp [overdue, ha.lock, hr] at hover
  | @sent _ j k n fl cn frame state r h hw =>
    have hset : j.settled hint frame r = some (.error (j.timedOut frame hint)) := by
      simp only [overdue, h.lock, h.reply, Option.any_some, Bool.or_eq_true, decide_eq_true_eq,
        Bool.and_eq_true] at hover
      rcases hover with rfl | ⟨hwaits, -⟩
      · cases j <;> rfl
      · exact Job.settled_of_waits h.nth hwaits
    have hopen : fl.scope.expiring = false := by
      cases Step.of_step hst with
      | expire hc hl hx =>
        cases hl.symm.trans h.lock
        exact hx
    cases hw with
    | late hx => cases hopen.symm.trans hx
    | answered ho hf hr ha hdue =>
      subst hr
      exact absurd ha (not_accepts_of_settled hset)
    | waiting ho hf hown =>
      obtain ⟨client', cn', hstep, hsent, hawaits, hworld⟩ := sent_of_expire hs h ho hf hset
      cases Step.of_step hst with
      | expire hc hl hx =>
        cases hl.symm.trans h.lock
        cases hstep.symm.trans hst
        exact ⟨_, .sent hsent hawaits, congrArg (Standing.ending peer hint _ _ · _) hworld⟩

/-! ### Steps of the script -/

private lemma afterProgram_attempt (log : List Entry) {m : Method}
    (k : Except Failure m.Result → Script) (w : World σ) :
    w.afterProgram peer hint log (attempt m k) =
      (Prog.exec (World.call peer hint) (.op (.method m) k) (log, w)).2 := by
  simp only [World.afterProgram, attempt, Prog.exec_map]
  rfl

/-- The script makes its next call. -/
private lemma next_comesTo {act : Act} {session : Session} {client : State Turn}
    (h : s.At hint x) (hn : s.session.next = some (act, session))
    (hst : s.client.step act.event = some client) :
    { s with client := client, session := session }.ComesTo peer hint (s.ending peer hint x) := by
  cases h with
  | idle hc hl hp hdue =>
    unfold Session.next at hn
    cases hscript : s.session.script with
    | pure u => simp [hc, hscript] at hn
    | op call k =>
      rw [hscript] at hp
      cases call with
      | method m =>
        simp only [hc, hscript, Option.some.injEq, Prod.mk.injEq] at hn
        obtain ⟨rfl, rfl⟩ := hn
        simp only [Act.event, State.step] at hst
        split_ifs at hst
        cases hst
        refine ⟨_, .fresh ⟨rfl, hl, hdue⟩ (Function.update_self _ _ _) rfl (plainTurn_attempt hp), ?_⟩
        simp only [Line.ending, Standing.ending, afterProgram_attempt, hscript]
        rfl
      | connect | disconnect =>
        simp only [hc, hscript, Option.some.injEq, Prod.mk.injEq] at hn
        obtain ⟨rfl, rfl⟩ := hn
        cases hst
        refine ⟨.idle, .idle rfl hl ((Prog.Meets.op_iff.1 hp).2 () trivial) hdue, ?_⟩
        simp only [Line.ending, Standing.ending, hscript]
        rfl
  | fresh ho | running ho | queued ho | finished ho => simp [Session.next, ho.calling] at hn
  | created ha => simp [Session.next, ha.calling] at hn
  | sent h => simp [Session.next, h.calling] at hn

/-- The script goes on with what its call came to. -/
private lemma returned_comesTo {session : Session} (h : s.At hint x)
    (ht : s.session.take s.client = some session) :
    { s with session := session }.ComesTo peer hint (s.ending peer hint x) := by
  simp only [Session.take, Option.bind_eq_bind, Option.bind_eq_some_iff] at ht
  obtain ⟨c, hc, ⟨phase, cn⟩, hcall, ht⟩ := ht
  cases h with
  | idle hc' => cases hc'.symm.trans hc
  | fresh ho hc' | running ho hc' | queued ho hc' =>
    cases ho.calling.symm.trans hc
    cases hc'.symm.trans hcall
    cases ht
  | created ha =>
    cases ha.calling.symm.trans hc
    cases ha.call.symm.trans hcall
    cases ht
  | sent h =>
    cases h.calling.symm.trans hc
    cases h.call.symm.trans hcall
    cases ht
  | finished ho hc' hp =>
    cases ho.calling.symm.trans hc
    cases hc'.symm.trans hcall
    split at ht
    · next entry script cn' heq =>
      cases heq
      cases ht
      exact ⟨.idle, .idle rfl ho.lock (Prog.Meets.pure_iff.1 hp entry script rfl) ho.due, rfl⟩
    · cases ht

/-! ### Runs -/

/-- Whatever happens, the script still comes to the same. -/
theorem comesTo_of_step {e : LineEvent} (hp : peer.Echoes) (hs : s.Sound hint) (h : s.At hint x)
    (hst : Line.step peer s e = some t) : t.ComesTo peer hint (s.ending peer hint x) := by
  cases Line.Moves.of_step hst with
  | next hn hc => exact next_comesTo h hn hc
  | run hcall hc =>
    cases h with
    | idle hnone => cases hnone.symm.trans hcall
    | fresh ho hc' hm hp =>
      cases ho.calling.symm.trans hcall
      simp only [State.step, State.runCall, hc', Option.bind_eq_bind, Option.bind_some, hm,
        Bool.false_eq_true, if_false, Option.some.injEq] at hc
      subst hc
      exact ⟨_, .running ⟨ho.calling, ho.lock, ho.due⟩ (Function.update_self _ _ _) hm hp, rfl⟩
    | running ho hc' hm hp =>
      cases ho.calling.symm.trans hcall
      exact run_running ho hc' hm hp hc
    | queued ho hc' hm hu hp =>
      cases ho.calling.symm.trans hcall
      obtain ⟨client', hc'', hfollows⟩ := run_queued peer hs ho hc' hm hu hp
      cases hc''.symm.trans hc
      exact hfollows.comesTo
    | finished ho hc' =>
      cases ho.calling.symm.trans hcall
      simp [State.step, State.runCall, hc'] at hc
    | created ha ho hf hr hdue =>
      cases ha.calling.symm.trans hcall
      exact absurd hc (by rw [blocked_of_created hs ha ho hf]; simp)
    | sent h hw =>
      cases h.calling.symm.trans hcall
      exact run_sent hs h hw hc
  | returned ht => exact returned_comesTo h ht
  | deadline _ hover hc => exact deadline_comesTo hs h hover hc
  | sendStart ht hc => exact sendStart_comesTo hp hs h ht rfl hc
  | arrive hd hc => exact arrive_comesTo hs h hd hc
  | sendEnd hr ho hc =>
    refine sendEnd_comesTo h hc (fun _ _ _ _ _ _ _ _ r' h' hi => ?_) fun _ _ _ _ _ _ hi => ?_
    · cases h'.reply.symm.trans (hi ▸ hr)
      exact ho
    · simp [hi, hr]
  | sendQuit ht hr hq hc =>
    refine sendEnd_comesTo h hc (fun _ _ _ _ _ _ _ _ r' h' hi => ?_) fun _ _ _ _ _ _ hi => ?_
    · cases h'.task.symm.trans (hi ▸ ht)
      rcases h'.ended with he | ⟨o, he, -⟩ <;> cases he.symm.trans hq
    · simp [hi, hr]

namespace Line.Sound

/-- What holds of a client keeps holding of it while it takes some steps. -/
private lemma client_steps {client : State Turn} {es : List (Event Turn)} (hs : s.Sound hint)
    (hst : es.foldlM State.step s.client = some client) :
    client.Consistent ∧ client.SendsOwned ∧ client.timeoutHint = hint ∧
      s.client.nextId ≤ client.nextId ∧
      ∀ c, (∀ e ∈ es, e.call ≠ some c) → client.calls c = s.client.calls c := by
  let I (u : State Turn) : Prop :=
    u.Consistent ∧ u.SendsOwned ∧ u.timeoutHint = hint ∧ s.client.nextId ≤ u.nextId ∧
      ∀ c, (∀ e ∈ es, e.call ≠ some c) → u.calls c = s.client.calls c
  have hstep : ∀ u e v, I u → (Always u e ∧ e ∈ es) → State.step u e = some v → I v := by
    rintro u e v ⟨hc, ho, hh, hn, hcalls⟩ ⟨-, he⟩ h
    have h := Step.of_step h
    exact ⟨hc.step h, ho.step h, h.timeoutHint.trans hh, hn.trans h.nextId_le, fun c hce =>
      (h.calls_frame (hce e he)).trans (hcalls c hce)⟩
  have hrun : Run (machine Turn hint none) Always s.client es client := Run.of_foldlM hst
  exact hrun.mem.invariant hstep
    ⟨hs.consistent, hs.owned, hs.timeoutHint, le_rfl, fun _ _ => rfl⟩

/-- Steps of the client that make no new calls. -/
private lemma steps {client : State Turn} {es : List (Event Turn)} (hs : s.Sound hint)
    (hst : es.foldlM State.step s.client = some client)
    (hes : ∀ e ∈ es, ∀ c, e.call = some c → s.session.calling = some c) :
    { s with client := client }.Sound hint := by
  obtain ⟨hc, ho, hh, hn, hcalls⟩ := hs.client_steps hst
  refine ⟨hc, ho, hh, fun i hi => hs.unborn i (hn.trans hi), hs.called, fun c hle => ?_⟩
  refine (hcalls c fun e he hce => ?_).trans (hs.uncalled c hle)
  exact absurd (hs.called c (hes e he c hce)) (not_lt.2 hle)

private lemma step_client {client : State Turn} {e : Event Turn} (hs : s.Sound hint)
    (hst : s.client.step e = some client)
    (he : ∀ c, e.call = some c → s.session.calling = some c) :
    { s with client := client }.Sound hint :=
  have hrun : [e].foldlM State.step s.client = some client := by simp [hst]
  hs.steps hrun (by simpa using he)

lemma init (hint : Option String) (password : Option ℤ) (script : Script) (s : σ) :
    (Line.init hint password script s).Sound hint :=
  ⟨.init _ _, .init _ _, rfl, fun _ _ => ⟨rfl, rfl⟩, nofun, fun _ _ => rfl⟩

private lemma next {act : Act} {session : Session} {client : State Turn} (hs : s.Sound hint)
    (hn : s.session.next = some (act, session)) (hst : s.client.step act.event = some client) :
    { s with client := client, session := session }.Sound hint := by
  have hrun : [act.event].foldlM State.step s.client = some client := by simp [hst]
  obtain ⟨hcons, ho, hh, hid, hcalls⟩ := hs.client_steps hrun
  have hfresh := fun i (hi : client.nextId ≤ i) => hs.unborn i (hid.trans hi)
  unfold Session.next at hn
  split at hn <;> cases hn
  · refine ⟨hcons, ho, hh, hfresh, fun c hc => ?_, fun c hle => ?_⟩
    · cases hc
      exact Nat.lt_succ_self _
    · refine (hcalls c fun e he hce => ?_).trans (hs.uncalled c (Nat.le_of_succ_le hle))
      obtain rfl := List.mem_singleton.1 he
      cases hce
      exact absurd hle (Nat.not_succ_le_self _)
  all_goals
    refine ⟨hcons, ho, hh, hfresh, hs.called, fun c hle => ?_⟩
    refine (hcalls c fun e he hce => ?_).trans (hs.uncalled c hle)
    obtain rfl := List.mem_singleton.1 he
    cases hce

private lemma returned {session : Session} (hs : s.Sound hint)
    (ht : s.session.take s.client = some session) : { s with session := session }.Sound hint := by
  simp only [Session.take, Option.bind_eq_bind, Option.bind_eq_some_iff] at ht
  obtain ⟨c, -, call, -, ht⟩ := ht
  split at ht
  · cases ht
    exact ⟨hs.consistent, hs.owned, hs.timeoutHint, hs.unborn, nofun, hs.uncalled⟩
  · cases ht

lemma step {e : LineEvent} (hs : s.Sound hint) (hst : Line.step peer s e = some t) :
    t.Sound hint := by
  cases Line.Moves.of_step hst with
  | next hn hc => exact hs.next hn hc
  | run hcall hc | deadline hcall _ hc => exact hs.step_client hc fun _ h => by cases h; exact hcall
  | returned ht => exact hs.returned ht
  | @sendStart i task client ht hc =>
    have hclient := hs.steps hc fun e he c hce => by
      generalize (s.ask peer task.frame).2 = r at he
      cases r <;> simp only [Reply.startEvents, List.mem_cons, List.not_mem_nil, or_false] at he
      case refused => rcases he with rfl | rfl <;> cases hce
      all_goals
        subst he
        cases hce
    have hid := (hs.client_steps hc).2.2.2.1
    refine ⟨hclient.consistent, hclient.owned, hclient.timeoutHint, fun i' hi' => ?_,
      hclient.called, hclient.uncalled⟩
    have hi : i' ≠ i := by
      rintro rfl
      cases (hs.consistent.unborn i' (hid.trans hi')).1.symm.trans ht
    simpa [Function.update_of_ne hi] using hs.unborn i' (hid.trans hi')
  | @arrive i p client hd hc =>
    have hclient : { s with client := client }.Sound hint := by
      unfold Line.notified at hc
      split_ifs at hc
      · exact hs.step_client hc fun _ h => by cases h
      · cases hc
        exact hs
    refine ⟨hclient.consistent, hclient.owned, hclient.timeoutHint, fun i' hi' => ?_,
      hclient.called, hclient.uncalled⟩
    obtain ⟨hr, hd'⟩ := hclient.unborn i' hi'
    refine ⟨hr, ?_⟩
    by_cases hi : i' = i
    · simp [hi]
    · simpa [Function.update_of_ne hi] using hd'
  | sendEnd _ _ hc | sendQuit _ _ _ hc => exact hs.step_client hc fun _ h => by cases h

end Line.Sound

/-- In every state of a run, the script comes to what it does without a link. -/
theorem comesTo_of_run {password : Option ℤ} {script : Script} {s : σ} {es : List LineEvent}
    (hp : peer.Echoes) (hscript : script.Plain) (h : LineRun peer hint password script s es t) :
    t.Sound hint ∧ t.ComesTo peer hint
      (script.exec (World.call peer hint) ([], ⟨s, false, password⟩)).2 := by
  have hstep : ∀ (u : Line σ) e v, (u.Sound hint ∧ u.ComesTo peer hint
      (script.exec (World.call peer hint) ([], ⟨s, false, password⟩)).2) → Always u e →
      Line.step peer u e = some v → v.Sound hint ∧ v.ComesTo peer hint
        (script.exec (World.call peer hint) ([], ⟨s, false, password⟩)).2 := by
    rintro u e v ⟨hu, x, hx, he⟩ - hst
    exact ⟨hu.step hst, he ▸ comesTo_of_step hp hu hx hst⟩
  refine h.invariant hstep ⟨.init _ _ _ _, .idle, .idle rfl rfl hscript fun i p hd => ?_, rfl⟩
  cases hd

/-- A script that has come to its end has come to what it does without a link. -/
theorem ending_of_run {password : Option ℤ} {script : Script} {s : σ} {es : List LineEvent}
    (hp : peer.Echoes) (hscript : script.Plain) (h : LineRun peer hint password script s es t)
    (hf : t.session.Finished) :
    (t.session.log, t.world) =
      (script.exec (World.call peer hint) ([], ⟨s, false, password⟩)).2 := by
  obtain ⟨-, x, hx, he⟩ := comesTo_of_run hp hscript h
  obtain ⟨hc, hpure⟩ := hf
  cases hx with
  | idle =>
    rw [← he, Line.ending, Standing.ending, hpure]
    rfl
  | fresh ho | running ho | queued ho | finished ho => cases ho.calling.symm.trans hc
  | created ha => cases ha.calling.symm.trans hc
  | sent h => cases h.calling.symm.trans hc

end SpinevBle
