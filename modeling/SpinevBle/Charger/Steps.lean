import SpinevBle.Charger.Machine

/-!
# What one step can do

`Step` lists the transitions of the machine, one constructor for each way in which a step of the
event loop can go. Every property of runs below is proved by cases on it, and no later proof
looks into `State.step`.
-/

namespace SpinevBle

open Asyncio Interaction

variable {β : Type}

/-! ### Resuming a delivery -/

namespace Delivery

variable {point : Point} {mustCancel : Bool} {send : TaskState Exc} {abort : Future Bytes Exc}

/-- Only the send is left to wait for once the waiter has its reply. -/
lemma result_of_awaitSend (h : resume point mustCancel send abort = .awaitSend) :
    point = .wait ∧ mustCancel = false ∧ send.isDone = false ∧
      ∃ payload, abort = .result payload := by
  unfold resume at h
  split_ifs at h with hm
  cases point with
  | wait =>
    cases send with
    | done o => cases o <;> simp [ofWait, ofOutcome] at h
    | created | running | cancelling | unwinding => cases abort <;> simp_all [ofWait]
  | send => cases send <;> simp [ofSend] at h; rename_i o; cases o <;> simp [ofOutcome] at h
  | reply => simp at h

/-- A frame counts as delivered once its send has returned. -/
lemma returned_of_delivered (h : resume point mustCancel send abort = .delivered)
    (hp : point ≠ .reply) : send = .done .returned := by
  unfold resume at h
  split_ifs at h with hm
  cases point with
  | wait =>
    cases send with
    | done o => cases o <;> simp_all [ofWait, ofOutcome]
    | created | running | cancelling | unwinding => cases abort <;> simp_all [ofWait]
  | send =>
    cases send with
    | done o => cases o <;> simp_all [ofSend, ofOutcome]
    | created | running | cancelling | unwinding => simp [ofSend] at h
  | reply => exact absurd rfl hp

/-- Where an exception of a delivery comes from: a cancellation, the send or the abort. -/
lemma raised_cases {e : Exc} (h : resume point mustCancel send abort = .raised e) :
    mustCancel = true ∧ e = .cancelledError ∨
      (∃ o, send = .done o ∧ ofOutcome o = .raised e) ∨
      point = .wait ∧ send.isDone = false ∧
        (abort = .exception e ∨ abort = .cancelled ∧ e = .cancelledError) := by
  unfold resume at h
  split_ifs at h with hm
  · cases h
    exact .inl ⟨hm, rfl⟩
  · cases point with
    | wait =>
      cases send with
      | done o => exact .inr (.inl ⟨o, rfl, h⟩)
      | created | running | cancelling | unwinding => cases abort <;> simp_all [ofWait]
    | send =>
      cases send with
      | done o => exact .inr (.inl ⟨o, rfl, h⟩)
      | created | running | cancelling | unwinding => cases h
    | reply => cases h

lemma mustCancel_of_delivered (h : resume point mustCancel send abort = .delivered) :
    mustCancel = false := by
  unfold resume at h
  split_ifs at h with hm
  exact by simpa using hm

end Delivery

/-! ### Going on inside the lock -/

/-- What a job that has no frame to send leaves the lock with. -/
def Job.Leaves : (j : Job) → Except Exc j.Value → Prop
  | .request .., _ => False
  | .writeFrames _, r => r = .ok ()
  | .history count, r => ∃ x, historyFrame count = .error x ∧ r = .error x

/-- A call goes on from `s` with frame `n` of its job, or leaves the lock where there is none. A
history read may have cleared what the last one has left. -/
inductive State.GoesOn (s : State β) (c : ℕ) (cn : Cancellation) (j : Job)
    (k : Except Exc j.Value → Program (Except Exc β)) (n : ℕ) : State β → Prop
  | launch {bulk bulkEvent frame} (hj : j.frames[n]? = some frame) :
      GoesOn s c cn j k n
        ({ s with bulk := bulk, bulkEvent := bulkEvent }.launch c cn j k n frame)
  | release {bulk bulkEvent r} (hj : j.frames[n]? = none) (hr : j.Leaves r) :
      GoesOn s c cn j k n
        ({ s with bulk := bulk, bulkEvent := bulkEvent }.release c cn.requests j k r)

lemma State.goesOn_nextFrame (s : State β) (c : ℕ) (cn : Cancellation) (frames : List Frame)
    (k : Except Exc Unit → Program (Except Exc β)) (n : ℕ) :
    s.GoesOn c cn (.writeFrames frames) k n (s.nextFrame c cn frames k n) := by
  unfold State.nextFrame
  split
  · next hj => exact @GoesOn.launch β s _ _ _ _ _ s.bulk s.bulkEvent _ hj
  · next hj => exact @GoesOn.release β s _ _ _ _ _ s.bulk s.bulkEvent _ hj rfl

lemma State.goesOn_enter (s : State β) (c : ℕ) (cn : Cancellation) (j : Job)
    (k : Except Exc j.Value → Program (Except Exc β)) :
    s.GoesOn c cn j k 0 (s.enter c cn j k) := by
  cases j with
  | request frame register => exact @GoesOn.launch β s _ _ _ _ _ s.bulk s.bulkEvent _ rfl
  | writeFrames frames => exact s.goesOn_nextFrame c cn frames k 0
  | history count =>
    unfold State.enter
    simp only
    split
    · next hx => exact .launch (by rw [Job.frames_history hx]; rfl)
    · next x hx => exact .release (by simp [Job.frames, hx]) ⟨x, hx, rfl⟩

/-! ### Transitions -/

/-- The transitions of one client. -/
inductive Step (s : State β) : Event β → State β → Prop
  | spawn {c p n} (hc : s.calls c = none) :
      Step s (.spawn c p n) (s.setPhase c (.fresh p) ⟨n, false⟩)
  | link {up} : Step s (.link up) { s with connected := up }
  | begin {c p cn} (hc : s.calls c = some ⟨.fresh p, cn⟩) (hm : cn.mustCancel = false) :
      Step s (.run c) (s.setPhase c (.running p) cn)
  | skip {c p cn} (hc : s.calls c = some ⟨.fresh p, cn⟩) (hm : cn.mustCancel = true) :
      Step s (.run c) (s.setPhase c (.finished (.error .cancelledError)) ⟨cn.requests, false⟩)
  | finish {c r cn} (hc : s.calls c = some ⟨.running (.pure r), cn⟩) :
      Step s (.run c) (s.setPhase c (.finished r) cn)
  | getPassword {c k cn} (hc : s.calls c = some ⟨.running (.op .getPassword k), cn⟩) :
      Step s (.run c) (s.setPhase c (.running (k s.password)) cn)
  | setPassword {c password k cn}
      (hc : s.calls c = some ⟨.running (.op (.setPassword password) k), cn⟩) :
      Step s (.run c) { s.setPhase c (.running (k ())) cn with password := some password }
  | refuse {c j k cn} (hc : s.calls c = some ⟨.running (.op (.locked j) k), cn⟩)
      (hu : s.connected = false) :
      Step s (.run c)
        (s.setPhase c (.running (k (.error (.spinEv .connection "not connected")))) cn)
  | queue {c j k cn} (hc : s.calls c = some ⟨.running (.op (.locked j) k), cn⟩)
      (hu : s.connected = true) :
      Step s (.run c) (s.setPhase c (.queued j k) cn)
  | giveUp {c j k cn} (hc : s.calls c = some ⟨.queued j k, cn⟩) (hm : cn.mustCancel = true) :
      Step s (.run c) (s.setPhase c (.running (k (.error .cancelledError))) ⟨cn.requests, false⟩)
  | enter {c j k cn} (hc : s.calls c = some ⟨.queued j k, cn⟩) (hm : cn.mustCancel = false)
      (hl : s.lock = none) :
      Step s (.run c) (s.enter c cn j k)
  | awaitSend {c j k n fl cn task} (hc : s.calls c = some ⟨.inside, cn⟩)
      (hl : s.lock = some (.delivering c j k n fl)) (ht : s.sendTasks fl.id = some task)
      (hd : Delivery.resume fl.point cn.mustCancel task.state (s.futures fl.id) = .awaitSend) :
      Step s (.run c) { s with lock := some (.delivering c j k n { fl with point := .send }) }
  | awaitReply {c frame register k n fl cn task} (hc : s.calls c = some ⟨.inside, cn⟩)
      (hl : s.lock = some (.delivering c (.request frame register) k n fl))
      (ht : s.sendTasks fl.id = some task)
      (hd : Delivery.resume fl.point cn.mustCancel task.state (s.futures fl.id) = .delivered)
      (hf : s.futures fl.id = .pending) (hp : fl.point ≠ .reply) :
      Step s (.run c) { s with
        lock := some (.delivering c (.request frame register) k n { fl with point := .reply }) }
  | reply {c frame register k n fl cn task payload} (hc : s.calls c = some ⟨.inside, cn⟩)
      (hl : s.lock = some (.delivering c (.request frame register) k n fl))
      (ht : s.sendTasks fl.id = some task)
      (hd : Delivery.resume fl.point cn.mustCancel task.state (s.futures fl.id) = .delivered)
      (hf : s.futures fl.id = .result payload) :
      Step s (.run c) ((s.land (.request frame register) fl.id).release c
        (fl.scope.exit cn.requests).1 (.request frame register) k (.ok payload))
  | failed {c frame register k n fl cn task e} (hc : s.calls c = some ⟨.inside, cn⟩)
      (hl : s.lock = some (.delivering c (.request frame register) k n fl))
      (ht : s.sendTasks fl.id = some task)
      (hd : Delivery.resume fl.point cn.mustCancel task.state (s.futures fl.id) = .delivered)
      (hf : s.futures fl.id = .exception e ∨ s.futures fl.id = .cancelled ∧ e = .cancelledError) :
      Step s (.run c) (s.abandon c cn.requests (.request frame register) k frame fl e)
  | raised {c j k n fl cn task e} (hc : s.calls c = some ⟨.inside, cn⟩)
      (hl : s.lock = some (.delivering c j k n fl)) (ht : s.sendTasks fl.id = some task)
      (hd : Delivery.resume fl.point cn.mustCancel task.state (s.futures fl.id) = .raised e) :
      Step s (.run c) (s.abandon c cn.requests j k task.frame fl e)
  | next {c frames k n fl cn task} (hc : s.calls c = some ⟨.inside, cn⟩)
      (hl : s.lock = some (.delivering c (.writeFrames frames) k n fl))
      (ht : s.sendTasks fl.id = some task)
      (hd : Delivery.resume fl.point cn.mustCancel task.state (s.futures fl.id) = .delivered) :
      Step s (.run c) ((s.land (.writeFrames frames) fl.id).nextFrame c
        ⟨(fl.scope.exit cn.requests).1, false⟩ frames k (n + 1))
  | collect {c count k n fl cn task} (hc : s.calls c = some ⟨.inside, cn⟩)
      (hl : s.lock = some (.delivering c (.history count) k n fl))
      (ht : s.sendTasks fl.id = some task)
      (hd : Delivery.resume fl.point cn.mustCancel task.state (s.futures fl.id) = .delivered) :
      Step s (.run c) { (s.land (.history count) fl.id).setPhase c .inside
        ⟨(fl.scope.exit cn.requests).1, false⟩ with lock := some (.collecting c count k) }
  | wake {c count k cn} (hc : s.calls c = some ⟨.inside, cn⟩)
      (hl : s.lock = some (.collecting c count k)) (hm : cn.mustCancel = false)
      (hb : s.bulkEvent = true) :
      Step s (.run c) { s with bulkEvent := false }
  | stop {c count k cn} (hc : s.calls c = some ⟨.inside, cn⟩)
      (hl : s.lock = some (.collecting c count k)) (hm : cn.mustCancel = true) :
      Step s (.run c) (s.release c cn.requests (.history count) k (.error .cancelledError))
  | idle {c count k phase cn} (hc : s.calls c = some ⟨phase, cn⟩)
      (hl : s.lock = some (.collecting c count k)) (hm : cn.mustCancel = false) :
      Step s (.idle c)
        { s.release c cn.requests (.history count) k (.ok s.bulk) with bulk := [] }
  | cancelFresh {c p cn} (hc : s.calls c = some ⟨.fresh p, cn⟩) :
      Step s (.cancel c) (s.setPhase c (.fresh p) ⟨cn.requests + 1, true⟩)
  | cancelQueued {c j k cn} (hc : s.calls c = some ⟨.queued j k, cn⟩) :
      Step s (.cancel c) (s.setPhase c (.queued j k) ⟨cn.requests + 1, true⟩)
  | cancelCollecting {c count k cn} (hc : s.calls c = some ⟨.inside, cn⟩)
      (hl : s.lock = some (.collecting c count k)) :
      Step s (.cancel c) (s.setPhase c .inside ⟨cn.requests + 1, true⟩)
  | cancel {c j k n fl cn} (hc : s.calls c = some ⟨.inside, cn⟩)
      (hl : s.lock = some (.delivering c j k n fl)) :
      Step s (.cancel c) (s.interrupt c cn fl)
  | expire {c j k n fl phase cn} (hc : s.calls c = some ⟨phase, cn⟩)
      (hl : s.lock = some (.delivering c j k n fl)) (hx : fl.scope.expiring = false) :
      Step s (.expire c)
        ({ s with lock := some (.delivering c j k n fl.expire) }.interrupt c cn fl.expire)
  | sendStart {i task} (ht : s.sendTasks i = some task) (hs : task.state = .created) :
      Step s (.sendStart i) { s.setSend i task .running with wire := s.wire ++ [i] }
  | sendUnwind {i task} (ht : s.sendTasks i = some task) (hs : task.state = .cancelling) :
      Step s (.sendUnwind i) (s.setSend i task .unwinding)
  | sendEnd {i task o} (ht : s.sendTasks i = some task) (hs : task.state.busy = true)
      (ho : o ≠ .raised .cancelledError) :
      Step s (.sendEnd i o) (s.setSend i task (.done o))
  | record {payload} (hr : isHistoryRecord payload = .ok true) :
      Step s (.notify payload) { s with bulk := s.bulk ++ [payload], bulkEvent := true }
  | answer {payload register w} (hp : Answers payload register w.flag)
      (hw : s.waiters.lookup register = some w) :
      Step s (.notify payload) (s.answerWaiter register w payload)
  | ignore {payload} (hr : isHistoryRecord payload = .ok false)
      (hw : ∀ register w, s.waiters.lookup register = some w → ¬ Answers payload register w.flag) :
      Step s (.notify payload) s
  | disconnect (hs : ∀ i ∈ s.sends, s.futures i = .pending) : Step s .disconnect s.failAll

namespace Step

variable {s s' : State β} {e : Event β}

private lemma of_runDelivering {c : ℕ} {cn : Cancellation} {j : Job}
    {k : Except Exc j.Value → Program (Except Exc β)} {n : ℕ} {fl : Flight}
    (hc : s.calls c = some ⟨.inside, cn⟩) (hl : s.lock = some (.delivering c j k n fl))
    (h : s.runDelivering c cn j k n fl = some s') : Step s (.run c) s' := by
  simp only [State.runDelivering, Option.bind_eq_bind, Option.bind_eq_some_iff] at h
  obtain ⟨task, ht, h⟩ := h
  split at h
  · cases h
  · next hd =>
    cases h
    exact .awaitSend hc hl ht hd
  · next e hd =>
    cases h
    exact .raised hc hl ht hd
  · next hd =>
    cases j with
    | request frame register =>
      simp only at h
      split at h
      · next hf =>
        split_ifs at h with hp
        cases h
        exact .awaitReply hc hl ht hd hf hp
      · next payload hf =>
        cases h
        exact .reply hc hl ht hd hf
      · next e hf =>
        cases h
        exact .failed hc hl ht hd (.inl hf)
      · next hf =>
        cases h
        exact .failed hc hl ht hd (.inr ⟨hf, rfl⟩)
    | writeFrames frames =>
      cases h
      exact .next hc hl ht hd
    | history count =>
      cases h
      exact .collect hc hl ht hd

private lemma of_runCollecting {c : ℕ} {cn : Cancellation} {count : ℤ}
    {k : Except Exc (List Bytes) → Program (Except Exc β)}
    (hc : s.calls c = some ⟨.inside, cn⟩) (hl : s.lock = some (.collecting c count k))
    (h : s.runCollecting c cn count k = some s') : Step s (.run c) s' := by
  simp only [State.runCollecting] at h
  split_ifs at h with hm hb
  · cases h
    exact .stop hc hl hm
  · cases h
    exact .wake hc hl (by simpa using hm) hb

private lemma of_runCall {c : ℕ} (h : s.runCall c = some s') : Step s (.run c) s' := by
  simp only [State.runCall, Option.bind_eq_bind, Option.bind_eq_some_iff] at h
  obtain ⟨⟨phase, cn⟩, hc, h⟩ := h
  cases phase with
  | fresh p =>
    simp only at h
    split_ifs at h with hm
    · cases h
      exact .skip hc hm
    · cases h
      exact .begin hc (by simpa using hm)
  | running p =>
    cases p with
    | pure r =>
      cases h
      exact .finish hc
    | op o k =>
      cases o with
      | getPassword =>
        cases h
        exact .getPassword hc
      | setPassword password =>
        cases h
        exact .setPassword hc
      | locked j =>
        simp only at h
        split_ifs at h with hu
        · cases h
          exact .queue hc hu
        · cases h
          exact .refuse hc (by simpa using hu)
  | queued j k =>
    simp only at h
    split_ifs at h with hm hl
    · cases h
      exact .giveUp hc hm
    · cases h
      exact .enter hc (by simpa using hm) (by simpa using hl)
  | inside =>
    simp only at h
    split at h
    · next hl =>
      split_ifs at h with hcc
      subst hcc
      exact of_runDelivering hc hl h
    · next hl =>
      split_ifs at h with hcc
      subst hcc
      exact of_runCollecting hc hl h
    · cases h
  | finished r => cases h

private lemma of_cancelCall {c : ℕ} (h : s.cancelCall c = some s') : Step s (.cancel c) s' := by
  simp only [State.cancelCall, Option.bind_eq_bind, Option.bind_eq_some_iff] at h
  obtain ⟨⟨phase, cn⟩, hc, h⟩ := h
  cases phase with
  | fresh p =>
    cases h
    exact .cancelFresh hc
  | queued j k =>
    cases h
    exact .cancelQueued hc
  | inside =>
    simp only at h
    split at h
    · next hl =>
      split_ifs at h with hcc
      subst hcc
      cases h
      exact .cancel hc hl
    · next hl =>
      split_ifs at h with hcc
      subst hcc
      cases h
      exact .cancelCollecting hc hl
    · cases h
  | running p => cases h
  | finished r => cases h

private lemma of_expireCall {c : ℕ} (h : s.expireCall c = some s') : Step s (.expire c) s' := by
  simp only [State.expireCall, Option.bind_eq_bind, Option.bind_eq_some_iff] at h
  obtain ⟨⟨phase, cn⟩, hc, h⟩ := h
  simp only at h
  split at h
  · next hl =>
    split_ifs at h with hcc
    obtain ⟨rfl, hx⟩ := hcc
    cases h
    exact .expire hc hl (by simpa using hx)
  · cases h

private lemma of_idleCall {c : ℕ} (h : s.idleCall c = some s') : Step s (.idle c) s' := by
  simp only [State.idleCall, Option.bind_eq_bind, Option.bind_eq_some_iff] at h
  obtain ⟨⟨phase, cn⟩, hc, h⟩ := h
  simp only at h
  split at h
  · next hl =>
    split_ifs at h with hcc
    obtain ⟨rfl, hm⟩ := hcc
    cases h
    exact .idle hc hl (by simpa using hm)
  · cases h

/-- The three things that `_on_notify` can do with a payload. -/
lemma of_onNotify (s : State β) (payload : Bytes) :
    ∃ s', s.onNotify payload = .ok s' ∧ Step s (.notify payload) s' := by
  obtain ⟨b, hb⟩ := exists_isHistoryRecord payload
  cases b with
  | true =>
    refine ⟨_, ?_, .record hb⟩
    simp [State.onNotify, hb, bind, Except.bind, pure, Except.pure]
  | false =>
    by_cases hr : isReply payload = true
    · obtain ⟨r, f, hr2, hf, ha⟩ := exists_answers hr
      cases hw : s.waiters.lookup r with
      | none =>
        refine ⟨s, by simp [State.onNotify, hb, hr, hr2, hf, hw, bind, Except.bind, pure,
          Except.pure], .ignore hb fun r' w hw' ha' => ?_⟩
        obtain ⟨rfl, -⟩ := ha.unique ha'
        simp [hw] at hw'
      | some w =>
        by_cases hfw : f = w.flag
        · subst hfw
          exact ⟨_, by simp [State.onNotify, hb, hr, hr2, hf, hw, bind, Except.bind, pure,
            Except.pure], .answer ha hw⟩
        · refine ⟨s, by simp [State.onNotify, hb, hr, hr2, hf, hw, hfw, bind, Except.bind, pure,
            Except.pure], .ignore hb fun r' w' hw' ha' => ?_⟩
          obtain ⟨rfl, rfl⟩ := ha.unique ha'
          rw [hw] at hw'
          cases hw'
          exact hfw rfl
    · exact ⟨s, by simp [State.onNotify, hb, hr, bind, Except.bind, pure, Except.pure],
        .ignore hb fun _ _ _ ha => hr ha.isReply⟩

/-- Every step of the machine is one of the transitions. -/
theorem of_step (h : s.step e = some s') : Step s e s' := by
  cases e with
  | spawn c p n =>
    simp only [State.step] at h
    split_ifs at h with hc
    cases h
    exact .spawn (by simpa using hc)
  | run c => exact of_runCall h
  | cancel c => exact of_cancelCall h
  | expire c => exact of_expireCall h
  | idle c => exact of_idleCall h
  | sendStart i =>
    simp only [State.step, State.startSend, Option.bind_eq_bind, Option.bind_eq_some_iff] at h
    obtain ⟨task, ht, h⟩ := h
    split_ifs at h with hs
    cases h
    exact .sendStart ht hs
  | sendUnwind i =>
    simp only [State.step, State.unwindSend, Option.bind_eq_bind, Option.bind_eq_some_iff] at h
    obtain ⟨task, ht, h⟩ := h
    split_ifs at h with hs
    cases h
    exact .sendUnwind ht hs
  | sendEnd i o =>
    simp only [State.step, State.endSend, Option.bind_eq_bind, Option.bind_eq_some_iff] at h
    obtain ⟨task, ht, h⟩ := h
    split_ifs at h with hs
    cases h
    exact .sendEnd ht hs.1 hs.2
  | notify payload =>
    obtain ⟨t, ht, hst⟩ := of_onNotify s payload
    simp only [State.step, ht, Except.toOption, Option.some.injEq] at h
    exact h ▸ hst
  | disconnect =>
    simp only [State.step, State.onDisconnect] at h
    split_ifs at h with hs
    · cases h
    · cases h
      refine .disconnect fun i hi => Future.done_eq_false_iff.1 ?_
      simpa using fun hd => hs ⟨i, hi, hd⟩
  | link up =>
    cases h
    exact .link

end Step

end SpinevBle
