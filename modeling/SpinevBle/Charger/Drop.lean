import SpinevBle.Charger.Sends

/-!
# Drops in mid flight

A drop fails the future of the frame in flight, which wakes the delivery whether it waits for its
send or for its reply. A request whose reply came first has left the table, and what its delivery
still waits for is the send alone. A drop does not reach it there. Nor does a drop end a write of
several frames whose current send has returned: the next frame is sent all the same.
-/

namespace SpinevBle

open Asyncio Interaction Transition

variable {β : Type} {s s' t : State β} {e : Event β} {c i : ℕ}

/-! ### Deliveries that can end -/

/-- The call that delivers flight `i` can be resumed, and is done with the flight then. -/
def State.CanEnd (s : State β) (c i : ℕ) : Prop :=
  ∃ s', s.step (.run c) = some s' ∧ ¬ s'.Delivers i

/-- The reply to the frame in flight is in, and its send is still open. -/
def State.repliedEarly (s : State β) : Bool :=
  match s.lock with
  | some (.delivering _ _ _ _ fl) =>
    match s.futures fl.id, s.sendTasks fl.id with
    | .result _, some task => !task.state.isDone
    | _, _ => false
  | _ => false

/-- Something has happened to flight `i` that its delivery does not wait beyond. -/
structure State.Woken (s : State β) (i : ℕ) : Prop where
  done : s.futures i ≠ .pending
  reached : (∀ payload, s.futures i ≠ .result payload) ∨
    ∃ task o, s.sendTasks i = some task ∧ task.state = .done o

namespace State.Woken

lemma step (h : s.Woken i) (hs : s.Consistent) (hst : Step s e s') : s'.Woken i := by
  have hf := hst.future_done h.done
  refine ⟨hf ▸ h.done, h.reached.imp (fun hr => hf ▸ hr) ?_⟩
  rintro ⟨task, o, ht, ho⟩
  exact ⟨task, o, hst.sendTask_done hs ht ho, ho⟩

/-- A drop reaches the flight unless its reply came first. -/
lemma of_disconnect (hs : s.Consistent) (hst : Step s .disconnect s') (hd : s.Delivers i)
    (hr : s.repliedEarly = false) : s'.Woken i := by
  obtain ⟨c, j, k, n, fl, hl, rfl⟩ := hd
  have hfl := hs.flying _ _ _ _ _ hl
  obtain ⟨frame, state, -, ht⟩ := hfl.task
  cases hst with
  | disconnect =>
    have hfail := hfl.failAll_futures
    cases hf : s.futures fl.id with
    | result payload =>
      have hdone : state.isDone = true := by simpa [State.repliedEarly, hl, hf, ht] using hr
      obtain ⟨o, rfl⟩ := TaskState.isDone_iff.1 hdone
      exact ⟨by simp [hfail, hf, Future.fail], .inr ⟨_, o, ht, rfl⟩⟩
    | pending | exception | cancelled =>
      refine ⟨?_, .inl fun payload => ?_⟩ <;> simp [hfail, hf, Future.fail]

/-- A delivery that was woken is not blocked. -/
lemma exists_run (h : s.Woken i) (hs : s.Consistent) {j : Job}
    {k : Except Exc j.Value → Program (Except Exc β)} {n : ℕ} {fl : Flight}
    (hl : s.lock = some (.delivering c j k n fl)) (hi : fl.id = i) :
    ∃ s', s.step (.run c) = some s' := by
  subst hi
  have hfl := hs.flying _ _ _ _ _ hl
  obtain ⟨cn, hc⟩ := hfl.call
  obtain ⟨frame, state, -, ht⟩ := hfl.task
  refine State.exists_run hc hl ht ?_ fun _ => .inr h.done
  by_cases hm : cn.mustCancel = true
  · simp [Delivery.resume, hm]
  · rcases h.reached with hr | ⟨task, o, ht', ho⟩
    · cases hp : fl.point with
      | wait =>
        cases hf : s.futures fl.id with
        | pending => exact absurd hf h.done
        | result payload => exact absurd hf (hr payload)
        | exception | cancelled =>
          cases state with
          | done o => cases o <;> simp [Delivery.resume, hm, Delivery.ofWait, Delivery.ofOutcome]
          | created | running | cancelling | unwinding =>
            simp [Delivery.resume, hm, Delivery.ofWait]
      | send =>
        obtain ⟨payload, hf⟩ := hfl.atSend hp
        exact absurd hf (hr payload)
      | reply => simp [Delivery.resume, hm]
    · rw [ht] at ht'
      cases ht'
      obtain rfl : state = .done o := ho
      cases hp : fl.point <;> cases o <;>
        simp [Delivery.resume, hm, Delivery.ofWait, Delivery.ofSend, Delivery.ofOutcome]

/-- Once it is resumed it is done with the flight. -/
lemma not_delivers (h : s.Woken i) (hs : s.Consistent) (hst : Step s (.run c) s') {j : Job}
    {k : Except Exc j.Value → Program (Except Exc β)} {n : ℕ} {fl : Flight}
    (hl : s.lock = some (.delivering c j k n fl)) (hi : fl.id = i) : ¬ s'.Delivers i := by
  subst hi
  have hfl := hs.flying _ _ _ _ _ hl
  obtain ⟨cn, hc⟩ := hfl.call
  obtain ⟨frame, state, -, ht⟩ := hfl.task
  rintro ⟨c', j', k', n', fl', hl', hid⟩
  cases hst.delivering rfl hc hl ht with
  | awaitSend hd =>
    obtain ⟨-, -, hnd, payload, hf⟩ := Delivery.result_of_awaitSend hd
    rcases h.reached with hr | ⟨task, o, ht', ho⟩
    · exact hr payload hf
    · cases ht.symm.trans ht'
      obtain rfl : state = .done o := ho
      cases hnd
  | awaitReply hd hf hp => exact h.done hf
  | next hd =>
    have hnew := hfl.newest
    obtain ⟨fl'', hd', hid'⟩ := (State.goesOn_nextFrame _ _ _ _ _ _).lock hl'
    cases hd'
    change fl'.id = s.nextId at hid'
    omega
  | reply | failed | raised | collect => cases hl'

lemma canEnd {j : Job} {k : Except Exc j.Value → Program (Except Exc β)} {n : ℕ} {fl : Flight}
    (h : s.Woken i) (hs : s.Consistent) (hl : s.lock = some (.delivering c j k n fl))
    (hi : fl.id = i) : s.CanEnd c i := by
  obtain ⟨s', hs'⟩ := h.exists_run hs hl hi
  exact ⟨s', hs', h.not_delivers hs (Step.of_step hs') hl hi⟩

end State.Woken

/-! ### Deliveries that cannot -/

/-- Call `c` has the reply to flight `i` and waits for a send that has not ended. -/
structure State.Hung (s : State β) (c i : ℕ) : Prop where
  lock : ∃ j k n fl, s.lock = some (.delivering c j k n fl) ∧ fl.id = i ∧ fl.point = .send
  call : ∃ cn, s.calls c = some ⟨.inside, cn⟩ ∧ cn.mustCancel = false
  send : ∃ task, s.sendTasks i = some task ∧ task.state.isDone = false

/-- An event that neither cancels call `c` nor ends the send of flight `i`. -/
def Undisturbed (c i : ℕ) (_ : State β) (e : Event β) : Prop :=
  e ≠ .cancel c ∧ e ≠ .expire c ∧ ∀ o, e ≠ .sendEnd i o

namespace State.Hung

/-- There is nothing that it could be resumed for. -/
lemma blocked (h : s.Hung c i) : s.step (.run c) = none := by
  obtain ⟨j, k, n, fl, hl, rfl, hp⟩ := h.lock
  obtain ⟨cn, hc, hm⟩ := h.call
  obtain ⟨task, ht, hd⟩ := h.send
  simp only [State.step, State.runCall, hc, Option.bind_eq_bind, Option.bind_some, hl, if_true,
    State.runDelivering, ht]
  cases hst : task.state with
  | done o => simp [hst] at hd
  | created | running | cancelling | unwinding =>
    simp [Delivery.resume, hm, hp, Delivery.ofSend]

/-- Nothing else concerns the call. -/
lemma call_ne (h : s.Hung c i) (hst : s.step e = some s') (he : Undisturbed c i s e) :
    e.call ≠ some c := by
  obtain ⟨j, k, n, fl, hl, -⟩ := h.lock
  obtain ⟨cn, hc, -⟩ := h.call
  obtain ⟨hcancel, hexpire, -⟩ := he
  intro hcall
  cases e with
  | spawn c' p requests =>
    cases hcall
    simp [State.step, hc] at hst
  | run c' =>
    cases hcall
    simp [h.blocked] at hst
  | cancel c' =>
    cases hcall
    exact hcancel rfl
  | expire c' =>
    cases hcall
    exact hexpire rfl
  | idle c' =>
    cases hcall
    simp [State.step, State.idleCall, hc, hl] at hst
  | sendStart | sendUnwind | sendEnd | notify | disconnect | link => cases hcall

lemma step (h : s.Hung c i) (hst : s.step e = some s') (he : Undisturbed c i s e) :
    s'.Hung c i := by
  have hcall := h.call_ne hst he
  have hst := Step.of_step hst
  obtain ⟨j, k, n, fl, hl, hi, hp⟩ := h.lock
  obtain ⟨cn, hc, hm⟩ := h.call
  obtain ⟨task, ht, hd⟩ := h.send
  refine ⟨⟨j, k, n, fl, hst.lock_frame hl hcall, hi, hp⟩,
    ⟨cn, (hst.calls_frame hcall).trans hc, hm⟩, ?_⟩
  have hchange := hst.sendTasks_cases i
  generalize s'.sendTasks i = t at hchange
  cases hchange with
  | same ht' => exact ⟨task, ht'.trans ht, hd⟩
  | create => exact ⟨_, rfl, rfl⟩
  | cancel hl' _ _ he' =>
    rw [hl] at hl'
    cases hl'
    obtain rfl | rfl | rfl := he' <;> exact absurd rfl hcall
  | start => exact ⟨_, rfl, rfl⟩
  | unwind => exact ⟨_, rfl, rfl⟩
  | finish => exact absurd rfl (he.2.2 _)

/-- It stays so until its deadline, its send or its caller ends it. -/
theorem of_run {timeoutHint : Option String} {password : Option ℤ} {es : List (Event β)}
    (h : s.Hung c i) (hrun : Run (machine β timeoutHint password) (Undisturbed c i) s es t) :
    t.Hung c i := by
  have hstep : ∀ (u : State β) e (v : State β), u.Hung c i → Undisturbed c i u e →
      u.step e = some v → v.Hung c i := fun u e v hu he hst => hu.step hst he
  exact hrun.invariant hstep h

end State.Hung

/-- A drop that comes too late for the waiter leaves the call hung, as soon as it has noticed its
reply. -/
theorem hung_of_late_drop (hs : s.Consistent) (hr : s.repliedEarly = true) {j : Job}
    {k : Except Exc j.Value → Program (Except Exc β)} {n : ℕ} {fl : Flight} {cn : Cancellation}
    (hl : s.lock = some (.delivering c j k n fl)) (hc : s.calls c = some ⟨.inside, cn⟩)
    (hm : cn.mustCancel = false) (hst : Step s .disconnect s') :
    s'.Hung c fl.id ∨ ∃ t, s'.step (.run c) = some t ∧ t.Hung c fl.id := by
  have hfl := hs.flying _ _ _ _ _ hl
  obtain ⟨frame, state, -, ht⟩ := hfl.task
  cases hst with
  | disconnect =>
    obtain ⟨payload, hf, hd⟩ : ∃ payload, s.futures fl.id = .result payload ∧
        state.isDone = false := by
      cases hf : s.futures fl.id with
      | result payload => exact ⟨payload, rfl, by simpa [State.repliedEarly, hl, hf, ht] using hr⟩
      | pending | exception | cancelled => simp [State.repliedEarly, hl, hf] at hr
    cases hp : fl.point with
    | send => exact .inl ⟨⟨j, k, n, fl, hl, rfl, hp⟩, ⟨cn, hc, hm⟩, ⟨_, ht, hd⟩⟩
    | wait =>
      have hf' : s.failAll.futures fl.id = .result payload := by
        rw [hfl.failAll_futures, hf]
        rfl
      have hdel : Delivery.resume fl.point cn.mustCancel state (s.failAll.futures fl.id) =
          .awaitSend := by
        rw [hf', hp, hm]
        cases state with
        | done o => simp at hd
        | created | running | cancelling | unwinding => rfl
      refine .inr ⟨{ s.failAll with lock := some (.delivering c j k n { fl with point := .send }) },
        ?_, ⟨j, k, n, _, rfl, rfl, rfl⟩, ⟨cn, hc, hm⟩, ⟨_, ht, hd⟩⟩
      have hl' : s.failAll.lock = some (.delivering c j k n fl) := hl
      have hc' : s.failAll.calls c = some ⟨.inside, cn⟩ := hc
      have ht' : s.failAll.sendTasks fl.id = some ⟨c, frame, state⟩ := ht
      simp only [State.step, State.runCall, hc', Option.bind_eq_bind, Option.bind_some, hl',
        if_true, State.runDelivering, ht', hdel]
    | reply =>
      obtain ⟨-, frame', ht'⟩ := hfl.atReply hp
      rw [ht] at ht'
      cases ht'
      cases hd

/-! ### Jobs that a drop ends -/

/-- Whether a job outlasts a drop in the middle of a frame: the reply is in and the send still open,
or the send has returned and there are `more` frames to come. -/
def outlasts (send : TaskState Exc) (future : Future Bytes Exc) (more : Bool) : Bool :=
  match send, future with
  | .done o, _ => decide (o = .returned) && more
  | _, .result _ => true
  | _, _ => false

/-- The job that has the lock would outlast a drop. Its call has not been asked to cancel. -/
def State.outlastsDrop (s : State β) : Bool :=
  match s.lock with
  | some (.delivering c j _ n fl) =>
    (s.calls c).any fun call => !call.cancellation.mustCancel &&
      (s.sendTasks fl.id).any fun task =>
        outlasts task.state (s.futures fl.id) (n + 1 < j.frames.length)
  | _ => false

/-- A drop has failed flight `i`, and its job would go on with another frame if its send returned
now. -/
def State.forgetsDrop (s : State β) (i : ℕ) : Bool :=
  match s.lock with
  | some (.delivering c j _ n fl) =>
    fl.id = i && (s.futures i).done && n + 1 < j.frames.length &&
      (s.calls c).any fun call => !call.cancellation.mustCancel
  | _ => false

/-- No drop is lost: none comes between a reply and the end of its send, or after the send of a
frame that is not the last of its write, and no such send returns between a drop and the resumption
of its call. -/
def NoDropLost (s : State β) : Event β → Prop
  | .disconnect => s.outlastsDrop = false
  | .sendEnd i .returned => s.forgetsDrop i = false
  | _ => True

instance (s : State β) (e : Event β) : Decidable (NoDropLost s e) :=
  match e with
  | .disconnect | .sendEnd _ .returned => inferInstanceAs (Decidable (_ = false))
  | .sendEnd _ (.raised _) | .sendEnd _ .cancelled | .spawn .. | .run _ | .cancel _ | .expire _
  | .idle _ | .sendStart _ | .sendUnwind _ | .notify _ | .link _ => .isTrue trivial

/-- Job `j` of call `c` has ended, or all that is left of it is to collect records. `bs` are the
jobs that ended before. -/
def State.DoneWith (s : State β) (c : ℕ) (j : Job) (bs : List Block) : Prop :=
  (∃ r, s.blocks = ⟨c, j, r⟩ :: bs) ∨
    ∃ count k, j = .history count ∧ s.lock = some (.collecting c count k)

/-- Call `c` can be resumed, and is done with its job then. -/
def State.CanFinish (s : State β) (c : ℕ) (j : Job) : Prop :=
  ∃ s', s.step (.run c) = some s' ∧ s'.DoneWith c j s.blocks

/-- Call `c` delivers frame `n` of job `j`, and is done with the job when it is resumed. -/
structure State.Closing (s : State β) (c : ℕ) (j : Job)
    (k : Except Exc j.Value → Program (Except Exc β)) (n : ℕ) (fl : Flight) (cn : Cancellation)
    (task : SendTask) : Prop where
  lock : s.lock = some (.delivering c j k n fl)
  call : s.calls c = some ⟨.inside, cn⟩
  send : s.sendTasks fl.id = some task
  ready : cn.mustCancel = true ∨ s.futures fl.id ≠ .pending ∧
    outlasts task.state (s.futures fl.id) (n + 1 < j.frames.length) = false

section

variable {j : Job} {k : Except Exc j.Value → Program (Except Exc β)} {n : ℕ} {fl : Flight}
  {cn : Cancellation} {task : SendTask}

lemma State.outlastsDrop_eq (hl : s.lock = some (.delivering c j k n fl))
    (hc : s.calls c = some ⟨.inside, cn⟩) (ht : s.sendTasks fl.id = some task) :
    s.outlastsDrop =
      (!cn.mustCancel && outlasts task.state (s.futures fl.id) (n + 1 < j.frames.length)) := by
  simp [outlastsDrop, hl, hc, ht]

lemma State.forgetsDrop_eq (hl : s.lock = some (.delivering c j k n fl))
    (hc : s.calls c = some ⟨.inside, cn⟩) :
    s.forgetsDrop fl.id =
      ((s.futures fl.id).done && decide (n + 1 < j.frames.length) && !cn.mustCancel) := by
  simp [forgetsDrop, hl, hc]

/-- Before its send is done a job outlasts a drop only once its reply is in. -/
lemma outlasts_of_open {send : TaskState Exc} {future : Future Bytes Exc} {more : Bool}
    (hs : send.isDone = false) : outlasts send future more = true ↔ ∃ p, future = .result p := by
  cases send with
  | done o => cases hs
  | created | running | cancelling | unwinding => cases future <;> simp [outlasts]

namespace State.Closing

lemma ready_of (h : s.Closing c j k n fl cn task) (hm : cn.mustCancel = false) :
    s.futures fl.id ≠ .pending ∧
      outlasts task.state (s.futures fl.id) (n + 1 < j.frames.length) = false := by
  refine h.ready.resolve_left fun hm' => ?_
  cases hm.symm.trans hm'

/-- The call is not blocked. -/
lemma exists_run (h : s.Closing c j k n fl cn task) (hs : s.Consistent) :
    ∃ s', s.step (.run c) = some s' := by
  have hfl := hs.flying _ _ _ _ _ h.lock
  cases hm : cn.mustCancel with
  | true =>
    refine State.exists_run h.call h.lock h.send ?_ fun _ => .inl hm
    simp [Delivery.resume, hm]
  | false =>
    obtain ⟨hdone, hout⟩ := h.ready_of hm
    refine State.exists_run h.call h.lock h.send ?_ fun _ => .inr hdone
    have hresult : task.state.isDone = false → ∀ p, s.futures fl.id ≠ .result p := by
      intro hopen p hp
      rw [(outlasts_of_open hopen).2 ⟨p, hp⟩] at hout
      cases hout
    generalize task.state = send at hresult
    cases hp : fl.point with
    | wait =>
      cases send with
      | done o => cases o <;> simp [Delivery.resume, hm, Delivery.ofWait, Delivery.ofOutcome]
      | created | running | cancelling | unwinding =>
        cases hf : s.futures fl.id with
        | pending => exact absurd hf hdone
        | result p => exact absurd hf (hresult rfl p)
        | exception | cancelled => simp [Delivery.resume, hm, Delivery.ofWait]
    | send =>
      obtain ⟨p, hf⟩ := hfl.atSend hp
      cases send with
      | done o => cases o <;> simp [Delivery.resume, hm, Delivery.ofSend, Delivery.ofOutcome]
      | created | running | cancelling | unwinding => exact absurd hf (hresult rfl p)
    | reply => simp [Delivery.resume, hm]

/-- Then it is done with its job. -/
lemma done_of_run (h : s.Closing c j k n fl cn task) (hs : s.Consistent)
    (hst : Step s (.run c) s') : s'.DoneWith c j s.blocks := by
  have hlast : Delivery.resume fl.point cn.mustCancel task.state (s.futures fl.id) = .delivered →
      ¬ n + 1 < j.frames.length := by
    intro hd hmore
    have hout := (h.ready_of (Delivery.mustCancel_of_delivered hd)).2
    rw [Step.returned_of_delivered hs h.lock h.send hd] at hout
    simp [outlasts, hmore] at hout
  have hready := h.ready_of
  cases hst.delivering rfl h.call h.lock h.send with
  | awaitSend hd =>
    obtain ⟨-, hm, hopen, hresult⟩ := Delivery.result_of_awaitSend hd
    have hout := (hready hm).2
    rw [(outlasts_of_open hopen).2 hresult] at hout
    cases hout
  | awaitReply hd hf => exact absurd hf (hready (Delivery.mustCancel_of_delivered hd)).1
  | reply | failed | raised => exact .inl ⟨_, rfl⟩
  | @next frames k hd =>
    have hg := (s.land (.writeFrames frames) fl.id).goesOn_nextFrame c
      ⟨(fl.scope.exit cn.requests).1, false⟩ frames k (n + 1)
    generalize State.nextFrame _ _ _ _ _ _ = t at hg
    cases hg with
    | launch hj => exact absurd (List.getElem?_eq_some_iff.1 hj).1 (hlast hd)
    | release => exact .inl ⟨_, rfl⟩
  | collect => exact .inr ⟨_, _, rfl, rfl⟩

lemma canFinish (h : s.Closing c j k n fl cn task) (hs : s.Consistent) : s.CanFinish c j := by
  obtain ⟨s', hst⟩ := h.exists_run hs
  exact ⟨s', hst, h.done_of_run hs (.of_step hst)⟩

/-- To cancel the call does not keep it from that. -/
lemma interrupt (h : s.Closing c j k n fl cn task)
    (hp : fl.point = .send → ∃ p, s.futures fl.id = .result p) :
    ∃ cn' task', (s.interrupt c cn fl).Closing c j k n fl cn' task' := by
  have hl : (s.interrupt c cn fl).lock = some (.delivering c j k n fl) :=
    (State.interrupt_lock _ _ _ _).trans h.lock
  unfold State.interrupt at hl ⊢
  cases hpoint : fl.point with
  | wait => exact ⟨_, task, ⟨h.lock, Function.update_self _ _ _, h.send, .inl rfl⟩⟩
  | send =>
    simp only
    split_ifs with hd
    · exact ⟨_, task, ⟨h.lock, Function.update_self _ _ _, h.send, .inl rfl⟩⟩
    · have hm : cn.mustCancel = true := by
        by_contra hm
        have hout := (h.ready_of (Bool.eq_false_of_not_eq_true hm)).2
        rw [h.send, Option.all_some, Bool.not_eq_true] at hd
        rw [(outlasts_of_open hd).2 (hp hpoint)] at hout
        cases hout
      refine ⟨_, { task with state := task.state.cancel },
        ⟨h.lock, Function.update_self _ _ _, ?_, .inl hm⟩⟩
      simp [State.cancelSend, h.send]
  | reply =>
    simp only
    split_ifs with hd
    · exact ⟨_, task, ⟨h.lock, Function.update_self _ _ _, h.send, .inl rfl⟩⟩
    · have hm : cn.mustCancel = true := by
        by_contra hm
        rw [Bool.not_eq_true, Future.done_eq_false_iff] at hd
        exact (h.ready_of (Bool.eq_false_of_not_eq_true hm)).1 hd
      exact ⟨_, task, ⟨h.lock, Function.update_self _ _ _, h.send, .inl hm⟩⟩

/-- The steps of others do not either, if no drop is lost. -/
private lemma step_of_frame (h : s.Closing c j k n fl cn task) (hs : s.Consistent)
    (hst : Step s e s') (hP : NoDropLost s e) (he : e.call ≠ some c) :
    ∃ task', s'.Closing c j k n fl cn task' := by
  have hl := hst.lock_frame h.lock he
  have hc := (hst.calls_frame he).trans h.call
  have hready : ∀ {task' : SendTask}, (cn.mustCancel = false → s.futures fl.id ≠ .pending →
      outlasts task.state (s.futures fl.id) (n + 1 < j.frames.length) = false →
      outlasts task'.state (s.futures fl.id) (n + 1 < j.frames.length) = false) →
      cn.mustCancel = true ∨ s'.futures fl.id ≠ .pending ∧
        outlasts task'.state (s'.futures fl.id) (n + 1 < j.frames.length) = false := by
    intro task' hkeep
    cases hm : cn.mustCancel with
    | true => exact .inl rfl
    | false =>
      obtain ⟨hdone, hout⟩ := h.ready_of hm
      rw [hst.future_done hdone]
      exact .inr ⟨hdone, hkeep hm hdone hout⟩
  have hopen : ∀ {send : TaskState Exc}, task.state.isDone = false → send.isDone = false →
      outlasts task.state (s.futures fl.id) (n + 1 < j.frames.length) = false →
      outlasts send (s.futures fl.id) (n + 1 < j.frames.length) = false := by
    intro send ht hsend hout
    rw [Bool.eq_false_iff, ne_eq, outlasts_of_open hsend, ← outlasts_of_open ht, hout]
    exact Bool.false_ne_true
  have hchange := hst.sendTasks_cases fl.id
  generalize ht : s'.sendTasks fl.id = t at hchange
  cases hchange with
  | same ht' => exact ⟨task, hl, hc, ht.trans (ht'.trans h.send), hready fun _ _ hout => hout⟩
  | create hi =>
    have hnone := (hs.unborn fl.id hi.ge).1
    cases hnone.symm.trans h.send
  | cancel hl' _ _ he' =>
    cases h.lock.symm.trans hl'
    rcases he' with rfl | rfl | rfl <;> exact absurd rfl he
  | start ht' hstate | unwind ht' hstate =>
    cases h.send.symm.trans ht'
    exact ⟨_, hl, hc, ht, hready fun _ _ hout => hopen (by rw [hstate]; rfl) rfl hout⟩
  | @finish _ o ht' hbusy =>
    cases h.send.symm.trans ht'
    refine ⟨_, hl, hc, ht, hready fun hm hdone hout => ?_⟩
    cases o with
    | returned =>
      have hforgets : s.forgetsDrop fl.id = false := hP
      rw [State.forgetsDrop_eq h.lock h.call, hm] at hforgets
      have hd : (s.futures fl.id).done = true := by
        by_contra hd
        exact hdone (Future.done_eq_false_iff.1 (Bool.eq_false_of_not_eq_true hd))
      simpa [hd, outlasts] using hforgets
    | raised | cancelled => rfl

/-- Whatever happens, the call is done with its job when it is resumed, if no drop is lost. -/
lemma step (h : s.Closing c j k n fl cn task) (hs : s.Consistent) (hst : Step s e s')
    (hP : NoDropLost s e) :
    s'.DoneWith c j s.blocks ∨ ∃ fl' cn' task', s'.Closing c j k n fl' cn' task' := by
  have hfl := hs.flying _ _ _ _ _ h.lock
  by_cases he : e.call = some c
  · cases hst.delivering he h.call h.lock h.send with
    | cancel =>
      obtain ⟨cn', task', h'⟩ := h.interrupt hfl.atSend
      exact .inr ⟨_, cn', task', h'⟩
    | expire =>
      have hexpire : ({ s with lock := some (.delivering c j k n fl.expire) } : State β).Closing c j
          k n fl.expire cn task := ⟨rfl, h.call, h.send, h.ready⟩
      obtain ⟨cn', task', h'⟩ := hexpire.interrupt hfl.atSend
      exact .inr ⟨_, cn', task', h'⟩
    | awaitSend | awaitReply | reply | failed | raised | next | collect =>
      exact .inl (h.done_of_run hs hst)
  · obtain ⟨task', h'⟩ := h.step_of_frame hs hst hP he
    exact .inr ⟨_, _, task', h'⟩

/-- A drop brings the call there unless its job outlasts the drop. -/
lemma of_disconnect (hs : s.Consistent) (hl : s.lock = some (.delivering c j k n fl))
    (hP : s.outlastsDrop = false) (hst : Step s .disconnect s') :
    ∃ cn task, s'.Closing c j k n fl cn task := by
  have hfl := hs.flying _ _ _ _ _ hl
  obtain ⟨cn, hc⟩ := hfl.call
  obtain ⟨frame, state, -, ht⟩ := hfl.task
  rw [State.outlastsDrop_eq hl hc ht] at hP
  cases hst with
  | disconnect =>
    refine ⟨cn, _, hl, hc, ht, ?_⟩
    cases hm : cn.mustCancel with
    | true => exact .inl rfl
    | false =>
      rw [hm, Bool.not_false, Bool.true_and] at hP
      rw [hfl.failAll_futures]
      refine .inr ⟨?_, ?_⟩
      · cases s.futures fl.id <;> rintro ⟨⟩
      · cases hf : s.futures fl.id with
        | pending =>
          rw [hf] at hP
          cases state <;> exact hP
        | result | exception | cancelled =>
          rw [hf] at hP
          exact hP

end State.Closing

/-- A job that outlasts a drop is not done when its call is resumed. -/
lemma not_canFinish_of_outlasts (hs : s.Consistent) (hl : s.lock = some (.delivering c j k n fl))
    (hc : s.calls c = some ⟨.inside, cn⟩) (ht : s.sendTasks fl.id = some task)
    (hm : cn.mustCancel = false)
    (hout : outlasts task.state (s.futures fl.id) (n + 1 < j.frames.length) = true) :
    ¬ s.CanFinish c j := by
  rintro ⟨s', hst, hdone⟩
  have hst : Step s (.run c) s' := .of_step hst
  have hheld : ∀ c' j' k' n' fl', s'.lock = some (.delivering c' j' k' n' fl') → False := by
    intro c' j' k' n' fl' hl'
    rcases hdone with ⟨r, hb⟩ | ⟨count, k, -, hcollect⟩
    · exact List.cons_ne_self _ _ (hb.symm.trans (hst.blocks_of_lock hl'))
    · cases hl'.symm.trans hcollect
  have hmore : Delivery.resume fl.point cn.mustCancel task.state (s.futures fl.id) = .delivered →
      n + 1 < j.frames.length := by
    intro hd
    rw [Step.returned_of_delivered hs hl ht hd] at hout
    simpa [outlasts] using hout
  cases hst.delivering rfl hc hl ht with
  | awaitSend | awaitReply => exact hheld _ _ _ _ _ rfl
  | reply hd | failed hd => exact absurd (hmore hd) (by simp [Job.frames])
  | raised hd =>
    rcases Delivery.raised_cases hd with ⟨hm', -⟩ | ⟨o, ho, hraised⟩ | ⟨-, hopen, hf⟩
    · cases hm.symm.trans hm'
    · cases o with
      | returned => cases hraised
      | raised | cancelled => simp [outlasts, ho] at hout
    · obtain ⟨p, hp⟩ := (outlasts_of_open hopen).1 hout
      rcases hf with hf | ⟨hf, -⟩ <;> cases hp.symm.trans hf
  | @next frames k hd =>
    have hg := (s.land (.writeFrames frames) fl.id).goesOn_nextFrame c
      ⟨(fl.scope.exit cn.requests).1, false⟩ frames k (n + 1)
    generalize State.nextFrame _ _ _ _ _ _ = t at hg hheld
    cases hg with
    | launch => exact hheld _ _ _ _ _ rfl
    | release hj => exact absurd (hmore hd) (not_lt.2 (List.getElem?_eq_none_iff.1 hj))
  | @collect count k hd =>
    have hlength := Job.length_frames_history count
    have hlt := hmore hd
    omega

end

/-! ### Drops in a run -/

section

variable {timeoutHint : Option String} {password : Option ℤ} {es : List (Event β)}

/-- Whatever job had a frame in flight at a drop, and still has, can end without its deadline. -/
def FailsFast (timeoutHint : Option String) (password : Option ℤ) (es : List (Event β))
    (s : State β) : Prop :=
  ∀ es₁ es₂ v c j k n fl k' n' fl', es = es₁ ++ .disconnect :: es₂ →
    ClientRun timeoutHint password Always es₁ v → v.lock = some (.delivering c j k n fl) →
    s.lock = some (.delivering c j k' n' fl') → s.blocks = v.blocks → s.CanFinish c j

/-- Who collects records goes on with that until the job ends. -/
private lemma collecting_stays (hst : Step s e s') {count : ℤ}
    {k : Except Exc (List Bytes) → Program (Except Exc β)}
    (hl : s.lock = some (.collecting c count k)) (hb : s'.blocks = s.blocks) :
    s'.lock = some (.collecting c count k) := by
  cases hst with
  | enter _ _ hl' | awaitSend _ hl' | awaitReply _ hl' | reply _ hl' | failed _ hl' | raised _ hl'
  | next _ hl' | collect _ hl' | expire _ hl' => cases hl.symm.trans hl'
  | stop | idle => exact absurd hb (List.cons_ne_self _ _)
  | cancel => exact (State.interrupt_lock _ _ _ _).trans hl
  | _ => exact hl

/-- A job that is done when its call is resumed stays so until it is. -/
private lemma canFinish_of_run (h : Run (machine β timeoutHint password) NoDropLost s es t)
    (hs : s.Consistent) {j : Job} {k : Except Exc j.Value → Program (Except Exc β)} {n : ℕ}
    {fl : Flight} {cn : Cancellation} {task : SendTask} (hclosing : s.Closing c j k n fl cn task)
    {k' : Except Exc j.Value → Program (Except Exc β)} {n' : ℕ} {fl' : Flight}
    (hl : t.lock = some (.delivering c j k' n' fl')) (hb : t.blocks = s.blocks) :
    t.CanFinish c j := by
  let I (u : State β) : Prop := s.blocks.length ≤ u.blocks.length ∧
    (u.blocks.length = s.blocks.length → (∃ k n fl cn task, u.Closing c j k n fl cn task) ∨
      ∃ count k, u.lock = some (.collecting c count k))
  have hstep : ∀ u e v, u.Consistent → I u → NoDropLost u e → Step u e v → I v := by
    rintro u e v hu ⟨hle, hI⟩ hP hst
    rcases hst.blocks_cases hu with hsame | ⟨b, hnew, -⟩
    · rw [← hsame] at hle hI
      refine ⟨hle, fun hlen => ?_⟩
      rcases hI hlen with ⟨k, n, fl, cn, task, hclosing⟩ | ⟨count, k, hcollect⟩
      · rcases hclosing.step hu hst hP with (⟨r, hr⟩ | ⟨count, k, -, hl⟩) | ⟨fl, cn, task, h'⟩
        · exact absurd (hr.symm.trans hsame) (List.cons_ne_self _ _)
        · exact .inr ⟨count, k, hl⟩
        · exact .inl ⟨_, _, fl, cn, task, h'⟩
      · exact .inr ⟨count, k, collecting_stays hst hcollect hsame⟩
    · have hlen := congrArg List.length hnew
      rw [List.length_cons] at hlen
      exact ⟨by omega, fun heq => by omega⟩
  have hI : I t := invariant_of_run hstep h hs ⟨le_rfl, fun _ => .inl ⟨_, _, _, _, _, hclosing⟩⟩
  rcases hI.2 (congrArg List.length hb) with ⟨_, _, _, _, _, h'⟩ | ⟨count, k, hcollect⟩
  · exact h'.canFinish (h.invariant (fun _ _ _ hu _ hst => hu.step (.of_step hst)) hs)
  · cases hl.symm.trans hcollect

/-- A drop that has reached a flight of several frames came while it was in progress. -/
private lemma exists_drop (h : ClientRun timeoutHint password Always es s) {j : Job}
    {k : Except Exc j.Value → Program (Except Exc β)} {n : ℕ} {fl : Flight}
    (hl : s.lock = some (.delivering c j k n fl)) (hf : s.futures fl.id ≠ .pending)
    (hmore : n + 1 < j.frames.length) :
    ∃ es₁ es₂ v fl', es = es₁ ++ .disconnect :: es₂ ∧ ClientRun timeoutHint password Always es₁ v ∧
      v.lock = some (.delivering c j k n fl') ∧ s.blocks = v.blocks := by
  obtain ⟨es₁, e, es₂, v, w, rfl, h₁, hv, hP, hst, hw, h₂⟩ :=
    h.exists_step (fun u => u.futures fl.id ≠ .pending) (by simp [State.init]) hf
  have hvs := State.consistent_of_run h₁
  have hrest : Run (machine β timeoutHint password) Always v (e :: es₂) s := .cons hP hst h₂
  -- what was in flight then is what is in flight now
  have hsame : ∀ c' j' k' n' fl', v.lock = some (.delivering c' j' k' n' fl') → fl'.id = fl.id →
      v.lock = some (.delivering c j k n fl') ∧ s.blocks = v.blocks := by
    intro c' j' k' n' fl' hv' hid
    have hstays := flight_stays hrest hvs hv' hl hid.symm
    cases hl.symm.trans hstays
    exact ⟨hv', blocks_stay hrest hvs hv' hl hid.symm⟩
  have hchange := (Step.of_step hst).futures_cases fl.id
  generalize w.futures fl.id = f at hchange hw
  cases hchange with
  | same hf' => exact absurd (hf'.trans (not_not.1 hv)) hw
  | answer ha hlookup hi =>
    -- a request has one frame only
    obtain ⟨c', frame, k', n', fl', hv', rfl⟩ := hvs.lookup hlookup
    cases hv'.symm.trans (hsame _ _ _ _ _ hv' hi).1
    exact absurd hmore (by simp [Job.frames])
  | drop hf' hi =>
    obtain ⟨c', j', k', n', fl', hv', hid⟩ := hvs.mem_tables hi
    obtain ⟨hv', hb⟩ := hsame _ _ _ _ _ hv' hid.symm
    exact ⟨es₁, es₂, v, fl', rfl, h₁, hv', hb⟩
  | cancel hv' hid hp =>
    obtain ⟨⟨frame, register, rfl⟩, -⟩ := (hvs.flying _ _ _ _ _ hv').atReply hp
    cases hv'.symm.trans (hsame _ _ _ _ _ hv' hid.symm).1
    exact absurd hmore (by simp [Job.frames])

/-- In a run in which no drop is lost, a drop fails what is in flight. -/
lemma failsFast_of_run (h : ClientRun timeoutHint password NoDropLost es s) :
    FailsFast timeoutHint password es s := by
  rintro es₁ es₂ v c j k n fl k' n' fl' rfl hv hl hl' hb
  obtain ⟨v', hv', hrest⟩ := h.of_append
  obtain rfl := hv.unique hv'
  cases hrest with
  | @cons _ w _ _ _ hP hdrop hrun =>
    have hvs := State.consistent_of_run hv
    have hdrop : Step v .disconnect w := .of_step hdrop
    obtain ⟨cn, task, hclosing⟩ := State.Closing.of_disconnect hvs hl hP hdrop
    have hblocks : w.blocks = v.blocks := by
      cases hdrop
      rfl
    exact canFinish_of_run hrun (hvs.step hdrop) hclosing hl' (hb.trans hblocks.symm)

lemma State.exists_of_outlastsDrop (hs : s.Consistent) (h : s.outlastsDrop = true) :
    ∃ c j k n fl cn task, s.lock = some (.delivering c j k n fl) ∧
      s.calls c = some ⟨.inside, cn⟩ ∧ s.sendTasks fl.id = some task ∧ cn.mustCancel = false ∧
      outlasts task.state (s.futures fl.id) (n + 1 < j.frames.length) = true := by
  have hdelivering : ∃ c j k n fl, s.lock = some (.delivering c j k n fl) := by
    unfold outlastsDrop at h
    split at h
    · next hl => exact ⟨_, _, _, _, _, hl⟩
    · cases h
  obtain ⟨c, j, k, n, fl, hl⟩ := hdelivering
  have hfl := hs.flying _ _ _ _ _ hl
  obtain ⟨cn, hc⟩ := hfl.call
  obtain ⟨frame, state, -, ht⟩ := hfl.task
  rw [outlastsDrop_eq hl hc ht, Bool.and_eq_true, Bool.not_eq_true'] at h
  exact ⟨c, j, k, n, fl, cn, _, hl, hc, ht, h.1, h.2⟩

lemma State.exists_of_forgetsDrop (hs : s.Consistent) (h : s.forgetsDrop i = true) :
    ∃ c j k n fl cn, s.lock = some (.delivering c j k n fl) ∧ fl.id = i ∧
      s.calls c = some ⟨.inside, cn⟩ ∧ cn.mustCancel = false ∧ s.futures i ≠ .pending ∧
      n + 1 < j.frames.length := by
  have hdelivering : ∃ c j k n fl, s.lock = some (.delivering c j k n fl) ∧ fl.id = i := by
    unfold forgetsDrop at h
    split at h
    · next hl =>
      simp only [Bool.and_eq_true, decide_eq_true_eq] at h
      exact ⟨_, _, _, _, _, hl, h.1.1.1⟩
    · cases h
  obtain ⟨c, j, k, n, fl, hl, rfl⟩ := hdelivering
  obtain ⟨cn, hc⟩ := (hs.flying _ _ _ _ _ hl).call
  rw [forgetsDrop_eq hl hc] at h
  simp only [Bool.and_eq_true, decide_eq_true_eq, Bool.not_eq_true'] at h
  obtain ⟨⟨hdone, hmore⟩, hm⟩ := h
  refine ⟨c, j, k, n, fl, cn, hl, rfl, hc, hm, fun hp => ?_, hmore⟩
  rw [hp] at hdone
  cases hdone

/-- A step with which a drop is lost leaves a job that goes on after it. -/
lemma noDropLost_of_failsFast (h : ClientRun timeoutHint password Always es s)
    (hst : s.step e = some s')
    (hfast : FailsFast timeoutHint password (es ++ [e]) s') : NoDropLost s e := by
  have hs := State.consistent_of_run h
  have hst : Step s e s' := .of_step hst
  have hs' := hs.step hst
  cases e with
  | disconnect =>
    apply Bool.eq_false_of_not_eq_true
    intro hlost
    obtain ⟨c, j, k, n, fl, cn, task, hl, hc, ht, hm, hout⟩ := State.exists_of_outlastsDrop hs hlost
    have hfail := (hs.flying _ _ _ _ _ hl).failAll_futures
    cases hst with
    | disconnect =>
      have hfinish := hfast es [] s _ _ _ _ _ _ _ _ rfl h hl hl rfl
      refine not_canFinish_of_outlasts hs' hl hc ht hm ?_ hfinish
      rw [hfail]
      cases hf : s.futures fl.id with
      | pending =>
        rw [hf] at hout
        generalize task.state = send at hout ⊢
        cases send with
        | done o => exact hout
        | created | running | cancelling | unwinding => cases hout
      | result | exception | cancelled =>
        rw [hf] at hout
        exact hout
  | sendEnd i o =>
    cases o with
    | returned =>
      apply Bool.eq_false_of_not_eq_true
      intro hlost
      obtain ⟨c, j, k, n, fl, cn, hl, rfl, hc, hm, hf, hmore⟩ :=
        State.exists_of_forgetsDrop hs hlost
      obtain ⟨es₁, es₂, v, fl', rfl, hv, hl', hb⟩ := exists_drop h hl hf hmore
      cases hst with
      | sendEnd ht =>
        refine not_canFinish_of_outlasts hs' hl hc (Function.update_self _ _ _) hm ?_
          (hfast es₁ _ v _ _ _ _ _ _ _ _ (List.append_assoc _ _ _) hv hl' hl hb)
        simp [outlasts, hmore]
    | raised | cancelled => trivial
  | _ => trivial

/-- A drop fails what is in flight in every state of a run, if and only if no drop is lost in it. -/
theorem drop_fails_fast (h : ClientRun timeoutHint password Always es s) :
    (∀ es₁ es₂ v, es = es₁ ++ es₂ → ClientRun timeoutHint password Always es₁ v →
      FailsFast timeoutHint password es₁ v) ↔ ClientRun timeoutHint password NoDropLost es s := by
  constructor
  · intro hfast
    refine h.of_forall fun es₁ e es₂ v hes hv => ?_
    subst hes
    obtain ⟨v', hv', hrest⟩ := h.of_append
    obtain rfl := hv.unique hv'
    cases hrest with
    | @cons _ w _ _ _ _ hst hrest =>
      refine noDropLost_of_failsFast hv hst (hfast (es₁ ++ [e]) es₂ w ?_ ?_)
      · rw [List.append_assoc, List.singleton_append]
      · exact hv.append (.single trivial hst)
  · rintro hrun es₁ es₂ v rfl hv
    obtain ⟨v', hv', -⟩ := hrun.of_append
    obtain rfl := hv.unique hv'
    exact failsFast_of_run hv'

end

/-- The state is read over a transport that keeps its send open. -/
def openSendEvents : List (Event ℕ) :=
  [.link true, .spawn 0 asyncGetStateValue 0, .run 0, .run 0, .run 0, .sendStart 0]

theorem drop_fails_fast_open_send :
    ∃ s : State ℕ, ClientRun none none NoDropLost (openSendEvents ++ [.disconnect]) s ∧
      s.CanFinish 0 (.request ⟨0x67, 0x00, ⟨0, 0, 0, 0⟩⟩ 0x67) := by
  have h : ClientRun none none NoDropLost (openSendEvents ++ [.disconnect]) _ := Run.of_exec rfl
  have hv : ClientRun none none Always openSendEvents _ := Run.of_exec rfl
  exact ⟨_, h, (drop_fails_fast h.always).2 h _ [] _ (List.append_nil _).symm h.always
    _ _ _ _ _ _ _ _ _ _ _ rfl hv rfl rfl rfl⟩

/-- The reply comes first, and the drop while the send is still open. -/
def lateDropEvents : List (Event ℕ) :=
  openSendEvents ++ [.notify [0x10, 0xAC, 0x67, 0x00, 0x00, 0x00, 0x00, 0x02], .run 0]

/-- The network is set, and the link drops when the first frame has been sent. -/
def droppedWriteEvents : List (Event Unit) :=
  [.link true, .spawn 0 (asyncSetWifi "net" "secret" false).run 0, .run 0, .run 0, .run 0,
    .sendStart 0, .sendEnd 0 .returned]

/-- In the first run the call is left to wait for its send, for as long as its send stays open and
its deadline does not come. In the second the write goes on with its next frame. -/
theorem lost_drops_hang :
    (¬ ∀ (es : List (Event ℕ)) (s : State ℕ), ClientRun none none Always es s →
      FailsFast none none es s) ∧
    (∃ s : State ℕ, ClientRun none none Always (lateDropEvents ++ [.disconnect]) s ∧
      ∀ es t, Run (machine ℕ none none) (Undisturbed 0 0) s es t → t.Hung 0 0) ∧
    ¬ ∀ (es : List (Event Unit)) (s : State Unit), ClientRun none none Always es s →
      FailsFast none none es s := by
  refine ⟨?_, ?_, ?_⟩
  · intro h
    have hv : ClientRun none none Always lateDropEvents _ := Run.of_exec rfl
    have hs : ClientRun none none Always (lateDropEvents ++ [.disconnect]) _ := Run.of_exec rfl
    obtain ⟨s', hs', -⟩ := h _ _ hs _ _ _ _ _ _ _ _ _ _ _ rfl hv rfl rfl rfl
    cases hs'
  · have hv : ClientRun none none Always lateDropEvents _ := Run.of_exec rfl
    have hs : ClientRun none none Always (lateDropEvents ++ [.disconnect]) _ := Run.of_exec rfl
    have hlate := hung_of_late_drop (State.consistent_of_run hv) rfl rfl rfl rfl (.of_step rfl)
    refine ⟨_, hs, fun es t ht => ?_⟩
    rcases hlate with hhung | ⟨t', ht', -⟩
    · exact hhung.of_run ht
    · cases ht'
  · intro h
    have hv : ClientRun none none Always droppedWriteEvents _ := Run.of_exec rfl
    have hs : ClientRun none none Always (droppedWriteEvents ++ [.disconnect, .run 0]) _ :=
      Run.of_exec rfl
    obtain ⟨s', hs', -⟩ := h _ _ hs _ _ _ _ _ _ _ _ _ _ _ rfl hv rfl rfl rfl
    cases hs'

end SpinevBle
