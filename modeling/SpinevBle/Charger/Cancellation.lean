import SpinevBle.Charger.Changes

/-!
# Who cancelled a call

A call that delivers a frame can be cancelled by its caller and by its own deadline. Both reach
it the same way, and `asyncio.timeout` tells them apart by counting. The count is right: whatever
was cancelled while a flight lasts was asked for since the flight began, and what exceeds the one
request of an expired deadline was asked for by the caller.
-/

namespace SpinevBle

open Asyncio Interaction Transition

variable {β : Type} {s s' : State β} {e : Event β}

/-- The send was cancelled. -/
def Cancelled : TaskState Exc → Prop
  | .cancelling | .unwinding | .done .cancelled | .done (.raised .cancelledError) => True
  | _ => False

/-- The cancellation requests that a flight accounts for: those on entry and the deadline's. -/
def Flight.due (fl : Flight) : ℕ := fl.scope.cancelling + if fl.scope.expiring then 1 else 0

/-- Everything that was cancelled during a flight was asked for during the flight, and a deadline
that has passed leaves nothing to wait for but a send. -/
structure Attributed (fl : Flight) (cn : Cancellation) (send : TaskState Exc)
    (future : Future Bytes Exc) : Prop where
  due : fl.due ≤ cn.requests
  mustCancel : cn.mustCancel = true → fl.scope.cancelling < cn.requests
  ofSend : Cancelled send → fl.scope.cancelling < cn.requests
  ofFuture : future = .cancelled → fl.scope.cancelling < cn.requests
  atWait : fl.scope.expiring = true → fl.point = .wait → cn.mustCancel = true
  atReply : fl.scope.expiring = true → fl.point = .reply → cn.mustCancel = true ∨ future ≠ .pending

/-- `Attributed`, for the flight in progress. -/
def State.Attributes (s : State β) : Prop :=
  ∀ c j k n fl cn task, s.lock = some (.delivering c j k n fl) →
    s.calls c = some ⟨.inside, cn⟩ → s.sendTasks fl.id = some task →
    Attributed fl cn task.state (s.futures fl.id)

/-- The send that ends with `CancelledError`. -/
def Event.cancelledSend : Event β → Option ℕ
  | .sendEnd i .cancelled => some i
  | _ => none

/-- A send that the client did not cancel ends by returning or by raising an `Exception`. -/
def SendsEnd (s : State β) (e : Event β) : Prop :=
  ∀ i ∈ e.cancelledSend, (s.sendTasks i).map SendTask.state ≠ some .running

instance (s : State β) (e : Event β) : Decidable (SendsEnd s e) :=
  inferInstanceAs (Decidable (∀ i ∈ e.cancelledSend, _))

namespace Attributed

variable {fl : Flight} {cn : Cancellation} {send : TaskState Exc} {future : Future Bytes Exc}

lemma launch {i : ℕ} (hm : cn.mustCancel = false) :
    Attributed ⟨i, .enter cn.requests, .wait⟩ cn .created .pending where
  due := by simp [Flight.due, Timeout.enter]
  mustCancel := by simp [hm]
  ofSend h := h.elim
  ofFuture h := by cases h
  atWait h := by cases h
  atReply h := by cases h

/-- `Task.cancel()` on the call, by whoever: it reaches what the call waits for. -/
lemma request (h : Attributed fl cn send future) {cn' : Cancellation} {send' : TaskState Exc}
    {future' : Future Bytes Exc} (hr : cn'.requests = cn.requests + 1)
    (hw : fl.point = .wait → cn'.mustCancel = true)
    (hp : fl.point = .reply → cn'.mustCancel = true ∨ future' ≠ .pending) :
    Attributed fl cn' send' future' where
  due := by have := h.due; omega
  mustCancel _ := by have := h.due; simp only [Flight.due] at this; omega
  ofSend _ := by have := h.due; simp only [Flight.due] at this; omega
  ofFuture _ := by have := h.due; simp only [Flight.due] at this; omega
  atWait _ := hw
  atReply _ := hp

/-- The deadline passes: one more request, and one more that is due. -/
lemma expire (h : Attributed fl cn send future) (hx : fl.scope.expiring = false)
    {cn' : Cancellation} {send' : TaskState Exc} {future' : Future Bytes Exc}
    (hr : cn'.requests = cn.requests + 1) (hw : fl.point = .wait → cn'.mustCancel = true)
    (hp : fl.point = .reply → cn'.mustCancel = true ∨ future' ≠ .pending) :
    Attributed fl.expire cn' send' future' := by
  have hd := h.due
  simp only [Flight.due, hx, Bool.false_eq_true, if_false, add_zero] at hd
  exact ⟨by simp [Flight.due, Flight.expire]; omega, fun _ => by simp [Flight.expire]; omega,
    fun _ => by simp [Flight.expire]; omega, fun _ => by simp [Flight.expire]; omega,
    fun _ => hw, fun _ => hp⟩

/-- What has happened to the send and to the future may change otherwise. -/
lemma congr (h : Attributed fl cn send future) {send' : TaskState Exc}
    {future' : Future Bytes Exc} (hs : Cancelled send' → Cancelled send)
    (hf : future' = .cancelled → future = .cancelled)
    (hp : future' = .pending → future = .pending) :
    Attributed fl cn send' future' where
  due := h.due
  mustCancel := h.mustCancel
  ofSend hc := h.ofSend (hs hc)
  ofFuture hc := h.ofFuture (hf hc)
  atWait := h.atWait
  atReply hx hr := (h.atReply hx hr).imp_right fun hne hp' => hne (hp hp')

end Attributed

/-- What a call waits for has heard of its cancellation. -/
lemma State.interrupt_cases (s : State β) (c : ℕ) (cn : Cancellation) (fl : Flight) :
    ∃ cn', (s.interrupt c cn fl).calls = Function.update s.calls c (some ⟨.inside, cn'⟩) ∧
      cn'.requests = cn.requests + 1 ∧ (fl.point = .wait → cn'.mustCancel = true) ∧
      (fl.point = .reply →
        cn'.mustCancel = true ∨ (s.interrupt c cn fl).futures fl.id ≠ .pending) := by
  unfold State.interrupt
  split
  · next hp => split_ifs <;> exact ⟨_, rfl, rfl, by simp [hp], by simp [hp]⟩
  · next hp =>
    split_ifs with hd
    · exact ⟨_, rfl, rfl, by simp, by simp⟩
    · rw [Bool.not_eq_true, Future.done_eq_false_iff] at hd
      exact ⟨_, rfl, rfl, by simp [hp], by simp [hd, Future.cancel]⟩
  · exact ⟨_, rfl, rfl, by simp, by simp⟩

namespace State.Attributes

lemma of_not_delivering (h : ∀ c j k n fl, s.lock ≠ some (.delivering c j k n fl)) :
    s.Attributes :=
  fun c j k n fl _ _ hl => absurd hl (h c j k n fl)

lemma of_eq (h : s.Attributes) (hl : s'.lock = s.lock) (hc : s'.calls = s.calls)
    (ht : s'.sendTasks = s.sendTasks) (hf : s'.futures = s.futures) : s'.Attributes := by
  intro c j k n fl cn task hl' hc' ht'
  rw [hf]
  exact h c j k n fl cn task (hl ▸ hl') (hc ▸ hc') (ht ▸ ht')

/-- A call outside the lock goes on. -/
lemma setPhase (h : s.Attributes) {c : ℕ} {phase : Phase β} {cn : Cancellation}
    (hp : phase ≠ .inside) : (s.setPhase c phase cn).Attributes := by
  intro c' j k n fl cn' task hl hc' ht
  by_cases hcc : c' = c
  · subst hcc
    simp [hp] at hc'
  · exact h c' j k n fl cn' task hl (by simpa [hcc] using hc') ht

lemma launch {c n : ℕ} {cn : Cancellation} {j : Job}
    {k : Except Exc j.Value → Program (Except Exc β)} {frame : Frame}
    (hu : s.futures s.nextId = .pending) (hm : cn.mustCancel = false) :
    (s.launch c cn j k n frame).Attributes := by
  rintro _ _ _ _ _ cn' task ⟨rfl⟩ hc ht
  simp only [State.launch, Function.update_self, Option.some.injEq, Call.mk.injEq,
    true_and] at hc ht
  subst hc ht
  simpa [State.launch, hu] using Attributed.launch hm

lemma goesOn {c n : ℕ} {cn : Cancellation} {j : Job}
    {k : Except Exc j.Value → Program (Except Exc β)} (hu : s.futures s.nextId = .pending)
    (hm : cn.mustCancel = false) (hg : s.GoesOn c cn j k n s') : s'.Attributes := by
  cases hg with
  | launch => exact launch hu hm
  | release => exact of_not_delivering (by rintro _ _ _ _ _ ⟨⟩)

/-- A send takes a step that does not cancel it. -/
lemma setSend (h : s.Attributes) {i : ℕ} {task : SendTask} {state : TaskState Exc}
    (ht : s.sendTasks i = some task) (hc : Cancelled state → Cancelled task.state) :
    (s.setSend i task state).Attributes := by
  intro c j k n fl cn task' hl hc' ht'
  by_cases hi : fl.id = i
  · subst hi
    simp only [State.setSend, Function.update_self, Option.some.injEq] at ht'
    subst ht'
    exact (h c j k n fl cn task hl hc' ht).congr hc id id
  · exact h c j k n fl cn task' hl hc' (by simpa [State.setSend, hi] using ht')

/-- A deadline that passed before the frame was delivered would have ended the flight. -/
lemma not_expiring (h : s.Attributes) (hs : s.Consistent) {c n : ℕ} {j : Job}
    {k : Except Exc j.Value → Program (Except Exc β)} {fl : Flight} {cn : Cancellation}
    {task : SendTask} (hc : s.calls c = some ⟨.inside, cn⟩)
    (hl : s.lock = some (.delivering c j k n fl)) (ht : s.sendTasks fl.id = some task)
    (hd : Delivery.resume fl.point cn.mustCancel task.state (s.futures fl.id) = .delivered)
    (hf : s.futures fl.id = .pending) (hp : fl.point ≠ .reply) : fl.scope.expiring ≠ true := by
  intro hx
  have hm := Delivery.mustCancel_of_delivered hd
  cases hpt : fl.point with
  | wait => simp [(h _ _ _ _ _ _ _ hl hc ht).atWait hx hpt] at hm
  | send =>
    obtain ⟨payload, hr⟩ := (hs.flying _ _ _ _ _ hl).atSend hpt
    simp [hf] at hr
  | reply => exact hp hpt

/-- One step keeps the account. -/
lemma step (h : s.Attributes) (hs : s.Consistent) (hst : Step s e s') (hP : SendsEnd s e) :
    s'.Attributes := by
  have hu := (hs.unborn s.nextId le_rfl).2
  cases hst with
  | spawn | begin | skip | finish | getPassword | refuse | queue | giveUp | cancelFresh
  | cancelQueued => exact h.setPhase (by simp)
  | @setPassword c password k cn hc =>
    have h' : (s.setPhase c (.running (k ())) cn).Attributes := h.setPhase (by simp)
    exact h'.of_eq rfl rfl rfl rfl
  | link | wake | record => exact h.of_eq rfl rfl rfl rfl
  | ignore => exact h
  | enter hc hm hl => exact goesOn hu hm (s.goesOn_enter _ _ _ _)
  | next hc hl ht hd =>
    have hn := (hs.land hl).unborn _ le_rfl
    exact goesOn hn.2 rfl (State.goesOn_nextFrame _ _ _ _ _ _)
  | reply | failed | raised | collect | stop | idle =>
    exact of_not_delivering (by rintro _ _ _ _ _ ⟨⟩)
  | cancelCollecting hc hl =>
    exact of_not_delivering (by rintro _ _ _ _ _ hl'; simp [hl] at hl')
  | awaitSend hc hl ht hd =>
    rintro _ _ _ _ _ cn' task' ⟨rfl⟩ hc' ht'
    have ha := h _ _ _ _ _ cn' task' hl hc' ht'
    exact ⟨ha.due, ha.mustCancel, ha.ofSend, ha.ofFuture, by simp, by simp⟩
  | awaitReply hc hl ht hd hf hp =>
    rintro _ _ _ _ _ cn' task' ⟨rfl⟩ hc' ht'
    have ha := h _ _ _ _ _ cn' task' hl hc' ht'
    rw [hc] at hc'
    cases hc'
    have hx := h.not_expiring hs hc hl ht hd hf hp
    exact ⟨ha.due, ha.mustCancel, ha.ofSend, ha.ofFuture, by simp, fun hx' _ => absurd hx' hx⟩
  | @cancel c j k n fl cn hc hl =>
    obtain ⟨cn', hcalls, hr, hw, hp⟩ := s.interrupt_cases c cn fl
    obtain ⟨_, state, -, ht⟩ := (hs.flying _ _ _ _ _ hl).task
    intro c' j' k' n' fl' cn'' task hl' hc' ht'
    rw [interrupt_lock, hl] at hl'
    cases hl'
    rw [hcalls, Function.update_self] at hc'
    cases hc'
    exact (h _ _ _ _ _ _ _ hl hc ht).request hr hw hp
  | @expire c j k n fl phase cn hc hl hx =>
    obtain ⟨cn', hcalls, hr, hw, hp⟩ := State.interrupt_cases
      { s with lock := some (.delivering c j k n fl.expire) } c cn fl.expire
    obtain ⟨_, state, -, ht⟩ := (hs.flying _ _ _ _ _ hl).task
    obtain ⟨cn₀, hc₀⟩ := (hs.flying _ _ _ _ _ hl).call
    rw [hc] at hc₀
    cases hc₀
    intro c' j' k' n' fl' cn'' task hl' hc' ht'
    rw [interrupt_lock] at hl'
    cases hl'
    rw [hcalls, Function.update_self] at hc'
    cases hc'
    exact (h _ _ _ _ _ _ _ hl hc ht).expire hx hr hw hp
  | @sendStart i task ht hst =>
    have h' : (s.setSend i task .running).Attributes := h.setSend ht (by simp [Cancelled])
    exact h'.of_eq rfl rfl rfl rfl
  | sendUnwind ht hst => exact h.setSend ht (by simp [Cancelled, hst])
  | @sendEnd i task o ht hst ho =>
    refine h.setSend ht fun hc => ?_
    have hr : o = .cancelled → task.state ≠ .running := fun ho => by
      simpa [ht] using hP i (ho ▸ rfl)
    cases o with
    | returned => exact hc.elim
    | raised x => cases x <;> simp_all [Cancelled]
    | cancelled => cases hts : task.state <;> simp_all [Cancelled, TaskState.busy]
  | @answer payload register w ha hw =>
    intro c j k n fl cn task hl hc ht
    refine (h c j k n fl cn task hl hc ht).congr id ?_ ?_ <;>
      by_cases hi : fl.id = w.future <;> cases hf : s.futures fl.id <;>
        simp_all [State.answerWaiter, Future.resolve]
  | disconnect hp =>
    intro c j k n fl cn task hl hc ht
    rw [(hs.flying _ _ _ _ _ hl).failAll_futures]
    refine (h c j k n fl cn task hl hc ht).congr id ?_ ?_ <;>
      cases hf : s.futures fl.id <;> simp [Future.fail]

end State.Attributes

/-- The account of every run in which sends end as they should. -/
theorem attributes_of_run {timeoutHint : Option String} {password : Option ℤ}
    {es : List (Event β)} (h : ClientRun timeoutHint password SendsEnd es s) : s.Attributes := by
  have hstep : ∀ (u : State β) e v, u.Consistent → u.Attributes → SendsEnd u e → Step u e v →
      v.Attributes := fun u e v hs hu hP hst => hu.step hs hst hP
  exact invariant_of_run hstep h (.init _ _) (.of_not_delivering (by simp [State.init]))

/-! ### The caller's own requests -/

/-- Call `c` delivers frame `n` of its job as flight `i`, and its caller has cancelled it since the
flight began. -/
def State.Asked (s : State β) (c : ℕ) (j : Job) (k : Except Exc j.Value → Program (Except Exc β))
    (n i : ℕ) : Prop :=
  ∃ fl cn, s.lock = some (.delivering c j k n fl) ∧ fl.id = i ∧
    s.calls c = some ⟨.inside, cn⟩ ∧ fl.due < cn.requests

namespace State.Asked

variable {c n i : ℕ} {j : Job} {k : Except Exc j.Value → Program (Except Exc β)}

private lemma not_launch {c' n' : ℕ} {cn : Cancellation} {j' : Job}
    {k' : Except Exc j'.Value → Program (Except Exc β)} {frame : Frame} :
    ¬ (s.launch c' cn j' k' n' frame).Asked c j k n i := by
  rintro ⟨fl, cn', ⟨rfl⟩, -, hc, hd⟩
  simp only [State.launch, Function.update_self, Option.some.injEq, Call.mk.injEq, true_and] at hc
  subst hc
  simp [Flight.due, Timeout.enter] at hd

private lemma not_of_lock (hl : ∀ c j k n fl, s.lock ≠ some (.delivering c j k n fl)) :
    ¬ s.Asked c j k n i :=
  fun ⟨_, _, hl', _⟩ => hl _ _ _ _ _ hl'

private lemma not_goesOn {c' n' : ℕ} {cn : Cancellation} {j' : Job}
    {k' : Except Exc j'.Value → Program (Except Exc β)} (hg : s.GoesOn c' cn j' k' n' s') :
    ¬ s'.Asked c j k n i := by
  cases hg with
  | launch => exact not_launch
  | release => exact not_of_lock (by rintro _ _ _ _ _ ⟨⟩)

private lemma of_setPhase {c' : ℕ} {phase : Phase β} {cn : Cancellation} (hp : phase ≠ .inside)
    (h : (s.setPhase c' phase cn).Asked c j k n i) : s.Asked c j k n i := by
  obtain ⟨fl, cn', hl, hi, hc, hd⟩ := h
  refine ⟨fl, cn', hl, hi, ?_, hd⟩
  by_cases hcc : c = c'
  · subst hcc
    simp [hp] at hc
  · simpa [hcc] using hc

/-- Only the caller adds to what a flight has to account for. -/
lemma of_step (h : s'.Asked c j k n i) (hs : s.Consistent) (hst : Step s e s') :
    s.Asked c j k n i ∨
      e = .cancel c ∧ ∃ fl, s.lock = some (.delivering c j k n fl) ∧ fl.id = i := by
  cases hst with
  | spawn | begin | skip | finish | getPassword | refuse | queue | giveUp | cancelFresh
  | cancelQueued => exact .inl (of_setPhase (by simp) h)
  | @setPassword c' password k' cn hc =>
    have hp : Phase.running (k' ()) ≠ .inside := by simp
    exact .inl (of_setPhase hp h)
  | enter hc hm hl => exact absurd h (not_goesOn (s.goesOn_enter _ _ _ _))
  | next hc hl ht hd => exact absurd h (not_goesOn (State.goesOn_nextFrame _ _ _ _ _ _))
  | reply | failed | raised | collect | stop | idle =>
    exact absurd h (not_of_lock (by rintro _ _ _ _ _ ⟨⟩))
  | cancelCollecting hc hl =>
    exact absurd h (not_of_lock (by rintro _ _ _ _ _ hl'; simp [hl] at hl'))
  | awaitSend hc hl ht hd =>
    obtain ⟨fl, cn', ⟨rfl⟩, hi, hc', hd'⟩ := h
    exact .inl ⟨_, cn', hl, hi, hc', hd'⟩
  | awaitReply hc hl ht hd hf hp =>
    obtain ⟨fl, cn', ⟨rfl⟩, hi, hc', hd'⟩ := h
    exact .inl ⟨_, cn', hl, hi, hc', hd'⟩
  | cancel hc hl =>
    obtain ⟨fl, cn', hl', hi, -⟩ := h
    rw [interrupt_lock, hl] at hl'
    cases hl'
    exact .inr ⟨rfl, _, hl, hi⟩
  | @expire c' j' k' n' fl' phase cn hc hl hx =>
    obtain ⟨fl, cn', hl', hi, hc', hd⟩ := h
    obtain ⟨cn'', hcalls, hr, -, -⟩ := State.interrupt_cases
      { s with lock := some (.delivering c' j' k' n' fl'.expire) } c' cn fl'.expire
    rw [interrupt_lock] at hl'
    cases hl'
    rw [hcalls, Function.update_self] at hc'
    cases hc'
    obtain ⟨cn₀, hc₀⟩ := (hs.flying _ _ _ _ _ hl).call
    rw [hc] at hc₀
    cases hc₀
    refine .inl ⟨fl', cn, hl, hi, hc, ?_⟩
    simp only [Flight.due, Flight.expire, if_true] at hd
    simp only [Flight.due, hx, Bool.false_eq_true, if_false]
    omega
  | _ =>
    obtain ⟨fl, cn', hl, hi, hc, hd⟩ := h
    exact .inl ⟨fl, cn', hl, hi, hc, hd⟩

end State.Asked

end SpinevBle
