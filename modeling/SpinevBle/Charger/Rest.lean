import Mathlib.Algebra.Order.BigOperators.Group.Finset
import SpinevBle.Charger.Lifecycle
import SpinevBle.Charger.Sends
import SpinevBle.Lib.Inevitable

/-!
# The client comes to rest

Left to itself, with a charger that says nothing, the client does not hang: its calls, its deadlines
and its sends, however these end, take it to a state in which every call has finished, the lock is
free and every send is done, in whatever order they run. It does not need the transport for that: no
send has to end that the client has not cancelled.
-/

namespace SpinevBle

open Asyncio Interaction Transition

variable {β : Type} {s s' : State β} {e : Event β} {c : ℕ}

/-! ### The steps that need nobody else -/

/-- Steps of calls, deadlines and sends, whatever becomes of the frames. -/
def Event.Own : Event β → Prop
  | .run _ | .expire _ | .idle _ | .sendStart _ | .sendUnwind _ | .sendEnd _ _ => True
  | _ => False

/-- No send ends that the client has not cancelled. -/
def State.Unaided (s : State β) : Event β → Prop
  | .sendEnd i _ => ∃ task, s.sendTasks i = some task ∧ task.state ≠ .running
  | _ => True

/-- Every call has finished and every send has ended, and nothing is left of them. -/
structure State.AtRest (s : State β) : Prop where
  finished : ∀ c call, s.calls c = some call → ∃ r, call.phase = .finished r
  ended : ∀ i task, s.sendTasks i = some task → task.state.isDone = true
  lock : s.lock = none
  waiters : s.waiters = ∅
  sends : s.sends = ∅

/-! ### A deadline reaches what a call waits for -/

/-- What a flight waits for has come, or is on its way without the charger. -/
def Reached (fl : Flight) (cn : Cancellation) (send : TaskState Exc) (future : Future Bytes Exc) :
    Prop :=
  cn.mustCancel = true ∨ (fl.point = .send ∧ send ≠ .created ∧ send ≠ .running) ∨
    (fl.point = .reply ∧ future ≠ .pending)

/-- A deadline that has passed has reached what the flight waits for. -/
def State.Prompt (s : State β) : Prop :=
  ∀ c j k n fl cn task, s.lock = some (.delivering c j k n fl) →
    s.calls c = some ⟨.inside, cn⟩ → s.sendTasks fl.id = some task →
    fl.scope.expiring = true → Reached fl cn task.state (s.futures fl.id)

/-- Whoever cancels the call, what it waits for is reached. -/
lemma reached_of_interrupt {fl : Flight} {cn cn' : Cancellation} {task' : SendTask}
    (hc : (s.interrupt c cn fl).calls c = some ⟨.inside, cn'⟩)
    (ht : (s.interrupt c cn fl).sendTasks fl.id = some task') :
    Reached fl cn' task'.state ((s.interrupt c cn fl).futures fl.id) := by
  unfold State.interrupt at hc ht ⊢
  cases hp : fl.point with
  | wait =>
    simp only [hp, State.setPhase_calls, Function.update_self, Option.some.injEq, Call.mk.injEq,
      true_and] at hc
    subst hc
    exact .inl rfl
  | send =>
    simp only [hp] at hc ht ⊢
    split_ifs at hc ht ⊢ with hd
    · simp only [State.setPhase_calls, Function.update_self, Option.some.injEq, Call.mk.injEq,
        true_and] at hc
      subst hc
      exact .inl rfl
    · simp only [State.setPhase_sendTasks, State.cancelSend, Function.update_self,
        Option.map_eq_some_iff] at ht
      obtain ⟨task, -, rfl⟩ := ht
      refine .inr (.inl ⟨hp, ?_, ?_⟩) <;> cases task.state <;> simp [TaskState.cancel]
  | reply =>
    simp only [hp] at hc ht ⊢
    split_ifs at hc ht ⊢ with hd
    · simp only [State.setPhase_calls, Function.update_self, Option.some.injEq, Call.mk.injEq,
        true_and] at hc
      subst hc
      exact .inl rfl
    · refine .inr (.inr ⟨hp, ?_⟩)
      rw [Bool.not_eq_true, Future.done_eq_false_iff] at hd
      simp [hd, Future.cancel]

namespace State.Prompt

lemma of_not_delivering (h : ∀ c j k n fl, s.lock ≠ some (.delivering c j k n fl)) : s.Prompt :=
  fun c j k n fl _ _ hl => absurd hl (h c j k n fl)

lemma of_eq (h : s.Prompt) (hl : s'.lock = s.lock) (hc : s'.calls = s.calls)
    (ht : s'.sendTasks = s.sendTasks) (hf : s'.futures = s.futures) : s'.Prompt := by
  intro c j k n fl cn task hl' hc' ht'
  rw [hf]
  exact h c j k n fl cn task (hl ▸ hl') (hc ▸ hc') (ht ▸ ht')

/-- A call outside the lock goes on. -/
lemma setPhase (h : s.Prompt) {phase : Phase β} {cn : Cancellation} (hp : phase ≠ .inside) :
    (s.setPhase c phase cn).Prompt := by
  intro c' j k n fl cn' task hl hc' ht
  by_cases hcc : c' = c
  · subst hcc
    simp [hp] at hc'
  · exact h c' j k n fl cn' task hl (by simpa [hcc] using hc') ht

/-- The deadline of a new flight has not passed. -/
lemma goesOn {n : ℕ} {cn : Cancellation} {j : Job}
    {k : Except Exc j.Value → Program (Except Exc β)} (hg : s.GoesOn c cn j k n s') :
    s'.Prompt := by
  cases hg with
  | launch =>
    rintro _ _ _ _ _ cn' task ⟨rfl⟩ - - hx
    cases hx
  | release => exact of_not_delivering (by rintro _ _ _ _ _ ⟨⟩)

/-- A send that takes a step does not start afresh. -/
lemma setSend (h : s.Prompt) {i : ℕ} {task : SendTask} {state : TaskState Exc}
    (ht : s.sendTasks i = some task)
    (hs : task.state ≠ .created → task.state ≠ .running → state ≠ .created ∧ state ≠ .running) :
    (s.setSend i task state).Prompt := by
  intro c j k n fl cn task' hl hc ht' hx
  by_cases hi : fl.id = i
  · subst hi
    simp only [State.setSend, Function.update_self, Option.some.injEq] at ht'
    subst ht'
    rcases h c j k n fl cn task hl hc ht hx with hm | ⟨hp, h₁, h₂⟩ | hr
    · exact .inl hm
    · exact .inr (.inl ⟨hp, hs h₁ h₂⟩)
    · exact .inr (.inr hr)
  · exact h c j k n fl cn task' hl hc (by simpa [State.setSend, hi] using ht') hx

/-- Futures that are done stay done. -/
lemma of_futures (h : s.Prompt) (hl : s'.lock = s.lock) (hc : s'.calls = s.calls)
    (ht : s'.sendTasks = s.sendTasks)
    (hf : ∀ i, s.futures i ≠ .pending → s'.futures i ≠ .pending) : s'.Prompt := by
  intro c j k n fl cn task hl' hc' ht' hx
  rcases h c j k n fl cn task (hl ▸ hl') (hc ▸ hc') (ht ▸ ht') hx with hm | hw | ⟨hp, hr⟩
  · exact .inl hm
  · exact .inr (.inl hw)
  · exact .inr (.inr ⟨hp, hf _ hr⟩)

/-- One step keeps deadlines prompt. -/
lemma step (h : s.Prompt) (hs : s.Consistent) (hst : Step s e s') : s'.Prompt := by
  have hfut := fun i (hd : s.futures i ≠ .pending) => hst.future_done hd
  cases hst with
  | spawn | begin | skip | finish | getPassword | refuse | queue | giveUp | cancelFresh
  | cancelQueued => exact h.setPhase (by simp)
  | @setPassword c password k cn hc =>
    have h' : (s.setPhase c (.running (k ())) cn).Prompt := h.setPhase (by simp)
    exact h'.of_eq rfl rfl rfl rfl
  | link | wake | record => exact h.of_eq rfl rfl rfl rfl
  | ignore => exact h
  | enter hc hm hl => exact goesOn (s.goesOn_enter _ _ _ _)
  | next hc hl ht hd => exact goesOn (State.goesOn_nextFrame _ _ _ _ _ _)
  | reply | failed | raised | collect | stop | idle =>
    exact of_not_delivering (by rintro _ _ _ _ _ ⟨⟩)
  | cancelCollecting hc hl =>
    exact of_not_delivering (by rintro _ _ _ _ _ hl'; simp [hl] at hl')
  | awaitSend hc hl ht hd =>
    rintro _ _ _ _ _ cn' task' ⟨rfl⟩ hc' ht' hx
    obtain ⟨hp, hm, -⟩ := Delivery.result_of_awaitSend hd
    have hr := h _ _ _ _ _ _ _ hl hc ht hx
    simp [Reached, hp, hm] at hr
  | awaitReply hc hl ht hd hf hp =>
    rintro _ _ _ _ _ cn' task' ⟨rfl⟩ hc' ht' hx
    have hm := Delivery.mustCancel_of_delivered hd
    rcases h _ _ _ _ _ _ _ hl hc ht hx with hm' | ⟨hpt, -⟩ | ⟨hpt, -⟩
    · simp [hm] at hm'
    · obtain ⟨payload, hr⟩ := (hs.flying _ _ _ _ _ hl).atSend hpt
      simp [hf] at hr
    · exact absurd hpt hp
  | cancel hc hl =>
    intro c' j' k' n' fl' cn'' task hl' hc' ht' _
    rw [interrupt_lock, hl] at hl'
    cases hl'
    exact reached_of_interrupt hc' ht'
  | expire hc hl hx =>
    intro c' j' k' n' fl' cn'' task hl' hc' ht' _
    rw [interrupt_lock] at hl'
    cases hl'
    exact reached_of_interrupt hc' ht'
  | @sendStart i task ht hst =>
    have h' : (s.setSend i task .running).Prompt := h.setSend ht fun hc => absurd hst hc
    exact h'.of_eq rfl rfl rfl rfl
  | sendUnwind ht hst => exact h.setSend ht (by simp)
  | sendEnd ht hst ho => exact h.setSend ht (by simp)
  | answer => exact h.of_futures rfl rfl rfl fun i hd => hfut i hd ▸ hd
  | disconnect => exact h.of_futures rfl rfl rfl fun i hd => hfut i hd ▸ hd

end State.Prompt

/-! ### How far the calls are -/

/-- More than everything that a call does under the lock for this job. -/
def Job.span (j : Job) : ℕ := 8 * j.frames.length + 6

def firstSpan : Program (Except Exc β) → ℕ
  | .op (.locked j) _ => j.span
  | _ => 0

def Point.rank : Point → ℕ
  | .wait => 2
  | .send => 1
  | .reply => 0

/-- What a flight has still to go through. -/
def Flight.rank (fl : Flight) : ℕ := fl.point.rank + if fl.scope.expiring then 0 else 3

def Holder.position : Holder β → Bool → Prog.Position Op Op.Result (Except Exc β)
  | .delivering _ j k n fl, _ => some (.op (.locked j) k, 8 * (j.frames.length - n) + fl.rank)
  | .collecting _ count k, bulkEvent => some (.op (.locked (.history count)) k, bulkEvent.toNat)

def Phase.position (held : Prog.Position Op Op.Result (Except Exc β)) :
    Phase β → Prog.Position Op Op.Result (Except Exc β)
  | .fresh p => some (p, firstSpan p + 2)
  | .running p => some (p, firstSpan p + 1)
  | .queued j k => some (.op (.locked j) k, j.span)
  | .inside => held
  | .finished _ => none

namespace State

def held (s : State β) : Prog.Position Op Op.Result (Except Exc β) :=
  s.lock.bind fun hd => hd.position s.bulkEvent

/-- How far call `c` is. -/
def position (s : State β) (c : ℕ) : Prog.Position Op Op.Result (Except Exc β) :=
  (s.calls c).bind fun call => call.phase.position s.held

lemma position_eq {phase : Phase β} {cn : Cancellation} (hc : s.calls c = some ⟨phase, cn⟩) :
    s.position c = phase.position s.held := by
  simp [position, hc]

lemma position_delivering {j : Job} {k : Except Exc j.Value → Program (Except Exc β)} {n : ℕ}
    {fl : Flight} {cn : Cancellation} (hc : s.calls c = some ⟨.inside, cn⟩)
    (hl : s.lock = some (.delivering c j k n fl)) :
    s.position c = some (.op (.locked j) k, 8 * (j.frames.length - n) + fl.rank) := by
  simp [position_eq hc, Phase.position, held, hl, Holder.position]

lemma position_collecting {count : ℤ} {k : Except Exc (List Bytes) → Program (Except Exc β)}
    {cn : Cancellation} (hc : s.calls c = some ⟨.inside, cn⟩)
    (hl : s.lock = some (.collecting c count k)) :
    s.position c = some (.op (.locked (.history count)) k, s.bulkEvent.toNat) := by
  simp [position_eq hc, Phase.position, held, hl, Holder.position]

lemma position_launch (s : State β) (c : ℕ) (cn : Cancellation) (j : Job)
    (k : Except Exc j.Value → Program (Except Exc β)) (n : ℕ) (frame : Frame) :
    (s.launch c cn j k n frame).position c =
      some (.op (.locked j) k, 8 * (j.frames.length - n) + 5) := by
  simp [position, launch, Phase.position, held, Holder.position, Flight.rank, Point.rank,
    Timeout.enter]

end State

lemma Flight.rank_expire {fl : Flight} (hx : fl.scope.expiring = false) :
    fl.expire.rank < fl.rank := by
  simp [Flight.rank, Flight.expire, hx]

/-- Whatever a flight waits for next, it is closer to its end. -/
lemma Flight.rank_lt {fl : Flight} {point : Point} (hp : point ≠ .wait)
    (h : fl.point = .wait ∨ fl.point = .send ∧ point = .reply) :
    ({ fl with point := point } : Flight).rank < fl.rank := by
  rcases h with h | ⟨h, rfl⟩
  · cases point <;> simp_all [Flight.rank, Point.rank]
  · simp [Flight.rank, Point.rank, h]

namespace Step

/-- The steps of others leave a call where it is. -/
lemma position_frame (hst : Step s e s') (hs : s.Consistent) (ho : e.Own)
    (he : e.call ≠ some c) : s'.position c = s.position c := by
  have hcalls := hst.calls_frame he
  cases hc : s.calls c with
  | none => simp [State.position, hcalls, hc]
  | some call =>
    obtain ⟨phase, cn⟩ := call
    rw [State.position_eq hc, State.position_eq (hcalls.trans hc)]
    cases phase with
    | inside =>
      obtain ⟨hd, hl, rfl⟩ := hs.inside c cn hc
      have hl' := hst.lock_frame hl he
      have hb : s'.bulkEvent = s.bulkEvent := by
        cases hst with
        | enter _ _ hn => simp [hl] at hn
        | next _ hn | expire _ hn | wake _ hn =>
          cases hl.symm.trans hn
          exact absurd rfl he
        | cancel | record | disconnect => exact ho.elim
        | _ => rfl
      simp [Phase.position, State.held, hl, hl', hb]
    | fresh | running | queued | finished => rfl

/-- An operation of the call has been answered. -/
private lemma below_of_running {o : Op} {k : Op.Result o → Program (Except Exc β)}
    {r : Op.Result o} {cn : Cancellation} {m : ℕ}
    (hc : s'.calls c = some ⟨.running (k r), cn⟩) :
    Prog.Below (s'.position c) (some (.op o k, m)) := by
  rw [State.position_eq hc]
  exact .answered

/-- A job that goes on with frame `n`, or leaves the lock, is closer to its end. -/
private lemma below_of_goesOn {t : State β} {n m : ℕ} {cn : Cancellation} {j : Job}
    {k : Except Exc j.Value → Program (Except Exc β)} (hg : t.GoesOn c cn j k n s')
    (hm : 8 * (j.frames.length - n) + 5 < m) :
    Prog.Below (s'.position c) (some (.op (.locked j) k, m)) := by
  cases hg with
  | launch =>
    rw [State.position_launch]
    exact .closer hm
  | release => exact below_of_running (Function.update_self _ _ _)

/-- The flight of the call is closer to its end. -/
private lemma below_of_flight {j : Job} {k : Except Exc j.Value → Program (Except Exc β)} {n : ℕ}
    {fl fl' : Flight} {cn : Cancellation} (hc : s'.calls c = some ⟨.inside, cn⟩)
    (hl : s'.lock = some (.delivering c j k n fl')) (hlt : fl'.rank < fl.rank) :
    Prog.Below (s'.position c) (some (.op (.locked j) k, 8 * (j.frames.length - n) + fl.rank)) := by
  rw [State.position_delivering hc hl]
  exact .closer (by omega)

/-- An own step of a call that delivers a frame takes it further. -/
private lemma below_of_delivering {j : Job} {k : Except Exc j.Value → Program (Except Exc β)}
    {n : ℕ} {fl : Flight} (hst : Step s e s') (hs : s.Consistent) (ho : e.Own)
    (he : e.call = some c) (hl : s.lock = some (.delivering c j k n fl)) :
    Prog.Below (s'.position c) (some (.op (.locked j) k, 8 * (j.frames.length - n) + fl.rank)) := by
  have hfl := hs.flying _ _ _ _ _ hl
  obtain ⟨cn, hc⟩ := hfl.call
  obtain ⟨frame, state, hj, ht⟩ := hfl.task
  have hn : n < j.frames.length := (List.getElem?_eq_some_iff.1 hj).1
  cases hst.delivering he hc hl ht with
  | awaitSend hd =>
    obtain ⟨hp, -⟩ := Delivery.result_of_awaitSend hd
    exact below_of_flight hc rfl (Flight.rank_lt (by simp) (.inl hp))
  | awaitReply hd hf hp =>
    have hpt : fl.point = .wait ∨ fl.point = .send ∧ Point.reply = .reply := by
      cases h : fl.point <;> simp_all
    exact below_of_flight hc rfl (Flight.rank_lt (by simp) hpt)
  | reply | failed | raised => exact below_of_running (Function.update_self _ _ _)
  | next => exact below_of_goesOn (State.goesOn_nextFrame _ _ _ _ _ _) (by omega)
  | collect =>
    rw [State.position_collecting (Function.update_self _ _ _) rfl]
    apply Prog.Below.closer
    have hb := Bool.toNat_le s.bulkEvent
    simp only [State.setPhase, State.land, State.cancelSend]
    omega
  | cancel => exact ho.elim
  | expire hx =>
    obtain ⟨cn', hc'⟩ := State.interrupt_calls_self
      { s with lock := some (.delivering c j k n fl.expire) } c cn fl.expire
    exact below_of_flight hc' (State.interrupt_lock _ _ _ _) (Flight.rank_expire hx)

/-- An own step of a call takes it further. -/
lemma position_below (hst : Step s e s') (hs : s.Consistent) (ho : e.Own)
    (he : e.call = some c) : Prog.Below (s'.position c) (s.position c) := by
  have hfly : ∀ j k n fl, s.lock = some (.delivering c j k n fl) →
      Prog.Below (s'.position c) (s.position c) := by
    intro j k n fl hl
    obtain ⟨cn, hc⟩ := (hs.flying _ _ _ _ _ hl).call
    rw [State.position_delivering hc hl]
    exact below_of_delivering hst hs ho he hl
  cases hst with
  | begin hc hm =>
    cases he
    rw [State.position_eq hc, State.position_eq (Function.update_self _ _ _)]
    exact .closer (by simp)
  | skip hc | finish hc =>
    cases he
    rw [State.position_eq hc, State.position_eq (Function.update_self _ _ _)]
    exact .finished _
  | getPassword hc | setPassword hc | refuse hc =>
    cases he
    rw [State.position_eq hc]
    exact below_of_running (Function.update_self _ _ _)
  | queue hc hu =>
    cases he
    rw [State.position_eq hc, State.position_eq (Function.update_self _ _ _)]
    exact .closer (by simp [firstSpan])
  | giveUp hc hm =>
    cases he
    rw [State.position_eq hc]
    exact below_of_running (Function.update_self _ _ _)
  | enter hc hm hl =>
    cases he
    rw [State.position_eq hc]
    exact below_of_goesOn (s.goesOn_enter _ _ _ _) (by simp [Job.span])
  | awaitSend _ hl | awaitReply _ hl | reply _ hl | failed _ hl | raised _ hl | next _ hl
  | collect _ hl | expire _ hl =>
    cases he
    exact hfly _ _ _ _ hl
  | wake hc hl hm hb =>
    cases he
    have hc' : ({ s with bulkEvent := false } : State β).calls c = some ⟨.inside, _⟩ := hc
    rw [State.position_collecting hc hl, State.position_collecting hc' hl]
    exact .closer (by simp [hb])
  | stop hc hl =>
    cases he
    rw [State.position_collecting hc hl]
    exact below_of_running (Function.update_self _ _ _)
  | idle hc hl =>
    cases he
    obtain ⟨cn', hc'⟩ := hs.owner _ hl
    have hc'' : s.calls c = some ⟨.inside, cn'⟩ := hc'
    rw [State.position_collecting hc'' hl]
    exact below_of_running (Function.update_self _ _ _)
  | spawn | cancelFresh | cancelQueued | cancelCollecting | cancel => exact ho.elim
  | link | sendStart | sendUnwind | sendEnd | record | answer | ignore | disconnect => cases he

end Step

/-- Own steps are steps of calls that were made. -/
lemma Step.calls_of_own (hst : Step s e s') (hs : s.Consistent) (ho : e.Own)
    (he : e.call = some c) : s.calls c ≠ none := by
  intro hc
  apply (hst.position_below hs ho he).ne_none
  simp [State.position, hc]

/-! ### How far the sends are -/

def TaskState.unrest : TaskState Exc → ℕ
  | .created => 4
  | .running => 3
  | .cancelling => 2
  | .unwinding => 1
  | .done _ => 0

/-- What the sends have still to go through. -/
def State.unrest (s : State β) : ℕ :=
  ∑ i ∈ Finset.range s.nextId, (s.sendTasks i).elim 0 fun task => TaskState.unrest task.state

lemma State.unrest_setSend {i : ℕ} {task : SendTask} {state : TaskState Exc} (hs : s.Consistent)
    (ht : s.sendTasks i = some task) (hlt : TaskState.unrest state < TaskState.unrest task.state) :
    (s.setSend i task state).unrest < s.unrest := by
  have hi : i < s.nextId := by
    by_contra hle
    simp [(hs.unborn i (not_lt.1 hle)).1] at ht
  apply Finset.sum_lt_sum
  · intro i' _
    by_cases hi' : i' = i
    · subst hi'
      simpa [State.setSend, ht] using hlt.le
    · simp [State.setSend, hi']
  · exact ⟨i, Finset.mem_range.2 hi, by simpa [State.setSend, ht] using hlt⟩

/-- A step of a send leaves the calls alone. -/
lemma Step.unrest_lt (hst : Step s e s') (hs : s.Consistent) (ho : e.Own) (he : e.call = none) :
    s'.unrest < s.unrest ∧ s'.position = s.position := by
  cases hst with
  | sendStart ht hc =>
    refine ⟨State.unrest_setSend hs ht ?_, rfl⟩
    simp [hc, TaskState.unrest]
  | sendUnwind ht hc =>
    refine ⟨State.unrest_setSend hs ht ?_, rfl⟩
    simp [hc, TaskState.unrest]
  | @sendEnd i task o ht hb =>
    refine ⟨State.unrest_setSend hs ht ?_, rfl⟩
    cases hc : task.state <;> simp_all [TaskState.unrest, TaskState.busy]
  | link | record | answer | ignore | disconnect => exact ho.elim
  | _ => cases he

/-! ### Rest -/

/-- Only the calls of `S` have been made. -/
def State.Within (s : State β) (S : Finset ℕ) : Prop := ∀ c, c ∉ S → s.calls c = none

/-- Own steps make no calls. -/
lemma State.Within.step {S : Finset ℕ} (h : s.Within S) (hst : Step s e s') (hs : s.Consistent)
    (ho : e.Own) : s'.Within S := by
  intro c hc
  by_cases he : e.call = some c
  · exact absurd (h c hc) (hst.calls_of_own hs ho he)
  · exact (hst.calls_frame he).trans (h c hc)

lemma within_of_run {timeoutHint : Option String} {password : Option ℤ}
    {P : State β → Event β → Prop} {es : List (Event β)}
    (h : ClientRun timeoutHint password P es s) : ∃ S, s.Within S := by
  have hstep : ∀ (u : State β) e v, (∃ S, u.Within S) → P u e →
      (machine β timeoutHint password).step u e = some v → ∃ S, v.Within S := by
    rintro u e v ⟨S, hu⟩ - hst
    refine ⟨S ∪ e.call.toFinset, fun c hc => ?_⟩
    simp only [Finset.mem_union, Option.mem_toFinset, Option.mem_def, not_or] at hc
    exact ((Step.of_step hst).calls_frame hc.2).trans (hu c hc.1)
  exact h.invariant hstep ⟨∅, fun c _ => rfl⟩

/-- A send that the client has cancelled can end. -/
lemma exists_sendEnd {i : ℕ} {task : SendTask} (ht : s.sendTasks i = some task)
    (hd : task.state.isDone = false) (hl : ¬ Live task.state) :
    ∃ e t, e.Own ∧ s.Unaided e ∧ s.step e = some t := by
  have hb : task.state.busy = true := by
    cases h : task.state <;> simp_all [Live, TaskState.busy]
  have hst : s.step (.sendEnd i .cancelled) = some (s.setSend i task (.done .cancelled)) := by
    simp [State.step, State.endSend, ht, hb]
  exact ⟨.sendEnd i .cancelled, _, trivial, ⟨task, ht, fun hr => hl (.inr hr)⟩, hst⟩

/-- The client is at rest, or one of its own steps is possible. -/
lemma atRest_or_step (hs : s.Consistent) (hp : s.Prompt) (hsends : s.SendsOwned) :
    s.AtRest ∨ ∃ e t, e.Own ∧ s.Unaided e ∧ s.step e = some t := by
  have hrun : ∀ c, (∃ t, s.step (.run c) = some t) →
      ∃ e t, e.Own ∧ s.Unaided e ∧ s.step e = some t :=
    fun c ⟨t, ht⟩ => ⟨.run c, t, trivial, trivial, ht⟩
  cases hl : s.lock with
  | none =>
    by_cases hall : ∀ c call, s.calls c = some call → ∃ r, call.phase = .finished r
    · obtain ⟨hw, hsend⟩ := hs.idle (by simp [hl])
      by_cases hended : ∀ i task, s.sendTasks i = some task → task.state.isDone = true
      · exact .inl ⟨hall, hended, hl, hw, hsend⟩
      · push Not at hended
        obtain ⟨i, task, ht, hd⟩ := hended
        refine .inr (exists_sendEnd ht (Bool.not_eq_true _ ▸ hd) fun hlive => ?_)
        obtain ⟨c, j, k, n, fl, hl', -⟩ := hsends i task ht hlive
        cases hl.symm.trans hl'
    · push Not at hall
      obtain ⟨c, ⟨phase, cn⟩, hc, hne⟩ := hall
      refine .inr (hrun c ?_)
      cases phase with
      | fresh p => by_cases hm : cn.mustCancel <;> simp [State.step, State.runCall, hc, hm]
      | running p =>
        cases p with
        | pure r => simp [State.step, State.runCall, hc]
        | op o k =>
          cases o with
          | getPassword | setPassword => simp [State.step, State.runCall, hc]
          | locked j => by_cases hu : s.connected <;> simp [State.step, State.runCall, hc, hu]
      | queued j k => by_cases hm : cn.mustCancel <;> simp [State.step, State.runCall, hc, hm, hl]
      | inside =>
        obtain ⟨hd, hl', -⟩ := hs.inside c cn hc
        cases hl.symm.trans hl'
      | finished r => exact absurd rfl (hne r)
  | some hd =>
    right
    cases hd with
    | collecting c count k =>
      obtain ⟨cn, hc⟩ := hs.owner _ hl
      have hc' : s.calls c = some ⟨.inside, cn⟩ := hc
      by_cases hm : cn.mustCancel = true
      · apply hrun c
        simp [State.step, State.runCall, State.runCollecting, hc', hl, hm]
      · refine ⟨.idle c, ?_⟩
        simp [State.step, State.idleCall, hc', hl, hm, Event.Own, State.Unaided]
    | delivering c j k n fl =>
      have hfl := hs.flying _ _ _ _ _ hl
      obtain ⟨cn, hc⟩ := hfl.call
      obtain ⟨frame, state, -, ht⟩ := hfl.task
      cases hx : fl.scope.expiring with
      | false =>
        refine ⟨.expire c, ?_⟩
        simp [State.step, State.expireCall, hc, hl, hx, Event.Own, State.Unaided]
      | true =>
        rcases hp _ _ _ _ _ _ _ hl hc ht hx with hm | ⟨hpt, hcr, hrn⟩ | ⟨hpt, hf⟩
        · exact hrun c (State.exists_run hc hl ht (by simp [Delivery.resume, hm]) fun _ => .inl hm)
        · by_cases hd : state.isDone = true
          · obtain ⟨o, rfl⟩ := TaskState.isDone_iff.1 hd
            apply hrun c
            apply State.exists_run hc hl ht _ (by simp [hpt])
            cases o <;> by_cases hm : cn.mustCancel <;>
              simp [Delivery.resume, hm, hpt, Delivery.ofSend, Delivery.ofOutcome]
          · exact exists_sendEnd ht (Bool.not_eq_true _ ▸ hd) (not_or.2 ⟨hcr, hrn⟩)
        · apply hrun c
          apply State.exists_run hc hl ht _ fun _ => .inr hf
          by_cases hm : cn.mustCancel <;> simp [Delivery.resume, hm, hpt]

/-- Own steps go down, and no state is below itself for ever. -/
def restOrder (S : Finset ℕ) (t s : State β) : Prop :=
  Prod.Lex (Moves Prog.Below) (· < ·) ((fun c : S => t.position c), t.unrest)
    ((fun c : S => s.position c), s.unrest)

lemma wellFounded_restOrder (S : Finset ℕ) : WellFounded (restOrder (β := β) S) :=
  InvImage.wf (fun s : State β => ((fun c : S => s.position c), s.unrest))
    (WellFounded.prod_lex (wellFounded_moves Prog.wellFounded_below) wellFounded_lt)

lemma Step.restOrder {S : Finset ℕ} (hst : Step s e s') (hs : s.Consistent) (hw : s.Within S)
    (ho : e.Own) : SpinevBle.restOrder S s' s := by
  cases he : e.call with
  | none =>
    obtain ⟨hlt, hpos⟩ := hst.unrest_lt hs ho he
    unfold SpinevBle.restOrder
    rw [hpos]
    exact .right _ hlt
  | some c =>
    have hlt := hst.position_below hs ho he
    have hc : c ∈ S := by
      by_contra hc
      exact hst.calls_of_own hs ho he (hw c hc)
    refine .left _ _ ⟨⟨c, hc⟩, hlt, fun c' hc' => hst.position_frame hs ho ?_⟩
    rw [he]
    exact fun h => hc' (Subtype.ext (Option.some.inj h).symm)

/-- Whatever has happened to it, the client comes to rest by its own steps, whether or not the
transport does its part. -/
theorem comes_to_rest {timeoutHint : Option String} {password : Option ℤ}
    {P : State β → Event β → Prop} {es : List (Event β)}
    (h : ClientRun timeoutHint password P es s) :
    Inevitable (machine β timeoutHint password) (fun _ e => e.Own) State.AtRest s ∧
    Inevitable (machine β timeoutHint password) (fun t e => e.Own ∧ t.Unaided e) State.AtRest s := by
  obtain ⟨S, hS⟩ := within_of_run h
  have hinv : s.Prompt ∧ s.SendsOwned := by
    have hstep : ∀ (u : State β) e v, u.Consistent → u.Prompt ∧ u.SendsOwned → P u e →
        Step u e v → v.Prompt ∧ v.SendsOwned := fun u e v hs hu _ hst =>
      ⟨hu.1.step hs hst, hu.2.step hst⟩
    exact invariant_of_run hstep h (.init _ _)
      ⟨.of_not_delivering (by simp [State.init]), .init _ _⟩
  let I (t : State β) : Prop := t.Consistent ∧ t.Prompt ∧ t.SendsOwned ∧ t.Within S
  have hs : I s := ⟨State.consistent_of_run h, hinv.1, hinv.2, hS⟩
  have hdown : ∀ u e v, I u → e.Own → u.step e = some v → I v ∧ restOrder S v u := by
    rintro u e v ⟨hs, hp, hsends, hw⟩ ho hst
    have hst := Step.of_step hst
    exact ⟨⟨hs.step hst, hp.step hs hst, hsends.step hst, hw.step hst hs ho⟩,
      hst.restOrder hs hw ho⟩
  constructor
  · apply Inevitable.of_wellFounded (wellFounded_restOrder S) hdown _ hs
    rintro u ⟨hs, hp, hsends, -⟩
    rcases atRest_or_step hs hp hsends with hr | ⟨e, t, ho, -, hst⟩
    · exact .inl hr
    · exact .inr ⟨e, t, ho, hst⟩
  · apply Inevitable.of_wellFounded (wellFounded_restOrder S)
      (fun u e v hu ho hst => hdown u e v hu ho.1 hst) _ hs
    rintro u ⟨hs, hp, hsends, -⟩
    rcases atRest_or_step hs hp hsends with hr | ⟨e, t, ho, ha, hst⟩
    · exact .inl hr
    · exact .inr ⟨e, t, ⟨ho, ha⟩, hst⟩

/-- The state is read, a second call waits for the lock, and the deadline passes before the frame is
delivered. -/
def lateSendEvents : List (Event ℕ) :=
  [.link true, .spawn 0 asyncGetStateValue 0, .run 0, .run 0, .run 0,
    .spawn 1 asyncGetStateValue 0, .run 1, .run 1, .sendStart 0, .expire 0]

theorem comes_to_rest_late_send :
    ∃ s : State ℕ, ClientRun none none Always lateSendEvents s ∧
      Inevitable (machine ℕ none none) (fun _ e => e.Own) State.AtRest s := by
  have h : ClientRun none none Always lateSendEvents _ := Run.of_exec rfl
  exact ⟨_, h, (comes_to_rest h).1⟩

end SpinevBle
