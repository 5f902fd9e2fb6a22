import SpinevBle.Charger.Consistent

/-!
# What a step changes

Field by field, what one step does to the lock, to the futures and to the send tasks. From these
follows what stays once it is there: a done future, a done send, and which frame of which job a
flight carries.
-/

namespace SpinevBle

open Asyncio Interaction Transition

variable {β : Type} {s s' : State β} {e : Event β}

/-! ### Going on inside the lock -/

namespace State.GoesOn

variable {t t' : State β} {c n : ℕ} {cn : Cancellation} {j : Job}
  {k : Except Exc j.Value → Program (Except Exc β)}

lemma calls_of_ne (h : t.GoesOn c cn j k n t') {c' : ℕ} (hc : c' ≠ c) :
    t'.calls c' = t.calls c' := by
  cases h with
  | launch | release => exact Function.update_of_ne hc _ _

/-- The call is inside, or has left the lock again. -/
lemma phase (h : t.GoesOn c cn j k n t') :
    ∃ phase cn', t'.calls c = some ⟨phase, cn'⟩ ∧
      (phase = .inside ∨ ∃ p, phase = .running p ∧ cn'.mustCancel = false) := by
  cases h with
  | launch => exact ⟨_, _, Function.update_self _ _ _, .inl rfl⟩
  | release => exact ⟨_, _, Function.update_self _ _ _, .inr ⟨_, rfl, rfl⟩⟩

/-- The lock is taken for a new flight only. -/
lemma lock (h : t.GoesOn c cn j k n t') {hd : Holder β} (hl : t'.lock = some hd) :
    ∃ fl, hd = .delivering c j k n fl ∧ fl.id = t.nextId := by
  cases h with
  | launch =>
    cases hl
    exact ⟨_, rfl, rfl⟩
  | release => cases hl

lemma nextId_le (h : t.GoesOn c cn j k n t') : t.nextId ≤ t'.nextId := by
  cases h with
  | launch => exact Nat.le_succ _
  | release => exact le_rfl

lemma wire (h : t.GoesOn c cn j k n t') : t'.wire = t.wire := by
  cases h <;> rfl

lemma password (h : t.GoesOn c cn j k n t') : t'.password = t.password := by
  cases h <;> rfl

lemma connected (h : t.GoesOn c cn j k n t') : t'.connected = t.connected := by
  cases h <;> rfl

lemma timeoutHint (h : t.GoesOn c cn j k n t') : t'.timeoutHint = t.timeoutHint := by
  cases h <;> rfl

lemma futures (h : t.GoesOn c cn j k n t') : t'.futures = t.futures := by
  cases h <;> rfl

lemma sendTasks (h : t.GoesOn c cn j k n t') (i : ℕ) :
    t'.sendTasks i = t.sendTasks i ∨
      i = t.nextId ∧ ∃ frame, t'.sendTasks i = some ⟨c, frame, .created⟩ := by
  cases h with
  | @launch _ _ frame =>
    by_cases hi : i = t.nextId
    · exact .inr ⟨hi, frame, by simp [State.launch, hi]⟩
    · exact .inl (by simp [State.launch, hi])
  | release => exact .inl rfl

lemma blocks (h : t.GoesOn c cn j k n t') :
    t'.blocks = t.blocks ∨
      ∃ r, t'.blocks = ⟨c, j, r⟩ :: t.blocks ∧ j.frames[n]? = none ∧ j.Leaves r := by
  cases h with
  | launch => exact .inl rfl
  | release hj hr => exact .inr ⟨_, rfl, hj, hr⟩

end State.GoesOn

namespace Step

/-! ### The link -/

/-- What the timeouts of requests say stays the same. -/
lemma timeoutHint (h : Step s e s') : s'.timeoutHint = s.timeoutHint := by
  cases h with
  | enter => exact (s.goesOn_enter _ _ _ _).timeoutHint
  | next => exact (State.goesOn_nextFrame _ _ _ _ _ _).timeoutHint
  | cancel | expire => exact State.interrupt_timeoutHint _ _ _ _
  | _ => rfl

/-- Only the transport says whether the link is up. -/
lemma connected (h : Step s e s') (he : ∀ up, e ≠ .link up) : s'.connected = s.connected := by
  cases h with
  | link => exact absurd rfl (he _)
  | enter => exact (s.goesOn_enter _ _ _ _).connected
  | next => exact (State.goesOn_nextFrame _ _ _ _ _ _).connected
  | cancel | expire => exact State.interrupt_connected _ _ _ _
  | _ => rfl

/-! ### Other calls -/

/-- An event leaves the calls alone that it does not concern. -/
lemma calls_frame (h : Step s e s') {c : ℕ} (hc : e.call ≠ some c) : s'.calls c = s.calls c := by
  cases h with
  | spawn | begin | skip | finish | getPassword | setPassword | refuse | queue | giveUp | reply
  | failed | raised | collect | stop | idle | cancelFresh | cancelQueued | cancelCollecting =>
    exact Function.update_of_ne (fun h => hc (congrArg some h.symm)) _ _
  | enter =>
    exact (s.goesOn_enter _ _ _ _).calls_of_ne fun h => hc (congrArg some h.symm)
  | next =>
    exact (State.goesOn_nextFrame _ _ _ _ _ _).calls_of_ne fun h => hc (congrArg some h.symm)
  | cancel => exact State.interrupt_calls _ (fun h => hc (congrArg some h.symm)) _ _
  | expire => exact State.interrupt_calls _ (fun h => hc (congrArg some h.symm)) _ _
  | _ => rfl

/-- How far a call can be after a step. -/
inductive CallChange (s : State β) (c : ℕ) : Event β → Option (Call β) → Prop
  | same {e t} (ht : t = s.calls c) : CallChange s c e t
  | spawn {p n} (hc : s.calls c = none) :
      CallChange s c (.spawn c p n) (some ⟨.fresh p, ⟨n, false⟩⟩)
  | cancelFresh {p cn} (hc : s.calls c = some ⟨.fresh p, cn⟩) :
      CallChange s c (.cancel c) (some ⟨.fresh p, ⟨cn.requests + 1, true⟩⟩)
  | queue {j k cn} (hc : s.calls c = some ⟨.running (.op (.locked j) k), cn⟩) :
      CallChange s c (.run c) (some ⟨.queued j k, cn⟩)
  | cancelQueued {j k cn} (hc : s.calls c = some ⟨.queued j k, cn⟩) :
      CallChange s c (.cancel c) (some ⟨.queued j k, ⟨cn.requests + 1, true⟩⟩)
  | running {e p cn} (hm : cn.mustCancel = false ∨ ∃ p', s.calls c = some ⟨.running p', cn⟩) :
      CallChange s c e (some ⟨.running p, cn⟩)
  | inside {e cn} : CallChange s c e (some ⟨.inside, cn⟩)
  | finished {e r cn} : CallChange s c e (some ⟨.finished r, cn⟩)

private lemma callChange_of_goesOn {t t' : State β} {c n : ℕ} {cn : Cancellation} {j : Job}
    {k : Except Exc j.Value → Program (Except Exc β)} (h : t.GoesOn c cn j k n t') :
    CallChange s c e (t'.calls c) := by
  obtain ⟨phase, cn', hc, rfl | ⟨p, rfl, hm⟩⟩ := h.phase
  · rw [hc]
    exact .inside
  · rw [hc]
    exact .running (.inl hm)

private lemma callChange_of_interrupt (t : State β) (c : ℕ) (cn : Cancellation) (fl : Flight) :
    CallChange s c e ((t.interrupt c cn fl).calls c) := by
  obtain ⟨cn', hc⟩ := t.interrupt_calls_self c cn fl
  rw [hc]
  exact .inside

lemma calls_cases (h : Step s e s') (c : ℕ) : CallChange s c e (s'.calls c) := by
  have hself : ∀ {t : Option (Call β)}, CallChange s c e t →
      CallChange s c e (Function.update s.calls c t c) := fun h => by rwa [Function.update_self]
  by_cases he : e.call = some c
  · cases h with
    | spawn hc =>
      cases he
      exact hself (.spawn hc)
    | cancelFresh hc =>
      cases he
      exact hself (.cancelFresh hc)
    | queue hc =>
      cases he
      exact hself (.queue hc)
    | cancelQueued hc =>
      cases he
      exact hself (.cancelQueued hc)
    | begin _ hm =>
      cases he
      exact hself (.running (.inl hm))
    | getPassword hc | setPassword hc | refuse hc =>
      cases he
      exact hself (.running (.inr ⟨_, hc⟩))
    | giveUp | reply | failed | raised | stop | idle =>
      cases he
      exact hself (.running (.inl rfl))
    | enter =>
      cases he
      exact callChange_of_goesOn (s.goesOn_enter _ _ _ _)
    | next =>
      cases he
      exact callChange_of_goesOn (State.goesOn_nextFrame _ _ _ _ _ _)
    | cancel | expire =>
      cases he
      exact callChange_of_interrupt _ _ _ _
    | collect | cancelCollecting =>
      cases he
      exact hself .inside
    | skip | finish =>
      cases he
      exact hself .finished
    | awaitSend | awaitReply | wake => exact .same rfl
    | link | sendStart | sendUnwind | sendEnd | record | answer | ignore | disconnect => cases he
  · exact .same (h.calls_frame he)

lemma calls_ne_none (h : Step s e s') {c : ℕ} (hc : s.calls c ≠ none) : s'.calls c ≠ none := by
  intro hn
  have hchange := h.calls_cases c
  rw [hn] at hchange
  cases hchange with
  | same ht => exact hc ht.symm

/-- A call that goes on has no `CancelledError` waiting for it. -/
lemma mustCancel_running (h : Step s e s')
    (hs : ∀ c p cn, s.calls c = some ⟨.running p, cn⟩ → cn.mustCancel = false) {c : ℕ}
    {p : Program (Except Exc β)} {cn : Cancellation} (hc : s'.calls c = some ⟨.running p, cn⟩) :
    cn.mustCancel = false := by
  have hchange := h.calls_cases c
  rw [hc] at hchange
  cases hchange with
  | same ht => exact hs _ _ _ ht.symm
  | running hm =>
    rcases hm with hm | ⟨p', hc'⟩
    · exact hm
    · exact hs _ _ _ hc'

/-- An event leaves the lock alone unless it concerns the call that holds it. -/
lemma lock_frame (h : Step s e s') {hd : Holder β} (hl : s.lock = some hd)
    (hc : e.call ≠ some hd.call) : s'.lock = some hd := by
  cases h with
  | enter _ _ hl' => simp [hl] at hl'
  | awaitSend _ hl' | awaitReply _ hl' | reply _ hl' | failed _ hl' | raised _ hl' | next _ hl'
  | collect _ hl' | stop _ hl' | idle _ hl' | expire _ hl' =>
    rw [hl] at hl'
    cases hl'
    exact absurd rfl hc
  | cancel => rwa [State.interrupt_lock]
  | _ => exact hl

/-! ### The lock -/

/-- A flight after a step was there before it, or it is new. -/
lemma lock_cases (h : Step s e s') {c : ℕ} {j : Job}
    {k : Except Exc j.Value → Program (Except Exc β)} {n : ℕ} {fl : Flight}
    (hl : s'.lock = some (.delivering c j k n fl)) :
    (∃ fl', s.lock = some (.delivering c j k n fl') ∧ fl'.id = fl.id) ∨ fl.id = s.nextId := by
  cases h with
  | enter hc hm hl' =>
    obtain ⟨fl', hd, hid⟩ := (s.goesOn_enter _ _ _ _).lock hl
    cases hd
    exact .inr hid
  | next hc hl' ht hd =>
    obtain ⟨fl', hd, hid⟩ := (State.goesOn_nextFrame _ _ _ _ _ _).lock hl
    cases hd
    exact .inr hid
  | awaitSend hc hl' ht hd =>
    cases hl
    exact .inl ⟨_, hl', rfl⟩
  | awaitReply hc hl' ht hd hf hp =>
    cases hl
    exact .inl ⟨_, hl', rfl⟩
  | expire hc hl' hx =>
    rw [State.interrupt_lock] at hl
    cases hl
    exact .inl ⟨_, hl', rfl⟩
  | cancel hc hl' =>
    rw [State.interrupt_lock] at hl
    exact .inl ⟨_, hl, rfl⟩
  | reply | failed | raised | collect | stop | idle => cases hl
  | _ => exact .inl ⟨_, hl, rfl⟩

/-- Only the call that holds the lock after a step has changed what it does there. -/
lemma lock_of_lock (h : Step s e s') {hd : Holder β} (hl : s'.lock = some hd)
    (hc : e.call ≠ some hd.call) : s.lock = some hd := by
  cases h with
  | enter =>
    obtain ⟨fl, rfl, -⟩ := (s.goesOn_enter _ _ _ _).lock hl
    exact absurd rfl hc
  | next =>
    obtain ⟨fl, rfl, -⟩ := (State.goesOn_nextFrame _ _ _ _ _ _).lock hl
    exact absurd rfl hc
  | awaitSend | awaitReply | collect =>
    cases hl
    exact absurd rfl hc
  | reply | failed | raised | stop | idle => cases hl
  | cancel => rwa [State.interrupt_lock] at hl
  | expire =>
    rw [State.interrupt_lock] at hl
    cases hl
    exact absurd rfl hc
  | _ => exact hl

/-- Whoever has the lock after a step had it before with the same job, or has just taken it. -/
lemma lock_origin (h : Step s e s') {hd : Holder β} (hl : s'.lock = some hd) :
    (∃ hd', s.lock = some hd' ∧ hd'.call = hd.call ∧ hd'.job = hd.job) ∨
      e = .run hd.call ∧ s.lock = none ∧
        ∃ k cn, s.calls hd.call = some ⟨.queued hd.job k, cn⟩ ∧ cn.mustCancel = false := by
  cases h with
  | enter hc hm hl' =>
    obtain ⟨fl, rfl, -⟩ := (s.goesOn_enter _ _ _ _).lock hl
    exact .inr ⟨rfl, hl', _, _, hc, hm⟩
  | next hc hl' =>
    obtain ⟨fl, rfl, -⟩ := (State.goesOn_nextFrame _ _ _ _ _ _).lock hl
    exact .inl ⟨_, hl', rfl, rfl⟩
  | awaitSend hc hl' | awaitReply hc hl' | collect hc hl' =>
    cases hl
    exact .inl ⟨_, hl', rfl, rfl⟩
  | reply | failed | raised | stop | idle => cases hl
  | cancel hc hl' =>
    rw [State.interrupt_lock] at hl
    exact .inl ⟨_, hl, rfl, rfl⟩
  | expire hc hl' =>
    rw [State.interrupt_lock] at hl
    cases hl
    exact .inl ⟨_, hl', rfl, rfl⟩
  | _ => exact .inl ⟨_, hl, rfl, rfl⟩

/-- No job ends with a step after which somebody has the lock. -/
lemma blocks_of_lock (h : Step s e s') {hd : Holder β} (hl : s'.lock = some hd) :
    s'.blocks = s.blocks := by
  cases h with
  | @enter c j k cn =>
    have hg := s.goesOn_enter c cn j k
    generalize s.enter c cn j k = t at hg hl
    cases hg with
    | launch => rfl
    | release => cases hl
  | @next c frames k n fl cn =>
    have hg := (s.land (.writeFrames frames) fl.id).goesOn_nextFrame c
      ⟨(fl.scope.exit cn.requests).1, false⟩ frames k (n + 1)
    generalize State.nextFrame _ _ _ _ _ _ = t at hg hl
    cases hg with
    | launch => rfl
    | release => cases hl
  | reply | failed | raised | stop | idle => cases hl
  | cancel | expire => exact State.interrupt_blocks _ _ _ _
  | _ => rfl

/-! ### The wire -/

/-- A step adds to the wire only the send that it starts. -/
lemma wire_cases (h : Step s e s') :
    s'.wire = s.wire ∨ ∃ i task, e = .sendStart i ∧ s'.wire = s.wire ++ [i] ∧
      s.sendTasks i = some task ∧ task.state = .created := by
  cases h with
  | sendStart ht hs => exact .inr ⟨_, _, rfl, rfl, ht, hs⟩
  | enter => exact .inl (s.goesOn_enter _ _ _ _).wire
  | next => exact .inl (State.goesOn_nextFrame _ _ _ _ _ _).wire
  | cancel | expire => exact .inl (State.interrupt_wire _ _ _ _)
  | _ => exact .inl rfl

/-! ### Flight numbers -/

lemma nextId_le (h : Step s e s') : s.nextId ≤ s'.nextId := by
  cases h with
  | enter => exact (s.goesOn_enter _ _ _ _).nextId_le
  | @next c frames k n fl =>
    exact ((s.land (.writeFrames frames) fl.id).goesOn_nextFrame _ _ _ _ _).nextId_le
  | cancel hc hl => rw [State.interrupt_nextId]
  | expire hc hl hx => rw [State.interrupt_nextId]
  | _ => exact le_rfl

/-! ### Futures -/

private lemma interrupt_futures (s : State β) (c : ℕ) (cn : Cancellation) (fl : Flight) (i : ℕ) :
    (s.interrupt c cn fl).futures i = s.futures i ∨
      i = fl.id ∧ fl.point = .reply ∧ s.futures i = .pending ∧
        (s.interrupt c cn fl).futures i = .cancelled := by
  unfold State.interrupt
  split
  · split_ifs <;> exact .inl rfl
  · next hp =>
    split_ifs with hd
    · exact .inl rfl
    · by_cases hi : i = fl.id
      · rw [Bool.not_eq_true, Future.done_eq_false_iff] at hd
        subst hi
        exact .inr ⟨rfl, hp, hd, by simp [hd, Future.cancel]⟩
      · exact .inl (by simp [hi])
  · exact .inl rfl

/-- What one step does to one future: only a matching reply, a drop or the cancellation of the
call that awaits it completes it. -/
inductive FutureChange (s : State β) (i : ℕ) : Event β → Future Bytes Exc → Prop
  | same {ev : Event β} {f} (hf : f = s.futures i) : FutureChange s i ev f
  | answer {payload register w} (hp : Answers payload register w.flag)
      (hw : s.waiters.lookup register = some w) (hi : w.future = i)
      (hf : s.futures i = .pending) : FutureChange s i (.notify payload) (.result payload)
  | drop (hf : s.futures i = .pending) (hi : i ∈ s.waiting ∨ i ∈ s.sends) :
      FutureChange s i .disconnect (.exception State.dropped)
  | cancel {ev : Event β} {c j k n fl} (hl : s.lock = some (.delivering c j k n fl))
      (hi : i = fl.id) (hp : fl.point = .reply) (hf : s.futures i = .pending)
      (he : ev = .cancel c ∨ ev = .expire c) : FutureChange s i ev .cancelled

lemma futures_cases (h : Step s e s') (i : ℕ) : FutureChange s i e (s'.futures i) := by
  cases h with
  | enter => exact .same (congrFun (s.goesOn_enter _ _ _ _).futures i)
  | next => exact .same (congrFun (State.goesOn_nextFrame _ _ _ _ _ _).futures i)
  | cancel hc hl =>
    rcases interrupt_futures s _ _ _ i with hf | ⟨hi, hp, hf, hf'⟩
    · rw [hf]
      exact .same rfl
    · rw [hf']
      exact .cancel hl hi hp hf (.inl rfl)
  | expire hc hl hx =>
    rcases interrupt_futures _ _ _ _ i with hf | ⟨hi, hp, hf, hf'⟩
    · rw [hf]
      exact .same rfl
    · rw [hf']
      exact .cancel hl hi hp hf (.inr rfl)
  | @answer payload register w hp hw =>
    by_cases hi : i = w.future
    · subst hi
      cases hf : s.futures w.future with
      | pending => simpa [State.answerWaiter, hf] using .answer hp hw rfl hf
      | _ => simpa [State.answerWaiter, hf, Future.resolve] using hf ▸ FutureChange.same rfl
    · simpa [State.answerWaiter, hi] using .same rfl
  | disconnect hs =>
    by_cases hi : i ∈ s.waiting ∨ i ∈ s.sends
    · cases hf : s.futures i with
      | pending => simpa [State.failAll, hi, hf] using .drop hf hi
      | _ => simpa [State.failAll, hi, hf, Future.fail] using hf ▸ FutureChange.same rfl
    · simpa [State.failAll, hi] using .same rfl
  | _ => exact .same rfl

/-- A future that is done stays as it is. -/
lemma future_done (h : Step s e s') {i : ℕ} (hd : s.futures i ≠ .pending) :
    s'.futures i = s.futures i := by
  have := h.futures_cases i
  generalize s'.futures i = f at this
  cases this with
  | same hf => exact hf
  | answer _ _ _ hf => exact absurd hf hd
  | drop hf _ => exact absurd hf hd
  | cancel _ _ _ hf _ => exact absurd hf hd

/-! ### Send tasks -/

/-- What one step does to one send task. Only the call that delivers a frame cancels its send. -/
inductive SendChange (s : State β) (i : ℕ) : Event β → Option SendTask → Prop
  | same {ev : Event β} {t} (ht : t = s.sendTasks i) : SendChange s i ev t
  | create {c frame} (hi : i = s.nextId) : SendChange s i (.run c) (some ⟨c, frame, .created⟩)
  | cancel {ev : Event β} {c j k n fl task} (hl : s.lock = some (.delivering c j k n fl))
      (hi : i = fl.id) (ht : s.sendTasks i = some task)
      (he : ev = .run c ∨ ev = .cancel c ∨ ev = .expire c) :
      SendChange s i ev (some { task with state := task.state.cancel })
  | start {task} (ht : s.sendTasks i = some task) (hs : task.state = .created) :
      SendChange s i (.sendStart i) (some { task with state := .running })
  | unwind {task} (ht : s.sendTasks i = some task) (hs : task.state = .cancelling) :
      SendChange s i (.sendUnwind i) (some { task with state := .unwinding })
  | finish {task o} (ht : s.sendTasks i = some task) (hs : task.state.busy = true)
      (ho : o ≠ .raised .cancelledError) :
      SendChange s i (.sendEnd i o) (some { task with state := .done o })

private lemma land_sendTasks {c : ℕ} {j : Job} {k : Except Exc j.Value → Program (Except Exc β)}
    {n : ℕ} {fl : Flight} {task : SendTask} (hl : s.lock = some (.delivering c j k n fl))
    (ht : s.sendTasks fl.id = some task) (i : ℕ) :
    SendChange s i (.run c) ((s.land j fl.id).sendTasks i) := by
  by_cases hi : i = fl.id
  · subst hi
    simpa [State.land, State.cancelSend, ht] using .cancel hl rfl ht (.inl rfl)
  · simpa [State.land, State.cancelSend, hi] using .same rfl

private lemma interrupt_sendTasks (s : State β) (c : ℕ) (cn : Cancellation) (fl : Flight)
    (i : ℕ) :
    (s.interrupt c cn fl).sendTasks i = s.sendTasks i ∨
      i = fl.id ∧ ∃ task, s.sendTasks i = some task ∧
        (s.interrupt c cn fl).sendTasks i = some { task with state := task.state.cancel } := by
  unfold State.interrupt
  split
  · split_ifs with hd
    · exact .inl rfl
    · by_cases hi : i = fl.id
      · subst hi
        cases ht : s.sendTasks fl.id with
        | none => simp [ht] at hd
        | some task => exact .inr ⟨rfl, task, rfl, by simp [State.cancelSend, ht]⟩
      · exact .inl (by simp [State.cancelSend, hi])
  · split_ifs <;> exact .inl rfl
  · exact .inl rfl

lemma sendTasks_cases (h : Step s e s') (i : ℕ) : SendChange s i e (s'.sendTasks i) := by
  cases h with
  | @enter c j k cn =>
    rcases (s.goesOn_enter c cn j k).sendTasks i with ht | ⟨hi, frame, ht⟩
    · exact .same ht
    · exact ht ▸ .create hi
  | reply hc hl ht | failed hc hl ht | raised hc hl ht | collect hc hl ht =>
    exact land_sendTasks hl ht i
  | @next c frames k n fl cn task hc hl ht hd =>
    have hg := (s.land (.writeFrames frames) fl.id).goesOn_nextFrame c
      ⟨(fl.scope.exit cn.requests).1, false⟩ frames k (n + 1)
    rcases hg.sendTasks i with ht' | ⟨hi, frame, ht'⟩
    · exact ht' ▸ land_sendTasks hl ht i
    · exact ht' ▸ .create hi
  | cancel hc hl =>
    rcases interrupt_sendTasks s _ _ _ i with ht | ⟨hi, task, ht, ht'⟩
    · rw [ht]
      exact .same rfl
    · rw [ht']
      exact .cancel hl hi ht (.inr (.inl rfl))
  | expire hc hl hx =>
    rcases interrupt_sendTasks _ _ _ _ i with ht | ⟨hi, task, ht, ht'⟩
    · rw [ht]
      exact .same rfl
    · rw [ht']
      exact .cancel hl hi ht (.inr (.inr rfl))
  | @sendStart i' task ht hs =>
    by_cases hi : i = i'
    · subst hi
      simpa [State.setSend] using .start ht hs
    · simpa [State.setSend, hi] using .same rfl
  | @sendUnwind i' task ht hs =>
    by_cases hi : i = i'
    · subst hi
      simpa [State.setSend] using .unwind ht hs
    · simpa [State.setSend, hi] using .same rfl
  | @sendEnd i' task o ht hs ho =>
    by_cases hi : i = i'
    · subst hi
      simpa [State.setSend] using .finish ht hs ho
    · simpa [State.setSend, hi] using .same rfl
  | _ => exact .same rfl

/-! ### Jobs that end -/

/-- The delivery of a frame of job `j` raises `e` out of its `asyncio.timeout` block. -/
def Raises (s : State β) (cn : Cancellation) (j : Job) (fl : Flight) (task : SendTask) (e : Exc) :
    Prop :=
  Delivery.resume fl.point cn.mustCancel task.state (s.futures fl.id) = .raised e ∨
    Delivery.resume fl.point cn.mustCancel task.state (s.futures fl.id) = .delivered ∧
      (∃ frame register, j = .request frame register) ∧
      (s.futures fl.id = .exception e ∨ s.futures fl.id = .cancelled ∧ e = .cancelledError)

/-- The ways in which a job releases the lock. -/
inductive Ending (s : State β) : Event β → Block → Prop
  | reply {c frame register k n fl payload} {task : SendTask}
      (hl : s.lock = some (.delivering c (.request frame register) k n fl))
      (ht : s.sendTasks fl.id = some task) (hd : task.state = .done .returned)
      (hf : s.futures fl.id = .result payload) :
      Ending s (.run c) ⟨c, .request frame register, .ok payload⟩
  | error {c j k n fl cn x frame} {task : SendTask} (hc : s.calls c = some ⟨.inside, cn⟩)
      (hl : s.lock = some (.delivering c j k n fl)) (ht : s.sendTasks fl.id = some task)
      (hj : j.frames[n]? = some frame) (hr : Raises s cn j fl task x) :
      Ending s (.run c) ⟨c, j,
        .error (j.translate frame s.timeoutHint (leaveScope fl.scope cn.requests x).2)⟩
  | written {c frames k n fl} {task : SendTask}
      (hl : s.lock = some (.delivering c (.writeFrames frames) k n fl))
      (ht : s.sendTasks fl.id = some task) (hd : task.state = .done .returned)
      (hn : frames[n + 1]? = none) :
      Ending s (.run c) ⟨c, .writeFrames frames, .ok ()⟩
  | nothing {c k cn} (hc : s.calls c = some ⟨.queued (.writeFrames []) k, cn⟩) :
      Ending s (.run c) ⟨c, .writeFrames [], .ok ()⟩
  | badCount {c count k cn x} (hc : s.calls c = some ⟨.queued (.history count) k, cn⟩)
      (hx : historyFrame count = .error x) : Ending s (.run c) ⟨c, .history count, .error x⟩
  | stop {c count k} (hl : s.lock = some (.collecting c count k)) :
      Ending s (.run c) ⟨c, .history count, .error .cancelledError⟩
  | idle {c count k} (hl : s.lock = some (.collecting c count k)) :
      Ending s (.idle c) ⟨c, .history count, .ok s.bulk⟩

lemma returned_of_delivered (hs : s.Consistent) {c n : ℕ} {j : Job}
    {k : Except Exc j.Value → Program (Except Exc β)} {fl : Flight} {cn : Cancellation}
    {task : SendTask} (hl : s.lock = some (.delivering c j k n fl))
    (ht : s.sendTasks fl.id = some task)
    (hd : Delivery.resume fl.point cn.mustCancel task.state (s.futures fl.id) = .delivered) :
    task.state = .done .returned := by
  by_cases hp : fl.point = .reply
  · obtain ⟨-, frame, ht'⟩ := (hs.flying _ _ _ _ _ hl).atReply hp
    rw [ht] at ht'
    cases ht'
    rfl
  · exact Delivery.returned_of_delivered hd hp

lemma blocks_cases (h : Step s e s') (hs : s.Consistent) :
    s'.blocks = s.blocks ∨ ∃ b, s'.blocks = b :: s.blocks ∧ Ending s e b := by
  cases h with
  | @enter c j k cn hc hm hl =>
    rcases (s.goesOn_enter c cn j k).blocks with hb | ⟨r, hb, hn, hr⟩
    · exact .inl hb
    · refine .inr ⟨_, hb, ?_⟩
      cases j with
      | request frame register => exact hr.elim
      | writeFrames frames =>
        obtain rfl : frames = [] := by simpa [Job.frames] using hn
        obtain rfl : r = .ok () := hr
        exact .nothing hc
      | history count =>
        obtain ⟨x, hx, rfl⟩ := hr
        exact .badCount hc hx
  | reply hc hl ht hd hf =>
    exact .inr ⟨_, rfl, .reply hl ht (returned_of_delivered hs hl ht hd) hf⟩
  | @failed c frame register k n fl cn task x hc hl ht hd hf =>
    obtain ⟨frame', state, hj, -⟩ := (hs.flying _ _ _ _ _ hl).task
    obtain ⟨-, rfl⟩ := Job.frames_request hj
    exact .inr ⟨_, rfl, .error hc hl ht hj (.inr ⟨hd, ⟨_, _, rfl⟩, hf⟩)⟩
  | raised hc hl ht hd =>
    obtain ⟨frame', state, hj, ht'⟩ := (hs.flying _ _ _ _ _ hl).task
    rw [ht] at ht'
    cases ht'
    exact .inr ⟨_, rfl, .error hc hl ht hj (.inl hd)⟩
  | @next c frames k n fl cn task hc hl ht hd =>
    have hg := (s.land (.writeFrames frames) fl.id).goesOn_nextFrame c
      ⟨(fl.scope.exit cn.requests).1, false⟩ frames k (n + 1)
    rcases hg.blocks with hb | ⟨r, hb, hn, hr⟩
    · exact .inl hb
    · obtain rfl : r = .ok () := hr
      exact .inr ⟨_, hb, .written hl ht (returned_of_delivered hs hl ht hd) hn⟩
  | stop hc hl hm => exact .inr ⟨_, rfl, .stop hl⟩
  | idle hc hl hm => exact .inr ⟨_, rfl, .idle hl⟩
  | cancel hc hl => exact .inl (State.interrupt_blocks _ _ _ _)
  | expire hc hl hx => exact .inl (State.interrupt_blocks _ _ _ _)
  | _ => exact .inl rfl

/-- A job whose block a step adds ends in one of these ways. -/
lemma ending_of_block (h : Step s e s') (hs : s.Consistent) {b : Block}
    (hb : s'.blocks = b :: s.blocks) : Ending s e b := by
  rcases h.blocks_cases hs with hb' | ⟨b', hb', hend⟩
  · simp [hb'] at hb
  · rw [hb'] at hb
    obtain ⟨rfl, -⟩ := List.cons.inj hb
    exact hend

/-! ### What stays -/

/-- A send task keeps its call and its frame. -/
lemma sendTask_stays (h : Step s e s') (hs : s.Consistent) {i : ℕ} {task : SendTask}
    (ht : s.sendTasks i = some task) :
    ∃ state, s'.sendTasks i = some { task with state := state } := by
  have hc := h.sendTasks_cases i
  generalize s'.sendTasks i = t at hc
  cases hc with
  | same ht' => exact ⟨task.state, ht'.trans ht⟩
  | create hi =>
    rw [(hs.unborn i hi.ge).1] at ht
    cases ht
  | cancel _ _ ht' | start ht' | unwind ht' | finish ht' =>
    rw [ht] at ht'
    cases ht'
    exact ⟨_, rfl⟩

private lemma of_cancelSend {i i' : ℕ} {task : SendTask}
    (ht : (s.cancelSend i').sendTasks i = some task) :
    ∃ state, s.sendTasks i = some { task with state := state } := by
  by_cases hi : i = i'
  · subst hi
    simp only [State.cancelSend, Function.update_self, Option.map_eq_some_iff] at ht
    obtain ⟨task', ht', rfl⟩ := ht
    exact ⟨task'.state, ht'⟩
  · simp only [State.cancelSend, Function.update_of_ne hi] at ht
    exact ⟨task.state, ht⟩

private lemma of_interrupt {c i : ℕ} {cn : Cancellation} {fl : Flight} {task : SendTask}
    (ht : (s.interrupt c cn fl).sendTasks i = some task) :
    ∃ state, s.sendTasks i = some { task with state := state } := by
  unfold State.interrupt at ht
  split at ht
  · split_ifs at ht
    · exact ⟨task.state, ht⟩
    · exact of_cancelSend ht
  · split_ifs at ht <;> exact ⟨task.state, ht⟩
  · exact ⟨task.state, ht⟩

private lemma of_setSend {i i' : ℕ} {task task' : SendTask} {state : TaskState Exc}
    (ht' : s.sendTasks i' = some task') (ht : (s.setSend i' task' state).sendTasks i = some task) :
    ∃ state, s.sendTasks i = some { task with state := state } := by
  by_cases hi : i = i'
  · subst hi
    simp only [State.setSend, Function.update_self, Option.some.injEq] at ht
    subst ht
    exact ⟨task'.state, ht'⟩
  · simp only [State.setSend, Function.update_of_ne hi] at ht
    exact ⟨task.state, ht⟩

private lemma of_goesOn {t : State β} {c n i : ℕ} {cn : Cancellation} {j : Job}
    {k : Except Exc j.Value → Program (Except Exc β)} (hg : t.GoesOn c cn j k n s')
    {task : SendTask} (ht : s'.sendTasks i = some task) :
    t.sendTasks i = some task ∨ ∃ k fl, s'.lock = some (.delivering task.call j k n fl) ∧
      j.frames[n]? = some task.frame := by
  cases hg with
  | release => exact .inl ht
  | launch hj =>
    by_cases hi : i = t.nextId
    · subst hi
      simp only [State.launch, Function.update_self, Option.some.injEq] at ht
      subst ht
      exact .inr ⟨_, _, rfl, hj⟩
    · simp only [State.launch, Function.update_of_ne hi] at ht
      exact .inl ht

/-- A send task was there before a step, or it carries the frame that is delivered after it. -/
lemma sendTask_origin (h : Step s e s') {i : ℕ} {task : SendTask}
    (ht : s'.sendTasks i = some task) :
    (∃ state, s.sendTasks i = some { task with state := state }) ∨
      ∃ j k n fl, s'.lock = some (.delivering task.call j k n fl) ∧
        j.frames[n]? = some task.frame := by
  cases h with
  | enter =>
    rcases of_goesOn (s.goesOn_enter _ _ _ _) ht with ht' | ⟨k, fl, hl, hj⟩
    · exact .inl ⟨task.state, ht'⟩
    · exact .inr ⟨_, k, _, fl, hl, hj⟩
  | next =>
    rcases of_goesOn (State.goesOn_nextFrame _ _ _ _ _ _) ht with ht' | ⟨k, fl, hl, hj⟩
    · exact .inl (of_cancelSend ht')
    · exact .inr ⟨_, k, _, fl, hl, hj⟩
  | reply | failed | raised | collect => exact .inl (of_cancelSend ht)
  | cancel | expire =>
    obtain ⟨state, ht'⟩ := of_interrupt ht
    exact .inl ⟨state, ht'⟩
  | sendStart ht' | sendUnwind ht' | sendEnd ht' => exact .inl (of_setSend ht' ht)
  | _ => exact .inl ⟨task.state, ht⟩

/-- A send that is done stays done. -/
lemma sendTask_done (h : Step s e s') (hs : s.Consistent) {i : ℕ} {task : SendTask}
    {o : Outcome Exc} (ht : s.sendTasks i = some task) (ho : task.state = .done o) :
    s'.sendTasks i = some task := by
  obtain ⟨c, frame, state⟩ := task
  subst ho
  have hc := h.sendTasks_cases i
  generalize s'.sendTasks i = t at hc
  cases hc with
  | same ht' => exact ht'.trans ht
  | create hi =>
    rw [(hs.unborn i hi.ge).1] at ht
    cases ht
  | cancel _ _ ht' =>
    rw [ht] at ht'
    cases ht'
    rfl
  | start ht' hc | unwind ht' hc | finish ht' hc =>
    rw [ht] at ht'
    cases ht'
    cases hc

/-! ### Steps of one call -/

/-- What a step of a call that is not inside does. -/
inductive Outside (s : State β) (c : ℕ) (cn : Cancellation) :
    Phase β → Event β → State β → Prop
  | begin {p} (hm : cn.mustCancel = false) :
      Outside s c cn (.fresh p) (.run c) (s.setPhase c (.running p) cn)
  | skip {p} (hm : cn.mustCancel = true) :
      Outside s c cn (.fresh p) (.run c)
        (s.setPhase c (.finished (.error .cancelledError)) ⟨cn.requests, false⟩)
  | cancelFresh {p} :
      Outside s c cn (.fresh p) (.cancel c) (s.setPhase c (.fresh p) ⟨cn.requests + 1, true⟩)
  | finish {r} : Outside s c cn (.running (.pure r)) (.run c) (s.setPhase c (.finished r) cn)
  | getPassword {k} :
      Outside s c cn (.running (.op .getPassword k)) (.run c)
        (s.setPhase c (.running (k s.password)) cn)
  | setPassword {password k} :
      Outside s c cn (.running (.op (.setPassword password) k)) (.run c)
        { s.setPhase c (.running (k ())) cn with password := some password }
  | refuse {j k} (hu : s.connected = false) :
      Outside s c cn (.running (.op (.locked j) k)) (.run c)
        (s.setPhase c (.running (k (.error (.spinEv .connection "not connected")))) cn)
  | queue {j k} (hu : s.connected = true) :
      Outside s c cn (.running (.op (.locked j) k)) (.run c) (s.setPhase c (.queued j k) cn)
  | giveUp {j k} (hm : cn.mustCancel = true) :
      Outside s c cn (.queued j k) (.run c)
        (s.setPhase c (.running (k (.error .cancelledError))) ⟨cn.requests, false⟩)
  | enter {j k} (hm : cn.mustCancel = false) (hl : s.lock = none) :
      Outside s c cn (.queued j k) (.run c) (s.enter c cn j k)
  | cancelQueued {j k} :
      Outside s c cn (.queued j k) (.cancel c)
        (s.setPhase c (.queued j k) ⟨cn.requests + 1, true⟩)

lemma outside (h : Step s e s') (hs : s.Consistent) {c : ℕ} (he : e.call = some c)
    {phase : Phase β} {cn : Cancellation} (hc : s.calls c = some ⟨phase, cn⟩)
    (hp : phase ≠ .inside) : Outside s c cn phase e s' := by
  have hout : ∀ hd, s.lock = some hd → hd.call ≠ c := by
    rintro hd hl rfl
    obtain ⟨cn', hc'⟩ := hs.owner hd hl
    cases hc.symm.trans hc'
    exact hp rfl
  cases h with
  | spawn hc' =>
    cases he
    cases hc.symm.trans hc'
  | begin hc' hm =>
    cases he
    cases hc.symm.trans hc'
    exact .begin hm
  | skip hc' hm =>
    cases he
    cases hc.symm.trans hc'
    exact .skip hm
  | finish hc' =>
    cases he
    cases hc.symm.trans hc'
    exact .finish
  | getPassword hc' =>
    cases he
    cases hc.symm.trans hc'
    exact .getPassword
  | setPassword hc' =>
    cases he
    cases hc.symm.trans hc'
    exact .setPassword
  | refuse hc' hu =>
    cases he
    cases hc.symm.trans hc'
    exact .refuse hu
  | queue hc' hu =>
    cases he
    cases hc.symm.trans hc'
    exact .queue hu
  | giveUp hc' hm =>
    cases he
    cases hc.symm.trans hc'
    exact .giveUp hm
  | enter hc' hm hl =>
    cases he
    cases hc.symm.trans hc'
    exact .enter hm hl
  | cancelFresh hc' =>
    cases he
    cases hc.symm.trans hc'
    exact .cancelFresh
  | cancelQueued hc' =>
    cases he
    cases hc.symm.trans hc'
    exact .cancelQueued
  | awaitSend _ hl | awaitReply _ hl | reply _ hl | failed _ hl | raised _ hl | next _ hl
  | collect _ hl | wake _ hl | stop _ hl | idle _ hl | cancelCollecting _ hl | cancel _ hl
  | expire _ hl =>
    cases he
    exact absurd rfl (hout _ hl)
  | link | sendStart | sendUnwind | sendEnd | record | answer | ignore | disconnect => cases he

/-- What a step of the call that delivers frame `n` of job `j` does. -/
inductive Delivering (s : State β) (c n : ℕ) (fl : Flight) (cn : Cancellation) (task : SendTask) :
    (j : Job) → (Except Exc j.Value → Program (Except Exc β)) → Event β → State β → Prop
  | awaitSend {j k}
      (hd : Delivery.resume fl.point cn.mustCancel task.state (s.futures fl.id) = .awaitSend) :
      Delivering s c n fl cn task j k (.run c)
        { s with lock := some (.delivering c j k n { fl with point := .send }) }
  | awaitReply {frame register k}
      (hd : Delivery.resume fl.point cn.mustCancel task.state (s.futures fl.id) = .delivered)
      (hf : s.futures fl.id = .pending) (hp : fl.point ≠ .reply) :
      Delivering s c n fl cn task (.request frame register) k (.run c) { s with
        lock := some (.delivering c (.request frame register) k n { fl with point := .reply }) }
  | reply {frame register k payload}
      (hd : Delivery.resume fl.point cn.mustCancel task.state (s.futures fl.id) = .delivered)
      (hf : s.futures fl.id = .result payload) :
      Delivering s c n fl cn task (.request frame register) k (.run c)
        ((s.land (.request frame register) fl.id).release c (fl.scope.exit cn.requests).1
          (.request frame register) k (.ok payload))
  | failed {frame register k x}
      (hd : Delivery.resume fl.point cn.mustCancel task.state (s.futures fl.id) = .delivered)
      (hf : s.futures fl.id = .exception x ∨ s.futures fl.id = .cancelled ∧ x = .cancelledError) :
      Delivering s c n fl cn task (.request frame register) k (.run c)
        (s.abandon c cn.requests (.request frame register) k frame fl x)
  | raised {j k x}
      (hd : Delivery.resume fl.point cn.mustCancel task.state (s.futures fl.id) = .raised x) :
      Delivering s c n fl cn task j k (.run c) (s.abandon c cn.requests j k task.frame fl x)
  | next {frames k}
      (hd : Delivery.resume fl.point cn.mustCancel task.state (s.futures fl.id) = .delivered) :
      Delivering s c n fl cn task (.writeFrames frames) k (.run c)
        ((s.land (.writeFrames frames) fl.id).nextFrame c
          ⟨(fl.scope.exit cn.requests).1, false⟩ frames k (n + 1))
  | collect {count k}
      (hd : Delivery.resume fl.point cn.mustCancel task.state (s.futures fl.id) = .delivered) :
      Delivering s c n fl cn task (.history count) k (.run c)
        { (s.land (.history count) fl.id).setPhase c .inside
          ⟨(fl.scope.exit cn.requests).1, false⟩ with lock := some (.collecting c count k) }
  | cancel {j k} : Delivering s c n fl cn task j k (.cancel c) (s.interrupt c cn fl)
  | expire {j k} (hx : fl.scope.expiring = false) :
      Delivering s c n fl cn task j k (.expire c)
        ({ s with lock := some (.delivering c j k n fl.expire) }.interrupt c cn fl.expire)

lemma delivering (h : Step s e s') {c n : ℕ} {fl : Flight} {cn : Cancellation} {task : SendTask}
    {j : Job} {k : Except Exc j.Value → Program (Except Exc β)} (he : e.call = some c)
    (hc : s.calls c = some ⟨.inside, cn⟩) (hl : s.lock = some (.delivering c j k n fl))
    (ht : s.sendTasks fl.id = some task) : Delivering s c n fl cn task j k e s' := by
  cases h with
  | awaitSend hc' hl' ht' hd =>
    cases hl.symm.trans hl'
    cases hc.symm.trans hc'
    cases ht.symm.trans ht'
    exact .awaitSend hd
  | awaitReply hc' hl' ht' hd hf hp =>
    cases hl.symm.trans hl'
    cases hc.symm.trans hc'
    cases ht.symm.trans ht'
    exact .awaitReply hd hf hp
  | reply hc' hl' ht' hd hf =>
    cases hl.symm.trans hl'
    cases hc.symm.trans hc'
    cases ht.symm.trans ht'
    exact .reply hd hf
  | failed hc' hl' ht' hd hf =>
    cases hl.symm.trans hl'
    cases hc.symm.trans hc'
    cases ht.symm.trans ht'
    exact .failed hd hf
  | raised hc' hl' ht' hd =>
    cases hl.symm.trans hl'
    cases hc.symm.trans hc'
    cases ht.symm.trans ht'
    exact .raised hd
  | next hc' hl' ht' hd =>
    cases hl.symm.trans hl'
    cases hc.symm.trans hc'
    cases ht.symm.trans ht'
    exact .next hd
  | collect hc' hl' ht' hd =>
    cases hl.symm.trans hl'
    cases hc.symm.trans hc'
    cases ht.symm.trans ht'
    exact .collect hd
  | cancel hc' hl' =>
    cases hl.symm.trans hl'
    cases hc.symm.trans hc'
    exact .cancel
  | expire hc' hl' hx =>
    cases hl.symm.trans hl'
    cases hc.symm.trans hc'
    exact .expire hx
  | wake _ hl' | stop _ hl' | idle _ hl' | cancelCollecting _ hl' =>
    cases he
    cases hl.symm.trans hl'
  | spawn hc' | begin hc' | skip hc' | finish hc' | getPassword hc' | setPassword hc' | refuse hc'
  | queue hc' | giveUp hc' | enter hc' | cancelFresh hc' | cancelQueued hc' =>
    cases he
    cases hc.symm.trans hc'
  | link | sendStart | sendUnwind | sendEnd | record | answer | ignore | disconnect => cases he

end Step

/-- A call that delivers a frame can go on unless its delivery is blocked, or the reply of a
delivered frame is yet to come. -/
lemma State.exists_run {c n : ℕ} {j : Job} {k : Except Exc j.Value → Program (Except Exc β)}
    {fl : Flight} {cn : Cancellation} {task : SendTask}
    (hc : s.calls c = some ⟨.inside, cn⟩) (hl : s.lock = some (.delivering c j k n fl))
    (ht : s.sendTasks fl.id = some task)
    (hd : Delivery.resume fl.point cn.mustCancel task.state (s.futures fl.id) ≠ .blocked)
    (hr : fl.point = .reply → cn.mustCancel = true ∨ s.futures fl.id ≠ .pending) :
    ∃ s', s.step (.run c) = some s' := by
  simp only [State.step, State.runCall, hc, Option.bind_eq_bind, Option.bind_some, hl, if_true,
    State.runDelivering, ht]
  cases hdel : Delivery.resume fl.point cn.mustCancel task.state (s.futures fl.id) with
  | blocked => exact absurd hdel hd
  | awaitSend => exact ⟨_, rfl⟩
  | raised e => exact ⟨_, rfl⟩
  | delivered =>
    have hm := Delivery.mustCancel_of_delivered hdel
    cases j with
    | request frame register =>
      cases hf : s.futures fl.id with
      | pending =>
        by_cases hp : fl.point = .reply
        · simp [hm, hf] at hr
          exact absurd hp hr
        · simp [hp]
      | _ => exact ⟨_, rfl⟩
    | writeFrames frames => exact ⟨_, rfl⟩
    | history count => exact ⟨_, rfl⟩

section Runs

variable {timeoutHint : Option String} {password : Option ℤ} {P : State β → Event β → Prop}
  {es : List (Event β)} {t : State β}

/-- A flight carries the same frame of the same job as long as it lasts. -/
theorem flight_stays (h : Run (machine β timeoutHint password) P s es t) (hs : s.Consistent)
    {c : ℕ} {j : Job} {k : Except Exc j.Value → Program (Except Exc β)} {n : ℕ} {fl : Flight}
    (hl : s.lock = some (.delivering c j k n fl)) {c' : ℕ} {j' : Job}
    {k' : Except Exc j'.Value → Program (Except Exc β)} {n' : ℕ} {fl' : Flight}
    (hl' : t.lock = some (.delivering c' j' k' n' fl')) (hid : fl'.id = fl.id) :
    t.lock = some (.delivering c j k n fl') := by
  let I (u : State β) : Prop := fl.id < u.nextId ∧
    ∀ c' j' k' n' fl', u.lock = some (.delivering c' j' k' n' fl') → fl'.id = fl.id →
      u.lock = some (.delivering c j k n fl')
  have hstep : ∀ u e v, u.Consistent → I u → P u e → Step u e v → I v := by
    rintro u e v - ⟨hlt, hu⟩ - hst
    refine ⟨hlt.trans_le hst.nextId_le, fun c' j' k' n' fl' hv hid => ?_⟩
    rcases hst.lock_cases hv with ⟨fl'', hu', hid'⟩ | hnew
    · have := hu _ _ _ _ _ hu' (hid'.trans hid)
      rw [hu'] at this
      cases this
      exact hv
    · omega
  have hI : I s := by
    refine ⟨by have := (hs.flying _ _ _ _ _ hl).newest; omega, fun c' j' k' n' fl' hl' _ => ?_⟩
    rw [hl] at hl'
    cases hl'
    exact hl
  exact (invariant_of_run hstep h hs hI).2 _ _ _ _ _ hl' hid

/-- No job ends as long as a flight lasts. -/
theorem blocks_stay (h : Run (machine β timeoutHint password) P s es t) (hs : s.Consistent)
    {c : ℕ} {j : Job} {k : Except Exc j.Value → Program (Except Exc β)} {n : ℕ} {fl : Flight}
    (hl : s.lock = some (.delivering c j k n fl)) {c' : ℕ} {j' : Job}
    {k' : Except Exc j'.Value → Program (Except Exc β)} {n' : ℕ} {fl' : Flight}
    (hl' : t.lock = some (.delivering c' j' k' n' fl')) (hid : fl'.id = fl.id) :
    t.blocks = s.blocks := by
  let I (u : State β) : Prop := fl.id < u.nextId ∧
    ∀ c' j' k' n' fl', u.lock = some (.delivering c' j' k' n' fl') → fl'.id = fl.id →
      u.blocks = s.blocks
  have hstep : ∀ u e v, u.Consistent → I u → P u e → Step u e v → I v := by
    rintro u e v - ⟨hlt, hu⟩ - hst
    refine ⟨hlt.trans_le hst.nextId_le, fun c' j' k' n' fl' hv hid => ?_⟩
    rcases hst.lock_cases hv with ⟨fl'', hu', hid'⟩ | hnew
    · exact (hst.blocks_of_lock hv).trans (hu _ _ _ _ _ hu' (hid'.trans hid))
    · omega
  have hI : I s := by
    have hnewest := (hs.flying _ _ _ _ _ hl).newest
    exact ⟨by omega, fun _ _ _ _ _ _ _ => rfl⟩
  exact (invariant_of_run hstep h hs hI).2 _ _ _ _ _ hl' hid

/-- A call that goes on has no `CancelledError` waiting for it, in any run. -/
theorem mustCancel_of_run (h : ClientRun timeoutHint password P es s) {c : ℕ}
    {p : Program (Except Exc β)} {cn : Cancellation} (hc : s.calls c = some ⟨.running p, cn⟩) :
    cn.mustCancel = false := by
  let I (u : State β) : Prop :=
    ∀ c p cn, u.calls c = some ⟨.running p, cn⟩ → cn.mustCancel = false
  have hstep : ∀ u e v, I u → P u e → u.step e = some v → I v := fun u e v hu _ hst _ _ _ =>
    (Step.of_step hst).mustCancel_running hu
  exact h.invariant hstep (show I _ from fun _ _ _ h => by cases h) c p cn hc

/-- A future that is done stays as it is. -/
theorem future_stays (h : Run (machine β timeoutHint password) P s es t) {i : ℕ}
    (hd : s.futures i ≠ .pending) : t.futures i = s.futures i := by
  let I (u : State β) : Prop := u.futures i = s.futures i
  have hstep : ∀ u e v, I u → P u e → u.step e = some v → I v := fun u e v hu _ hst =>
    ((Step.of_step hst).future_done (Eq.trans_ne hu hd)).trans hu
  exact h.invariant hstep (show I s from rfl)

end Runs

end SpinevBle
