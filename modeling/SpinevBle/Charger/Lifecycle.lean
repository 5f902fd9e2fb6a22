import SpinevBle.Charger.Cancellation
import SpinevBle.Charger.Matching

/-!
# The life of a request

However a request ends, it leaves the client as it found it, and there are three ways to end.
-/

namespace SpinevBle

open Asyncio Interaction Transition

variable {β : Type} {s s' : State β} {e : Event β} {timeoutHint : Option String}
  {password : Option ℤ} {es : List (Event β)}

/-! ### What leaves an exchange -/

namespace Job

variable {j : Job} {frame : Frame} {hint : Option String}

@[simp] lemma translate_cancelledError : j.translate frame hint .cancelledError = .cancelledError :=
  rfl

/-- Every `Exception` becomes a `SpinEvError`. -/
lemma isSpinEvError_translate {x : Exc} (hx : x ≠ .cancelledError) :
    (j.translate frame hint x).isSpinEvError = true := by
  cases x with
  | spinEv cls m => rfl
  | builtin cls m => cases cls <;> rfl
  | cancelledError => exact absurd rfl hx

end Job

/-- A `CancelledError` that leaves the `asyncio.timeout` block was there before, and it is not the
deadline's. -/
lemma leaveScope_eq_cancelledError {scope : Timeout} {requests : ℕ} {x : Exc}
    (h : (leaveScope scope requests x).2 = .cancelledError) :
    x = .cancelledError ∧ (scope.expiring = true → scope.cancelling < requests - 1) := by
  unfold leaveScope Timeout.exit at h
  cases hx : scope.expiring with
  | false => simp_all
  | true =>
    simp only [hx, if_true, decide_eq_true_eq] at h
    split_ifs at h with hc
    refine ⟨h, fun _ => ?_⟩
    by_contra hle
    exact hc ⟨by omega, h⟩

/-- Awaiting a send raises `CancelledError` only if the send was cancelled. -/
lemma cancelled_of_ofOutcome {o : Outcome Exc}
    (h : Delivery.ofOutcome o = .raised .cancelledError) : Cancelled (.done o) := by
  cases o with
  | returned => cases h
  | raised x =>
    cases h
    trivial
  | cancelled => trivial

/-- A delivery raises `CancelledError` only where something was cancelled. -/
lemma cancelled_of_raises {cn : Cancellation} {j : Job} {fl : Flight} {task : SendTask}
    (hf : ∀ x, s.futures fl.id = .exception x → x = State.dropped)
    (h : Step.Raises s cn j fl task .cancelledError) :
    cn.mustCancel = true ∨ Cancelled task.state ∨ s.futures fl.id = .cancelled := by
  have hne : s.futures fl.id ≠ .exception .cancelledError := fun he => by
    cases hf _ he
  rcases h with h | ⟨-, -, h | ⟨h, -⟩⟩
  · rcases Delivery.raised_cases h with ⟨hm, -⟩ | ⟨o, ho, h⟩ | ⟨-, -, h | ⟨h, -⟩⟩
    · exact .inl hm
    · exact .inr (.inl (ho ▸ cancelled_of_ofOutcome h))
    · exact absurd h hne
    · exact .inr (.inr h)
  · exact absurd h hne
  · exact .inr (.inr h)

/-! ### Exchanges -/

/-- Call `c` is in `_exchange`, and `k` is what its method does with the outcome: it has yet to
check the connection, or it waits for the lock, or for its frame and its reply. -/
inductive State.Exchanging (s : State β) (c : ℕ) (frame : Frame) (register : UInt8)
    (k : Except Exc Bytes → Program (Except Exc β)) : Prop
  | entered {cn} (hc : s.calls c = some ⟨.running (.op (.locked (.request frame register)) k), cn⟩)
  | queued {cn} (hc : s.calls c = some ⟨.queued (.request frame register) k, cn⟩)
  | delivering {n fl} (hl : s.lock = some (.delivering c (.request frame register) k n fl))

/-- The caller has cancelled call `c` while it was in this exchange. -/
inductive State.ExchangeAsked (s : State β) (c : ℕ) (frame : Frame) (register : UInt8)
    (k : Except Exc Bytes → Program (Except Exc β)) : Prop
  | queued {cn} (hc : s.calls c = some ⟨.queued (.request frame register) k, cn⟩)
      (hm : cn.mustCancel = true)
  | delivering {n i} (ha : s.Asked c (.request frame register) k n i)

/-- The outcomes of an exchange that ends with a step from `s`. -/
inductive ExchangeEnd (s : State β) (c : ℕ) (frame : Frame) (register : UInt8)
    (k : Except Exc Bytes → Program (Except Exc β)) : Except Exc Bytes → Prop
  | replied {payload i task} (hr : s.Requesting c frame register i)
      (hf : s.futures i = .result payload) (ht : s.sendTasks i = some task)
      (hd : task.state = .done .returned) : ExchangeEnd s c frame register k (.ok payload)
  | failed {x : Exc} (hx : x.isSpinEvError = true) :
      ExchangeEnd s c frame register k (.error x)
  | cancelled (ha : s.ExchangeAsked c frame register k) :
      ExchangeEnd s c frame register k (.error .cancelledError)

/-- What a step of call `c` makes of its exchange. -/
abbrev ExchangeStep (s s' : State β) (c : ℕ) (frame : Frame) (register : UInt8)
    (k : Except Exc Bytes → Program (Except Exc β)) : Prop :=
  s'.Exchanging c frame register k ∨
    ∃ r cn, s'.calls c = some ⟨.running (k r), cn⟩ ∧ ExchangeEnd s c frame register k r ∧
      (s'.lock = none ∨ s'.lock = s.lock ∧ ∀ cn, s.calls c ≠ some ⟨.inside, cn⟩)

section

variable {c : ℕ} {frame : Frame} {register : UInt8}
  {k : Except Exc Bytes → Program (Except Exc β)} {cn : Cancellation}

/-- A delivery that ends with `CancelledError` was cancelled by the caller. -/
lemma asked_of_raises (hs : s.Consistent) (ha : s.Attributes) {j : Job}
    {k : Except Exc j.Value → Program (Except Exc β)} {n : ℕ} {fl : Flight} {task : SendTask}
    (hc : s.calls c = some ⟨.inside, cn⟩) (hl : s.lock = some (.delivering c j k n fl))
    (ht : s.sendTasks fl.id = some task) {x : Exc} (hr : Step.Raises s cn j fl task x)
    (hx : (leaveScope fl.scope cn.requests x).2 = .cancelledError) : s.Asked c j k n fl.id := by
  obtain ⟨rfl, hexp⟩ := leaveScope_eq_cancelledError hx
  have hat := ha _ _ _ _ _ _ _ hl hc ht
  have hlt : fl.scope.cancelling < cn.requests := by
    rcases cancelled_of_raises (hs.flying _ _ _ _ _ hl).dropped hr with h | h | h
    · exact hat.mustCancel h
    · exact hat.ofSend h
    · exact hat.ofFuture h
  refine ⟨fl, cn, hl, rfl, hc, ?_⟩
  unfold Flight.due
  split_ifs with hxp
  · have := hexp hxp
    omega
  · simpa using hlt

private lemma end_of_raises (hs : s.Consistent) (ha : s.Attributes) {n : ℕ} {fl : Flight}
    {task : SendTask} (hc : s.calls c = some ⟨.inside, cn⟩)
    (hl : s.lock = some (.delivering c (.request frame register) k n fl))
    (ht : s.sendTasks fl.id = some task) {x : Exc}
    (hr : Step.Raises s cn (.request frame register) fl task x) (frame' : Frame) :
    ExchangeEnd s c frame register k (.error ((Job.request frame register).translate frame'
      s.timeoutHint (leaveScope fl.scope cn.requests x).2)) := by
  by_cases hx : (leaveScope fl.scope cn.requests x).2 = .cancelledError
  · rw [hx]
    exact .cancelled (.delivering (asked_of_raises hs ha hc hl ht hr hx))
  · exact .failed (Job.isSpinEvError_translate hx)

private lemma entered_step (hst : Step s e s') (hs : s.Consistent) (he : e.call = some c)
    (hc : s.calls c = some ⟨.running (.op (.locked (.request frame register)) k), cn⟩) :
    ExchangeStep s s' c frame register k := by
  cases hst.outside hs he hc (fun h => by cases h) with
  | refuse hu =>
    exact .inr ⟨_, _, Function.update_self _ _ _, .failed rfl, .inr ⟨rfl, by simp [hc]⟩⟩
  | queue hu => exact .inl (.queued (Function.update_self _ _ _))

private lemma queued_step (hst : Step s e s') (hs : s.Consistent) (he : e.call = some c)
    (hc : s.calls c = some ⟨.queued (.request frame register) k, cn⟩) :
    ExchangeStep s s' c frame register k := by
  cases hst.outside hs he hc (fun h => by cases h) with
  | giveUp hm =>
    exact .inr ⟨_, _, Function.update_self _ _ _, .cancelled (.queued hc hm),
      .inr ⟨rfl, by simp [hc]⟩⟩
  | enter => exact .inl (.delivering rfl)
  | cancelQueued => exact .inl (.queued (Function.update_self _ _ _))

private lemma delivering_step (hst : Step s e s') (hs : s.Consistent) (ha : s.Attributes)
    (he : e.call = some c) {n : ℕ} {fl : Flight}
    (hl : s.lock = some (.delivering c (.request frame register) k n fl)) :
    ExchangeStep s s' c frame register k := by
  have hfl := hs.flying _ _ _ _ _ hl
  obtain ⟨cn, hc⟩ := hfl.call
  obtain ⟨frame', state, -, ht⟩ := hfl.task
  cases hst.delivering he hc hl ht with
  | awaitSend | awaitReply => exact .inl (.delivering rfl)
  | reply hd hf =>
    exact .inr ⟨_, _, Function.update_self _ _ _,
      .replied ⟨_, _, _, hl, rfl⟩ hf ht (Step.returned_of_delivered hs hl ht hd), .inl rfl⟩
  | failed hd hf =>
    have hend := end_of_raises hs ha hc hl ht (.inr ⟨hd, ⟨_, _, rfl⟩, hf⟩) frame
    exact .inr ⟨_, _, Function.update_self _ _ _, hend, .inl rfl⟩
  | raised hd =>
    have hend := end_of_raises hs ha hc hl ht (.inl hd) frame'
    exact .inr ⟨_, _, Function.update_self _ _ _, hend, .inl rfl⟩
  | cancel => exact .inl (.delivering ((State.interrupt_lock _ _ _ _).trans hl))
  | expire => exact .inl (.delivering (State.interrupt_lock _ _ _ _))

/-- An exchange goes on, or it ends in one of the three ways and leaves the lock. -/
lemma exchange_step (hst : Step s e s') (hs : s.Consistent) (ha : s.Attributes)
    (hx : s.Exchanging c frame register k) : ExchangeStep s s' c frame register k := by
  by_cases he : e.call = some c
  · cases hx with
    | entered hc => exact entered_step hst hs he hc
    | queued hc => exact queued_step hst hs he hc
    | delivering hl => exact delivering_step hst hs ha he hl
  · cases hx with
    | entered hc => exact .inl (.entered (hst.calls_frame he ▸ hc))
    | queued hc => exact .inl (.queued (hst.calls_frame he ▸ hc))
    | delivering hl => exact .inl (.delivering (hst.lock_frame hl he))

/-- A call that waits for the lock is cancelled by its caller. -/
lemma queuedAsked_of_step (hst : Step s e s')
    (hs : ∀ c p cn, s.calls c = some ⟨.running p, cn⟩ → cn.mustCancel = false) {j : Job}
    {k : Except Exc j.Value → Program (Except Exc β)} {cn : Cancellation}
    (hc : s'.calls c = some ⟨.queued j k, cn⟩) (hm : cn.mustCancel = true) :
    (∃ cn, s.calls c = some ⟨.queued j k, cn⟩ ∧ cn.mustCancel = true) ∨
      e = .cancel c ∧ ∃ cn, s.calls c = some ⟨.queued j k, cn⟩ := by
  have hchange := hst.calls_cases c
  rw [hc] at hchange
  cases hchange with
  | same ht => exact .inl ⟨cn, ht.symm, hm⟩
  | queue hc' => simp [hs _ _ _ hc'] at hm
  | cancelQueued hc' => exact .inr ⟨rfl, _, hc'⟩

/-- Whoever was cancelled by its caller, there was such a cancellation. -/
lemma exists_cancel (h : ClientRun timeoutHint password SendsEnd es s)
    (ha : s.ExchangeAsked c frame register k) :
    ∃ es₁ es₂ v, es = es₁ ++ .cancel c :: es₂ ∧
      ClientRun timeoutHint password SendsEnd es₁ v ∧ v.Exchanging c frame register k := by
  cases ha with
  | @queued cn hc hm =>
    obtain ⟨es₁, e, es₂, v, w, rfl, h₁, hv, -, hst, ⟨cn', hc', hm'⟩, -⟩ :=
      h.exists_step (fun u => ∃ cn, u.calls c = some ⟨.queued (.request frame register) k, cn⟩ ∧
        cn.mustCancel = true) (by rintro ⟨_, hl, -⟩; cases hl) ⟨cn, hc, hm⟩
    obtain hv' | ⟨rfl, cn'', hc''⟩ := queuedAsked_of_step (Step.of_step hst)
      (fun _ _ _ => mustCancel_of_run h₁) hc' hm'
    · exact absurd hv' hv
    · exact ⟨es₁, es₂, v, rfl, h₁, .queued hc''⟩
  | @delivering n i ha =>
    obtain ⟨es₁, e, es₂, v, w, rfl, h₁, hv, -, hst, hw, -⟩ :=
      h.exists_step (fun u => u.Asked c (.request frame register) k n i)
        (by rintro ⟨_, _, hl, -⟩; cases hl) ha
    rcases hw.of_step (State.consistent_of_run h₁) (Step.of_step hst) with hv' | ⟨rfl, fl, hl, -⟩
    · exact absurd hv' hv
    · exact ⟨es₁, es₂, v, rfl, h₁, .delivering hl⟩

/-! ### Deadlines -/

/-- A step of a call whose deadline has passed ends its exchange. -/
lemma ends_of_expiring (hst : Step s (.run c) s') (hs : s.Consistent) (ha : s.Attributes) {n : ℕ}
    {fl : Flight} (hl : s.lock = some (.delivering c (.request frame register) k n fl))
    (hx : fl.scope.expiring = true) : s'.lock = none := by
  have hfl := hs.flying _ _ _ _ _ hl
  obtain ⟨cn, hc⟩ := hfl.call
  obtain ⟨frame', state, -, ht⟩ := hfl.task
  cases hst.delivering rfl hc hl ht with
  | awaitSend hd =>
    obtain ⟨hp, hm, -⟩ := Delivery.result_of_awaitSend hd
    simp [(ha _ _ _ _ _ _ _ hl hc ht).atWait hx hp] at hm
  | awaitReply hd hf hp => exact absurd hx (ha.not_expiring hs hc hl ht hd hf hp)
  | reply | failed | raised => rfl

/-- Such a step is always possible, unless the call awaits a send that is not done. -/
lemma run_of_expiring (hs : s.Consistent) (ha : s.Attributes) {n : ℕ} {fl : Flight}
    (hl : s.lock = some (.delivering c (.request frame register) k n fl))
    (hx : fl.scope.expiring = true) :
    (∃ s', s.step (.run c) = some s') ∨
      fl.point = .send ∧ ∃ task, s.sendTasks fl.id = some task ∧ task.state.isDone = false := by
  obtain ⟨cn, hc⟩ := (hs.flying _ _ _ _ _ hl).call
  obtain ⟨frame', state, -, ht⟩ := (hs.flying _ _ _ _ _ hl).task
  have hat := ha _ _ _ _ _ _ _ hl hc ht
  by_cases hm : cn.mustCancel = true
  · exact .inl (State.exists_run hc hl ht (by simp [Delivery.resume, hm]) fun _ => .inl hm)
  · cases hp : fl.point with
    | wait => exact absurd (hat.atWait hx hp) hm
    | send =>
      cases hd : state.isDone with
      | false => exact .inr ⟨rfl, _, ht, hd⟩
      | true =>
        obtain ⟨o, rfl⟩ := TaskState.isDone_iff.1 hd
        refine .inl (State.exists_run hc hl ht ?_ (by simp [hp]))
        cases o <;> simp [Delivery.resume, hm, hp, Delivery.ofSend, Delivery.ofOutcome]
    | reply =>
      exact .inl (State.exists_run hc hl ht (by simp [Delivery.resume, hm, hp]) (hat.atReply hx))

/-- A deadline that has not passed can pass. -/
lemma expire_of_not_expiring (hs : s.Consistent) {n : ℕ} {fl : Flight}
    (hl : s.lock = some (.delivering c (.request frame register) k n fl))
    (hx : fl.scope.expiring = false) : ∃ s', s.step (.expire c) = some s' := by
  obtain ⟨cn, hc⟩ := (hs.flying _ _ _ _ _ hl).call
  simp [State.step, State.expireCall, hc, hl, hx]

end

/-! ### The tables -/

namespace State.Consistent

lemma length_add_card (hs : s.Consistent) : s.waiters.entries.length + s.sends.card ≤ 1 := by
  by_cases hl : ∃ c j k n fl, s.lock = some (.delivering c j k n fl)
  · obtain ⟨c, j, k, n, fl, hl⟩ := hl
    have ht := (hs.flying _ _ _ _ _ hl).tracked
    cases j with
    | request frame register =>
      obtain ⟨hs, hw | ⟨hw, -⟩⟩ := ht <;> simp [hs, hw]
    | writeFrames frames =>
      obtain ⟨hw, ⟨hs, -⟩ | ⟨hs, -⟩⟩ := ht <;> simp [hs, hw]
    | history count =>
      obtain ⟨hw, ⟨hs, -⟩ | ⟨hs, -⟩⟩ := ht <;> simp [hs, hw]
  · obtain ⟨hw, hs⟩ := hs.idle (by simpa using hl)
    simp [hw, hs]

/-- Only a drop completes an abort, and it empties the set. -/
lemma pending_of_mem_sends (hs : s.Consistent) {i : ℕ} (hi : i ∈ s.sends) :
    s.futures i = .pending := by
  obtain ⟨c, j, k, n, fl, hl, rfl⟩ := hs.mem_tables (.inr hi)
  have ht := (hs.flying _ _ _ _ _ hl).tracked
  cases j with
  | request frame register => simp [ht.1] at hi
  | writeFrames frames =>
    obtain ⟨-, ⟨-, hf⟩ | ⟨hs, -⟩⟩ := ht
    · exact hf
    · simp [hs] at hi
  | history count =>
    obtain ⟨-, ⟨-, hf⟩ | ⟨hs, -⟩⟩ := ht
    · exact hf
    · simp [hs] at hi

lemma exists_onDisconnect (hs : s.Consistent) : s.onDisconnect = .ok s.failAll := by
  unfold onDisconnect
  rw [if_neg]
  rintro ⟨i, hi, hd⟩
  simp [hs.pending_of_mem_sends hi] at hd

/-- The waiters left are those of other calls, once a call is out of the lock. -/
lemma requesting_of_lookup (hs : s.Consistent) {register : UInt8} {w : Waiter}
    (hw : s.waiters.lookup register = some w) :
    ∃ c frame, s.Requesting c frame register w.future := by
  obtain ⟨c, frame, k, n, fl, hl, rfl⟩ := hs.lookup hw
  exact ⟨c, frame, k, n, fl, hl, rfl⟩

end State.Consistent

/-- The life of a request, in every run in which sends end as they should. -/
theorem request_lifecycle (h : ClientRun timeoutHint password SendsEnd es s) :
    (s.waiters.entries.length + s.sends.card ≤ 1 ∧
      (s.lock = none → s.waiters = ∅ ∧ s.sends = ∅) ∧
      (∀ i ∈ s.sends, s.futures i = .pending) ∧ ∃ s', s.onDisconnect = .ok s') ∧
    (∀ c frame register k e s', s.Exchanging c frame register k → SendsEnd s e →
      s.step e = some s' →
      s'.Exchanging c frame register k ∨
        ∃ r cn, s'.calls c = some ⟨.running (k r), cn⟩ ∧
          ((∃ payload i task, r = .ok payload ∧ s.Requesting c frame register i ∧
              s.futures i = .result payload ∧ Answers payload register frame.flag ∧
              s.sendTasks i = some task ∧ task.state = .done .returned) ∨
            (∃ x, r = .error x ∧ x.isSpinEvError = true) ∨
            (r = .error .cancelledError ∧ ∃ es₁ es₂ v, es = es₁ ++ .cancel c :: es₂ ∧
              ClientRun timeoutHint password SendsEnd es₁ v ∧
              v.Exchanging c frame register k)) ∧
          (∀ hd, s'.lock = some hd → hd.call ≠ c) ∧
          ∀ register' w, s'.waiters.lookup register' = some w →
            ∃ c' frame', c' ≠ c ∧ s'.Requesting c' frame' register' w.future) ∧
    (∀ c frame register k n fl,
      s.lock = some (.delivering c (.request frame register) k n fl) →
      if fl.scope.expiring then
        (∀ s', s.step (.run c) = some s' → s'.lock = none) ∧
          ((∃ s', s.step (.run c) = some s') ∨ fl.point = .send ∧
            ∃ task, s.sendTasks fl.id = some task ∧ task.state.isDone = false)
      else ∃ s', s.step (.expire c) = some s') := by
  have hs := State.consistent_of_run h
  have ha := attributes_of_run h
  refine ⟨⟨hs.length_add_card, fun hl => hs.idle (by simp [hl]), fun i hi =>
    hs.pending_of_mem_sends hi, _, hs.exists_onDisconnect⟩,
    fun c frame register k e s' hx _ hst => ?_, fun c frame register k n fl hl => ?_⟩
  · have hst := Step.of_step hst
    rcases exchange_step hst hs ha hx with hx' | ⟨r, cn, hc, hend, hlock⟩
    · exact .inl hx'
    · have hout : ∀ hd, s'.lock = some hd → hd.call ≠ c := by
        rintro hd hl rfl
        rcases hlock with hl' | ⟨hl', hc'⟩
        · simp [hl'] at hl
        · obtain ⟨cn', hc''⟩ := hs.owner hd (hl' ▸ hl)
          exact hc' cn' hc''
      refine .inr ⟨r, cn, hc, ?_, hout, fun register' w hw => ?_⟩
      · cases hend with
        | replied hr hf ht hd =>
          obtain ⟨-, -, -, -, -, -, -, -, hans⟩ := answered_of_resolved h hr hf
          exact .inl ⟨_, _, _, rfl, hr, hf, hans, ht, hd⟩
        | failed hx => exact .inr (.inl ⟨_, rfl, hx⟩)
        | cancelled hask => exact .inr (.inr ⟨rfl, exists_cancel h hask⟩)
      · obtain ⟨c', frame', hr⟩ := (hs.step hst).requesting_of_lookup hw
        obtain ⟨k', n, fl, hl, -⟩ := id hr
        exact ⟨c', frame', hout _ hl, hr⟩
  · split_ifs with hx
    · exact ⟨fun s' hst => ends_of_expiring (Step.of_step hst) hs ha hl hx,
        run_of_expiring hs ha hl hx⟩
    · exact expire_of_not_expiring hs hl (by simpa using hx)

/-- The state is read, and the deadline passes after the frame was delivered. -/
def lateReplyEvents : List (Event ℕ) :=
  [.link true, .spawn 0 asyncGetStateValue 0, .run 0, .run 0, .run 0, .sendStart 0,
    .sendEnd 0 .returned, .run 0, .expire 0]

theorem request_lifecycle_late_reply :
    ∃ s : State ℕ, ClientRun none none SendsEnd lateReplyEvents s ∧
      s.waiters.entries.length + s.sends.card ≤ 1 ∧
      ∀ s', s.step (.run 0) = some s' → s'.lock = none := by
  have h : ClientRun none none SendsEnd lateReplyEvents _ := Run.of_exec rfl
  exact ⟨_, h, (request_lifecycle h).1.1, ((request_lifecycle h).2.2 _ _ _ _ _ _ rfl).1⟩

end SpinevBle
