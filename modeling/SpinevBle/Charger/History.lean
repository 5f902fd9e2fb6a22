import SpinevBle.Charger.Drop
import SpinevBle.Charger.Traces

/-!
# History reads and drops

A history read first delivers its frame, as any other write does, and then collects records until
none has come for a while. A drop that is noticed during the delivery fails the read. The
collection only wakes up for it, finds no record more, and returns what it has.
-/

namespace SpinevBle

open Asyncio Interaction Transition

variable {β : Type} {s s' t : State β} {e : Event β} {c : ℕ}

/-! ### Noticing a drop -/

/-- The client reports this exception of a send as a `SpinEvConnectionError`. -/
def Exc.meansConnection : Exc → Bool
  | .spinEv cls _ => cls = .connection
  | .builtin cls _ => cls ≠ .timeoutError
  | .cancelledError => false

lemma Exc.translate_of_meansConnection {x : Exc} (hx : x.meansConnection = true)
    (j : Job) (frame : Frame) (hint : Option String) (scope : Timeout) (requests : ℕ) :
    ∃ m, j.translate frame hint (leaveScope scope requests x).2 = .spinEv .connection m := by
  have hne : x ≠ .cancelledError := by
    rintro rfl
    cases hx
  have hleave : (leaveScope scope requests x).2 = x := by simp [leaveScope, hne]
  rw [hleave]
  cases x with
  | spinEv cls m =>
    obtain rfl : cls = .connection := by simpa [Exc.meansConnection] using hx
    exact ⟨m, rfl⟩
  | builtin cls m =>
    cases cls with
    | timeoutError => simp [Exc.meansConnection] at hx
    | _ => exact ⟨_, rfl⟩
  | cancelledError => cases hx

/-- The send gives its delivery no other news than that of a lost connection. -/
def newsOfDrop : TaskState Exc → Bool
  | .done (.raised x) => x.meansConnection
  | .done _ => false
  | _ => true

/-- If call `c` delivers the frame of a history read and a drop has failed its abort, the call is
not cancelled and its send has not ended otherwise. -/
def State.noticesDrop (s : State β) (c : ℕ) : Bool :=
  match s.lock, s.calls c with
  | some (.delivering c' (.history _) _ _ fl), some call =>
    if c' = c ∧ (s.futures fl.id).done then
      !call.cancellation.mustCancel && (s.sendTasks fl.id).all fun task => newsOfDrop task.state
    else true
  | _, _ => true

def State.isCollecting (s : State β) : Bool :=
  match s.lock with
  | some (.collecting _ _ _) => true
  | _ => false

/-- No drop comes during a collection, and one that comes before is noticed. -/
def DropsNoticed (s : State β) : Event β → Prop
  | .disconnect => s.isCollecting = false
  | .run c => s.noticesDrop c = true
  | _ => True

instance (s : State β) (e : Event β) : Decidable (DropsNoticed s e) :=
  match e with
  | .disconnect => inferInstanceAs (Decidable (s.isCollecting = false))
  | .run c => inferInstanceAs (Decidable (s.noticesDrop c = true))
  | .spawn .. | .cancel _ | .expire _ | .idle _ | .sendStart _ | .sendUnwind _
  | .sendEnd .. | .notify _ | .link _ => .isTrue trivial

/-! ### What a history call runs -/

/-- A history call is one operation. -/
lemma run_asyncGetHistory (f : List ChargingSession → β) (count : ℤ) :
    (f <$> asyncGetHistory count).run =
      .op (.locked (.history count)) fun r => .pure (r.map (f ∘ distinctSessions)) := by
  refine congrArg (Prog.op (Op.locked (.history count))) (funext fun r => ?_)
  cases r <;> rfl

/-! ### The read after a drop -/

/-- Call `c` has nothing left to do but end with `r`. -/
def State.EndsWith (s : State β) (c : ℕ) (r : Except Exc β) : Prop :=
  ∃ phase cn, s.calls c = some ⟨phase, cn⟩ ∧ (phase = .running (.pure r) ∨ phase = .finished r)

lemma State.EndsWith.step {r : Except Exc β} (h : s.EndsWith c r) (hs : s.Consistent)
    (hst : Step s e s') : s'.EndsWith c r := by
  obtain ⟨phase, cn, hc, hp⟩ := h
  by_cases hcall : e.call = some c
  · have hout := hst.outside hs hcall hc (by rcases hp with rfl | rfl <;> simp)
    rcases hp with rfl | rfl
    · cases hout with
      | finish => exact ⟨_, _, Function.update_self _ _ _, .inr rfl⟩
    · cases hout
  · exact ⟨phase, cn, (hst.calls_frame hcall).trans hc, hp⟩

/-- Call `c` delivers the frame of a history read, and a drop has failed its abort. -/
def State.Dropped (s : State β) (c : ℕ) (count : ℤ)
    (k : Except Exc (List Bytes) → Program (Except Exc β)) : Prop :=
  ∃ n fl, s.lock = some (.delivering c (.history count) k n fl) ∧
    s.futures fl.id = .exception State.dropped

/-- A drop fails the abort of a history read. -/
lemma State.Dropped.of_disconnect (hst : Step s .disconnect s') (hs : s.Consistent) {count : ℤ}
    {k : Except Exc (List Bytes) → Program (Except Exc β)} {n : ℕ} {fl : Flight}
    (hl : s.lock = some (.delivering c (.history count) k n fl)) : s'.Dropped c count k := by
  have hfl := hs.flying _ _ _ _ _ hl
  cases hst with
  | disconnect =>
    refine ⟨n, fl, hl, ?_⟩
    rw [hfl.failAll_futures]
    obtain ⟨-, ⟨-, hf⟩ | ⟨-, hf⟩⟩ := hfl.tracked <;> rw [hf] <;> rfl

private lemma meansConnection_of_raised {point : Point} {send : TaskState Exc} {x : Exc}
    (hd : Delivery.resume point false send (.exception State.dropped) = .raised x)
    (hn : newsOfDrop send = true) : x.meansConnection = true := by
  rcases Delivery.raised_cases hd with ⟨hm, -⟩ | ⟨o, rfl, hx⟩ | ⟨-, -, hx | ⟨hx, -⟩⟩
  · cases hm
  · cases o with
    | returned => cases hx
    | raised x =>
      cases hx
      exact hn
    | cancelled => cases hn
  · cases hx
    rfl
  · cases hx

/-- The step that resumes the read raises what it was told. -/
lemma State.Dropped.run (hst : Step s (.run c) s') (hs : s.Consistent)
    (hn : s.noticesDrop c = true) {count : ℤ}
    {k : Except Exc (List Bytes) → Program (Except Exc β)} (h : s.Dropped c count k) :
    ∃ m cn, s'.calls c = some ⟨.running (k (.error (.spinEv .connection m))), cn⟩ := by
  obtain ⟨n, fl, hl, hf⟩ := h
  have hfl := hs.flying _ _ _ _ _ hl
  obtain ⟨cn, hc⟩ := hfl.call
  obtain ⟨frame, state, -, ht⟩ := hfl.task
  obtain ⟨hm, hnews⟩ : cn.mustCancel = false ∧ newsOfDrop state = true := by
    simpa [State.noticesDrop, hl, hc, hf, ht] using hn
  cases hst.delivering rfl hc hl ht with
  | @raised _ _ x hd =>
    rw [hm, hf] at hd
    have hx := meansConnection_of_raised hd hnews
    obtain ⟨m, hm⟩ := Exc.translate_of_meansConnection hx (.history count) frame s.timeoutHint
      fl.scope cn.requests
    have hcalls := State.abandon_calls s c cn.requests (.history count) k frame fl x
    rw [hm] at hcalls
    exact ⟨m, _, hcalls⟩
  | awaitSend hd =>
    obtain ⟨-, -, -, payload, hr⟩ := Delivery.result_of_awaitSend hd
    simp [hf] at hr
  | collect hd =>
    obtain rfl : state = .done .returned := Step.returned_of_delivered hs hl ht hd
    cases hnews

/-- Nothing but a step of its task takes the read any further. -/
lemma State.Dropped.stays (hst : Step s e s') (hs : s.Consistent) (he : e ≠ .run c) {count : ℤ}
    {k : Except Exc (List Bytes) → Program (Except Exc β)} (h : s.Dropped c count k) :
    s'.Dropped c count k := by
  obtain ⟨n, fl, hl, hf⟩ := h
  have hf' := (hst.future_done (by simp [hf])).trans hf
  have hfl := hs.flying _ _ _ _ _ hl
  by_cases hcall : e.call = some c
  · obtain ⟨cn, hc⟩ := hfl.call
    obtain ⟨frame, state, -, ht⟩ := hfl.task
    cases hst.delivering hcall hc hl ht with
    | cancel => exact ⟨n, fl, (State.interrupt_lock _ _ _ _).trans hl, hf'⟩
    | expire => exact ⟨n, fl.expire, State.interrupt_lock _ _ _ _, hf'⟩
    | awaitSend | raised | collect => exact absurd rfl he
  · exact ⟨n, fl, hst.lock_frame hl hcall, hf'⟩

/-- The read of call `c` has a drop to report. -/
def State.Reports (s : State β) (c : ℕ) (count : ℤ)
    (k : Except Exc (List Bytes) → Program (Except Exc β)) : Prop :=
  s.Dropped c count k ∨ ∃ m, s.EndsWith c (.error (.spinEv .connection m))

lemma State.Reports.step {count : ℤ} {k : Except Exc (List Bytes) → Program (Except Exc β)}
    (h : s.Reports c count k) (hk : ∀ x, k (.error x) = .pure (.error x)) (hs : s.Consistent)
    (hst : Step s e s') (hP : DropsNoticed s e) : s'.Reports c count k := by
  rcases h with h | ⟨m, h⟩
  · by_cases he : e = .run c
    · subst he
      obtain ⟨m, cn, hc⟩ := h.run hst hs hP
      rw [hk] at hc
      exact .inr ⟨m, _, cn, hc, .inl rfl⟩
    · exact .inl (h.stays hst hs he)
  · exact .inr ⟨m, h.step hs hst⟩

/-- All that a read with a drop to report can end with is the report. -/
lemma State.Reports.eq_of_finished {count : ℤ}
    {k : Except Exc (List Bytes) → Program (Except Exc β)} (h : s.Reports c count k)
    (hs : s.Consistent) {r : Except Exc β} {cn : Cancellation}
    (hc : s.calls c = some ⟨.finished r, cn⟩) : ∃ m, r = .error (.spinEv .connection m) := by
  rcases h with ⟨n, fl, hl, -⟩ | ⟨m, phase, cn', hc', hp⟩
  · obtain ⟨cn', hc'⟩ := (hs.flying _ _ _ _ _ hl).call
    rw [hc] at hc'
    cases hc'
  · rw [hc] at hc'
    cases hc'
    obtain hp | hp := hp <;> cases hp
    exact ⟨m, rfl⟩

/-- It can always go on to its end. -/
lemma State.Reports.can_run {count : ℤ} {k : Except Exc (List Bytes) → Program (Except Exc β)}
    (h : s.Reports c count k) (hs : s.Consistent) :
    (∃ r cn, s.calls c = some ⟨.finished r, cn⟩) ∨ ∃ s', s.step (.run c) = some s' := by
  rcases h with ⟨n, fl, hl, hf⟩ | ⟨m, phase, cn, hc, rfl | rfl⟩
  · have hw : s.Woken fl.id := ⟨by simp [hf], .inl (by simp [hf])⟩
    exact .inr (hw.exists_run hs hl rfl)
  · right
    simp only [State.step, State.runCall, hc, Option.bind_eq_bind, Option.bind_some]
    exact ⟨_, rfl⟩
  · exact .inl ⟨_, _, hc⟩

/-- What a history call comes to if a drop comes while it has the lock: it goes on to its end, and
raises a `SpinEvConnectionError`. -/
def FailsOnDrop (timeoutHint : Option String) (password : Option ℤ) (es : List (Event β))
    (s : State β) : Prop :=
  ∀ c count (f : List ChargingSession → β) n es₁ es₂ v hd,
    .spawn c (f <$> asyncGetHistory count).run n ∈ es → es = es₁ ++ .disconnect :: es₂ →
    ClientRun timeoutHint password Always es₁ v → v.lock = some hd → hd.call = c →
    (∀ r cn, s.calls c = some ⟨.finished r, cn⟩ → ∃ m, r = .error (.spinEv .connection m)) ∧
      ((∃ r cn, s.calls c = some ⟨.finished r, cn⟩) ∨ ∃ s', s.step (.run c) = some s')

/-- A dropped link never passes for a complete history, in every run in which drops come during
the delivery of the frame and are noticed there. -/
theorem history_fails_on_drop {timeoutHint : Option String} {password : Option ℤ}
    {es : List (Event β)} (h : ClientRun timeoutHint password DropsNoticed es s) :
    FailsOnDrop timeoutHint password es s := by
  rintro c count f n es₁ es₂ v hd hspawn rfl hv hl rfl
  obtain ⟨v', hv', hrest⟩ := h.of_append
  obtain rfl := hv.unique hv'
  have hvs := State.consistent_of_run hv
  rw [run_asyncGetHistory] at hspawn
  have hprog : ∀ p n, .spawn hd.call p n ∈ es₁ →
      p = .op (.locked (.history count)) fun r => .pure (r.map (f ∘ distinctSessions)) :=
    fun p n hp => spawn_unique h (List.mem_append_left _ hp) hspawn
  cases hrest with
  | @cons _ w _ _ _ hP hdrop hrun =>
    have hdrop : Step v .disconnect w := Step.of_step hdrop
    cases hd with
    | collecting c count' k => simp [DropsNoticed, State.isCollecting, hl] at hP
    | delivering c j k n' fl =>
      rcases remains_of_operation hv hprog (.delivering hl) with hop | ⟨r', hop⟩
      · cases hop
        let I (u : State β) : Prop :=
          u.Reports c count fun r => .pure (r.map (f ∘ distinctSessions))
        have hstep : ∀ u e u', u.Consistent → I u → DropsNoticed u e → Step u e u' → I u' :=
          fun u e u' hs hu hP hst => hu.step (fun _ => rfl) hs hst hP
        have hw : I w := .inl (.of_disconnect hdrop hvs hl)
        have hs := State.consistent_of_run h
        have hrep : I s := invariant_of_run hstep hrun (hvs.step hdrop) hw
        exact ⟨fun r cn hc => hrep.eq_of_finished hs hc, hrep.can_run hs⟩
      · cases hop

/-- A history read whose frame is on its way. -/
def historyEvents : List (Event (List ChargingSession)) :=
  [.link true, .spawn 0 (id <$> asyncGetHistory 10).run 0, .run 0, .run 0, .run 0, .sendStart 0]

theorem history_fails_on_drop_open_send :
    ∃ s, ClientRun none none DropsNoticed (historyEvents ++ [.disconnect, .run 0, .run 0]) s ∧
      ∀ r cn, s.calls 0 = some ⟨.finished r, cn⟩ → ∃ m, r = .error (.spinEv .connection m) := by
  have h : ClientRun none none DropsNoticed (historyEvents ++ [.disconnect, .run 0, .run 0]) _ :=
    Run.of_exec rfl
  have hv : ClientRun none none Always historyEvents _ := Run.of_exec rfl
  exact ⟨_, h, (history_fails_on_drop h 0 10 id 0 _ _ _ _ (.tail _ (.head _)) rfl hv rfl rfl).1⟩

/-- The read has delivered its frame and collects records. -/
def collectingEvents : List (Event (List ChargingSession)) :=
  historyEvents ++ [.sendEnd 0 .returned, .run 0]

/-- Where the drop comes then, the read wakes up, waits once more and returns what it has. -/
theorem dropped_history_returns :
    ¬ ∀ (es : List (Event (List ChargingSession))) s, ClientRun none none Always es s →
      FailsOnDrop none none es s := by
  intro h
  have hv : ClientRun none none Always collectingEvents _ := Run.of_exec rfl
  have hs : ClientRun none none Always
    (collectingEvents ++ [.disconnect, .run 0, .idle 0, .run 0]) _ := Run.of_exec rfl
  have hend := h _ _ hs 0 10 id 0 _ _ _ _ (.tail _ (.head _)) rfl hv rfl rfl
  obtain ⟨m, hm⟩ := hend.1 (.ok []) _ rfl
  cases hm

end SpinevBle
