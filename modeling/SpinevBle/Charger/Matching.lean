import SpinevBle.Charger.Changes

/-!
# A reply goes to the request that waits for it

Replies carry no request number, only a register and a flag. Since one request at a time is on
its way, that is enough: its waiter is the only one, and it is there for as long as its future
is pending.
-/

namespace SpinevBle

open Asyncio Interaction Transition

variable {β : Type}

/-- Call `c` exchanges `frame` for its reply, as flight `i`. -/
def State.Requesting (s : State β) (c : ℕ) (frame : Frame) (register : UInt8) (i : ℕ) : Prop :=
  ∃ k n fl, s.lock = some (.delivering c (.request frame register) k n fl) ∧ fl.id = i

variable {timeoutHint : Option String} {password : Option ℤ} {P : State β → Event β → Prop}
  {es : List (Event β)} {s s' t : State β} {e : Event β}

/-- The waiter of a request is in the table until its future is done. -/
lemma State.Requesting.lookup {c : ℕ} {frame : Frame} {register : UInt8} {i : ℕ}
    (h : s.Requesting c frame register i) (hs : s.Consistent) (hf : s.futures i = .pending) :
    s.waiters.lookup register = some ⟨i, frame.flag⟩ := by
  obtain ⟨k, n, fl, hl, rfl⟩ := h
  rw [(hs.flying _ _ _ _ _ hl).waiters_of_pending hf]
  exact Waiters.lookup_singleton.2 ⟨rfl, rfl⟩

/-- A future gets its result from a payload that answers the request it belongs to, and that
arrives while the request waits for it. -/
lemma exists_answer (h : ClientRun timeoutHint password P es s) {i : ℕ} {payload : Bytes}
    (hf : s.futures i = .result payload) :
    ∃ es₁ es₂ v c frame register, es = es₁ ++ .notify payload :: es₂ ∧
      ClientRun timeoutHint password P es₁ v ∧
      Run (machine β timeoutHint password) P v (.notify payload :: es₂) s ∧
      v.Requesting c frame register i ∧ v.futures i = .pending ∧
      Answers payload register frame.flag := by
  obtain ⟨es₁, e, es₂, v, w, rfl, h₁, hv, hP, hst, hw, h₂⟩ :=
    h.exists_step (fun u => u.futures i = .result payload) (by simp [State.init]) hf
  have hvc := State.consistent_of_run h₁
  have hc := (Step.of_step hst).futures_cases i
  rw [hw] at hc
  cases hc with
  | same hf' => exact absurd hf'.symm hv
  | @answer _ register w ha hw hi hp =>
    obtain ⟨c, frame, k, n, fl, hl, rfl⟩ := hvc.lookup hw
    exact ⟨es₁, es₂, v, c, frame, register, rfl, h₁, .cons hP hst h₂, ⟨k, n, fl, hl, hi⟩, hp, ha⟩

/-- What resolved a request answers it, and came while its waiter was in the table. -/
lemma answered_of_resolved (h : ClientRun timeoutHint password P es s) {c : ℕ} {frame : Frame}
    {register : UInt8} {i : ℕ} {payload : Bytes} (hr : s.Requesting c frame register i)
    (hf : s.futures i = .result payload) :
    ∃ es₁ es₂ v, es = es₁ ++ .notify payload :: es₂ ∧
      ClientRun timeoutHint password P es₁ v ∧ v.Requesting c frame register i ∧
      v.waiters.lookup register = some ⟨i, frame.flag⟩ ∧ v.futures i = .pending ∧
      Answers payload register frame.flag := by
  obtain ⟨es₁, es₂, v, c', frame', register', he, h₁, h₂, hr', hf', ha⟩ := exists_answer h hf
  have hv := State.consistent_of_run h₁
  obtain ⟨k, n, fl, hl, rfl⟩ := hr'
  obtain ⟨k', n', fl', hl', hid⟩ := hr
  -- the flight that was resolved is the flight at the end
  have := flight_stays h₂ hv hl hl' hid
  rw [hl'] at this
  cases this
  have hr' : v.Requesting c frame register fl.id := ⟨_, _, _, hl, rfl⟩
  exact ⟨es₁, es₂, v, he, h₁, hr', hr'.lookup hv hf', hf', ha⟩

/-- What a request returns is what its future was resolved with. -/
lemma future_of_returned (hst : Step s e s') (hs : s.Consistent) {c : ℕ} {frame : Frame}
    {register : UInt8} {payload : Bytes}
    (hb : s'.blocks = ⟨c, .request frame register, .ok payload⟩ :: s.blocks) :
    ∃ i, s.Requesting c frame register i ∧ s.futures i = .result payload := by
  cases hst.ending_of_block hs hb with
  | @reply _ _ _ k n fl _ _ hl _ _ hf => exact ⟨fl.id, ⟨k, n, fl, hl, rfl⟩, hf⟩

/-- A payload that answers a pending request resolves it, for good. -/
lemma resolved_of_answers {c : ℕ} {frame : Frame} {register : UInt8} {i : ℕ} {payload : Bytes}
    (hr : s.Requesting c frame register i) (hs : s.Consistent) (hf : s.futures i = .pending)
    (ha : Answers payload register frame.flag) :
    ∃ s', s.step (.notify payload) = some s' ∧ s'.Requesting c frame register i ∧
      s'.futures i = .result payload := by
  obtain ⟨s', hs', hst⟩ := Step.of_onNotify s payload
  have hrep := ha.isReply
  have hw := hr.lookup hs hf
  refine ⟨s', by simp [State.step, hs', Except.toOption], ?_⟩
  cases hst with
  | record hh => simp [isReply_eq_false_of_isHistoryRecord hh] at hrep
  | @answer _ register' w' ha' hw' =>
    obtain ⟨rfl, -⟩ := ha.unique ha'
    rw [hw] at hw'
    cases hw'
    exact ⟨hr, by simp [State.answerWaiter, hf]⟩
  | ignore hh hn => exact absurd ha (hn _ _ hw)

/-- A payload resolves one future at most. -/
lemma eq_of_changed {payload : Bytes} (hst : Step s (.notify payload) s') {i i' : ℕ}
    (hi : s'.futures i ≠ s.futures i) (hi' : s'.futures i' ≠ s.futures i') : i = i' := by
  cases hst with
  | record hh => exact absurd rfl hi
  | ignore hh hn => exact absurd rfl hi
  | @answer _ register w ha hw =>
    have hw : ∀ i, (s.answerWaiter register w payload).futures i ≠ s.futures i → i = w.future := by
      intro i hi
      by_contra hne
      exact hi (by simp [State.answerWaiter, hne])
    exact (hw i hi).trans (hw i' hi').symm

/-- A payload that answers no waiter leaves them all alone. -/
lemma unchanged_of_unmatched {payload : Bytes} (hst : Step s (.notify payload) s')
    (hn : ∀ register w, s.waiters.lookup register = some w → ¬ Answers payload register w.flag) :
    s'.waiters = s.waiters ∧ s'.futures = s.futures := by
  cases hst with
  | record hh => exact ⟨rfl, rfl⟩
  | ignore hh hn => exact ⟨rfl, rfl⟩
  | answer ha hw => exact absurd ha (hn _ _ hw)

/-- Reply matching, in every run of one client. -/
theorem reply_matching (h : ClientRun timeoutHint password Always es s) :
    (∀ c frame register i payload, s.Requesting c frame register i →
      s.futures i = .result payload →
      ∃ es₁ es₂ v, es = es₁ ++ .notify payload :: es₂ ∧
        ClientRun timeoutHint password Always es₁ v ∧ v.Requesting c frame register i ∧
        v.waiters.lookup register = some ⟨i, frame.flag⟩ ∧ v.futures i = .pending ∧
        Answers payload register frame.flag) ∧
    (∀ c frame register payload s', s.step (.run c) = some s' →
      s'.blocks = ⟨c, .request frame register, .ok payload⟩ :: s.blocks →
      ∃ i, s.Requesting c frame register i ∧ s.futures i = .result payload) ∧
    (∀ c frame register i payload, s.Requesting c frame register i → s.futures i = .pending →
      Answers payload register frame.flag →
      ∃ s', s.step (.notify payload) = some s' ∧ s'.Requesting c frame register i ∧
        ∀ es' t, Run (machine β timeoutHint password) Always s' es' t →
          t.futures i = .result payload) ∧
    (∀ payload, ∃ s', s.onNotify payload = .ok s' ∧
      (∀ i i', s'.futures i ≠ s.futures i → s'.futures i' ≠ s.futures i' → i = i') ∧
      ((∀ register w, s.waiters.lookup register = some w → ¬ Answers payload register w.flag) →
        s'.waiters = s.waiters ∧ s'.futures = s.futures) ∧
      ¬ (isHistoryRecord payload = .ok true ∧ isReply payload = true)) := by
  have hs := State.consistent_of_run h
  refine ⟨fun c frame register i payload hr hf => ?_, fun c frame register payload s' hst hb => ?_,
    fun c frame register i payload hr hf ha => ?_, fun payload => ?_⟩
  · exact answered_of_resolved h hr hf
  · exact future_of_returned (Step.of_step hst) hs hb
  · obtain ⟨s', hst, hr', hf'⟩ := resolved_of_answers hr hs hf ha
    refine ⟨s', hst, hr', fun es' t ht => ?_⟩
    rw [future_stays ht (by simp [hf']), hf']
  · obtain ⟨s', hs', hst⟩ := Step.of_onNotify s payload
    refine ⟨s', hs', fun i i' hi hi' => ?_, fun hn => ?_, fun ⟨hh, hr⟩ => ?_⟩
    · exact eq_of_changed hst hi hi'
    · exact unchanged_of_unmatched hst hn
    · simp [isReply_eq_false_of_isHistoryRecord hh] at hr

/-- The state is read, and the answer comes while the send is still open. -/
def readStateEvents : List (Event ℕ) :=
  [.link true, .spawn 0 asyncGetStateValue 0, .run 0, .run 0, .run 0, .sendStart 0,
    .notify [0x10, 0xAC, 0x67, 0x00, 0x00, 0x00, 0x00, 0x02]]

theorem reply_matching_read_state :
    ∃ s, ClientRun none none Always readStateEvents s ∧
      ∃ es₁ es₂ v, readStateEvents =
          es₁ ++ .notify [0x10, 0xAC, 0x67, 0x00, 0x00, 0x00, 0x00, 0x02] :: es₂ ∧
        ClientRun none none Always es₁ v ∧ v.Requesting 0 ⟨0x67, 0x00, ⟨0, 0, 0, 0⟩⟩ 0x67 0 ∧
        v.waiters.lookup 0x67 = some ⟨0, 0x00⟩ ∧ v.futures 0 = .pending ∧
        Answers [0x10, 0xAC, 0x67, 0x00, 0x00, 0x00, 0x00, 0x02] 0x67 0x00 := by
  have h : ClientRun none none Always readStateEvents _ := Run.of_exec rfl
  exact ⟨_, h, (reply_matching h).1 0 ⟨0x67, 0x00, ⟨0, 0, 0, 0⟩⟩ 0x67 0 _ ⟨_, _, _, rfl, rfl⟩ rfl⟩

end SpinevBle
