import SpinevBle.Charger.Sends

/-!
# Sends that overlap

A send that is given up is cancelled, but nobody waits for it to end. Two sends of one client go on
at the same time exactly where a send starts before one that was cancelled has ended.
-/

namespace SpinevBle

open Asyncio Interaction Transition

variable {β : Type} {s s' : State β} {e : Event β}

/-- Two sends that have started and not yet finished are the same. -/
def State.OneSend (s : State β) : Prop :=
  ∀ i i' task task', s.sendTasks i = some task → s.sendTasks i' = some task' →
    task.state.busy = true → task'.state.busy = true → i = i'

/-- A send starts only when all those have ended that were cancelled before. -/
def CancelledSendsEnded (s : State β) : Event β → Prop
  | .sendStart _ => ∀ i < s.nextId, (s.sendTasks i).all fun task =>
      task.state ≠ .cancelling ∧ task.state ≠ .unwinding
  | _ => True

instance (s : State β) (e : Event β) : Decidable (CancelledSendsEnded s e) :=
  match e with
  | .sendStart _ => inferInstanceAs (Decidable (∀ i < s.nextId, _ = true))
  | .spawn .. | .run _ | .cancel _ | .expire _ | .idle _ | .sendUnwind _ | .sendEnd .. | .notify _
  | .disconnect | .link _ => .isTrue trivial

lemma busy_of_busy_cancel {state : TaskState Exc} (h : state.cancel.busy = true) :
    state.busy = true := by
  cases state <;> simp_all [TaskState.cancel, TaskState.busy]

lemma busy_cases {state : TaskState Exc} (h : state.busy = true) :
    state = .running ∨ state = .cancelling ∨ state = .unwinding := by
  cases state <;> simp_all [TaskState.busy]

/-- No send starts while another one goes on, but for those that were cancelled. -/
lemma eq_of_sendStart {i i' : ℕ} (hst : Step s (.sendStart i) s') (hs : s.Consistent)
    (ho : s.SendsOwned) (hP : CancelledSendsEnded s (.sendStart i)) {task' : SendTask}
    (ht' : s.sendTasks i' = some task') (hb : task'.state.busy = true) : i' = i := by
  cases hst with
  | @sendStart _ task ht hc =>
    have hlt : i' < s.nextId := by
      by_contra hge
      rw [(hs.unborn i' (not_lt.1 hge)).1] at ht'
      cases ht'
    have hended := hP i' hlt
    rw [ht', Option.all_some, decide_eq_true_eq] at hended
    rcases busy_cases hb with hr | hr | hr
    · -- both belong to the flight in progress
      obtain ⟨c, j, k, n, fl, hl, rfl⟩ := ho i task ht (.inl hc)
      exact ((State.delivers_iff hl).1 (ho i' task' ht' (.inr hr))).symm
    · exact absurd hr hended.1
    · exact absurd hr hended.2

/-- A send that goes on after a step went on before it, or has just started. -/
lemma busy_of_step (hst : Step s e s') {i : ℕ} {task : SendTask}
    (ht : s'.sendTasks i = some task) (hb : task.state.busy = true) :
    e = .sendStart i ∨ ∃ task', s.sendTasks i = some task' ∧ task'.state.busy = true := by
  have hc := hst.sendTasks_cases i
  rw [ht] at hc
  cases hc with
  | same h => exact .inr ⟨task, h.symm, hb⟩
  | create => simp [TaskState.busy] at hb
  | cancel hl hi ht' => exact .inr ⟨_, ht', busy_of_busy_cancel hb⟩
  | start => exact .inl rfl
  | unwind ht' hs => exact .inr ⟨_, ht', by simp [hs, TaskState.busy]⟩
  | finish => simp [TaskState.busy] at hb

/-- Where one send goes on at most, the next step keeps it so if and only if it does not start a send
before the cancelled ones have ended. -/
lemma oneSend_iff_of_step (hst : Step s e s') (hs : s.Consistent) (ho : s.SendsOwned)
    (hone : s.OneSend) : s'.OneSend ↔ CancelledSendsEnded s e := by
  constructor
  · intro hone'
    cases e with
    | sendStart i =>
      intro i' _
      cases ht' : s.sendTasks i' with
      | none => rfl
      | some task' =>
        rw [Option.all_some, decide_eq_true_eq]
        refine not_or.1 fun hbusy => ?_
        cases hst with
        | @sendStart _ task ht hc =>
          have hne : i' ≠ i := by
            rintro rfl
            cases ht.symm.trans ht'
            rw [hc] at hbusy
            rcases hbusy with h | h <;> cases h
          have hkeep : (s.setSend i task .running).sendTasks i' = some task' :=
            (Function.update_of_ne hne _ _).trans ht'
          have hb : task'.state.busy = true := by
            rcases hbusy with h | h <;> rw [h] <;> rfl
          exact hne (hone' i' i _ _ hkeep (Function.update_self _ _ _) hb rfl)
    | _ => trivial
  · intro hP i i' task task' ht ht' hb hb'
    rcases busy_of_step hst ht hb with rfl | ⟨t, ht₀, hb₀⟩
    · rcases busy_of_step hst ht' hb' with he | ⟨t', ht₀', hb₀'⟩
      · cases he
        rfl
      · exact (eq_of_sendStart hst hs ho hP ht₀' hb₀').symm
    · rcases busy_of_step hst ht' hb' with rfl | ⟨t', ht₀', hb₀'⟩
      · exact eq_of_sendStart hst hs ho hP ht₀ hb₀
      · exact hone i i' t t' ht₀ ht₀' hb₀ hb₀'

/-- A run has one send at a time in all its states if and only if no send starts in it before the
cancelled ones have ended. -/
theorem one_send_at_a_time {timeoutHint : Option String} {password : Option ℤ}
    {es : List (Event β)} (h : ClientRun timeoutHint password Always es s) :
    (∀ es₁ es₂ v, es = es₁ ++ es₂ → ClientRun timeoutHint password Always es₁ v → v.OneSend) ↔
      ClientRun timeoutHint password CancelledSendsEnded es s := by
  refine h.forall_iff (I := fun u => u.Consistent ∧ u.SendsOwned) ?_ ?_ ⟨.init _ _, .init _ _⟩ ?_
  · rintro u e v ⟨hu, ho⟩ hst
    exact ⟨hu.step (.of_step hst), ho.step (.of_step hst)⟩
  · rintro u e v ⟨hu, ho⟩ hone hst
    exact oneSend_iff_of_step (.of_step hst) hu ho hone
  · rintro i i' task task' ⟨⟩

/-- A second start waits for the lock. The first is cancelled by its deadline, and its send does not
end with the step in which it is resumed. -/
def timedOutEvents : List (Event Unit) :=
  [.link true, .spawn 0 asyncStartCharging 0, .spawn 1 asyncStartCharging 0,
    .run 0, .run 0, .run 0, .run 0, .run 1, .run 1, .run 1, .sendStart 0, .expire 0, .run 0,
    .sendUnwind 0, .run 1]

theorem one_send_at_a_time_timed_out :
    ∃ s : State Unit, ClientRun none (some 5) CancelledSendsEnded
      (timedOutEvents ++ [.sendEnd 0 .cancelled, .sendStart 1]) s ∧ s.OneSend := by
  have h : ClientRun none (some 5) CancelledSendsEnded
    (timedOutEvents ++ [.sendEnd 0 .cancelled, .sendStart 1]) _ := Run.of_exec rfl
  exact ⟨_, h, (one_send_at_a_time h.always).2 h _ [] _ (List.append_nil _).symm h.always⟩

/-- Where the first send is not done by then, the second starts before it has ended. -/
theorem two_sends_at_once :
    ¬ ∀ (es : List (Event Unit)) (s : State Unit), ClientRun none (some 5) Always es s →
      s.OneSend := by
  intro h
  have hrun : ClientRun none (some 5) Always (timedOutEvents ++ [.sendStart 1]) _ := Run.of_exec rfl
  have heq : 0 = 1 := h _ _ hrun 0 1 _ _ rfl rfl rfl rfl
  cases heq

end SpinevBle
