import SpinevBle.Charger.Changes

/-!
# Which sends are under way

A send that nobody has cancelled belongs to the frame that is being delivered. All others were
cancelled when their delivery was given up, or are done.
-/

namespace SpinevBle

open Asyncio Interaction Transition

variable {β : Type} {s s' : State β} {e : Event β}

/-- Not done, and not cancelled. -/
def Live (state : TaskState Exc) : Prop := state = .created ∨ state = .running

lemma not_live_cancel (state : TaskState Exc) : ¬ Live state.cancel := by
  cases state <;> simp [Live, TaskState.cancel]

/-- Flight `i` is in progress. -/
def State.Delivers (s : State β) (i : ℕ) : Prop :=
  ∃ c j k n fl, s.lock = some (.delivering c j k n fl) ∧ fl.id = i

lemma State.delivers_iff {c n : ℕ} {j : Job} {k : Except Exc j.Value → Program (Except Exc β)}
    {fl : Flight} (hl : s.lock = some (.delivering c j k n fl)) {i : ℕ} :
    s.Delivers i ↔ fl.id = i := by
  constructor
  · rintro ⟨c', j', k', n', fl', hl', hi⟩
    rw [hl] at hl'
    cases hl'
    exact hi
  · exact fun hi => ⟨c, j, k, n, fl, hl, hi⟩

/-- Live sends belong to the flight in progress. -/
def State.SendsOwned (s : State β) : Prop :=
  ∀ i task, s.sendTasks i = some task → Live task.state → s.Delivers i

namespace State.SendsOwned

lemma init (timeoutHint : Option String) (password : Option ℤ) :
    (State.init β timeoutHint password).SendsOwned := fun _ _ h => by
  cases h

lemma of_eq (h : s.SendsOwned) (hl : s'.lock = s.lock) (ht : s'.sendTasks = s.sendTasks) :
    s'.SendsOwned := by
  intro i task hi hlive
  obtain ⟨c, j, k, n, fl, hl', hid⟩ := h i task (ht ▸ hi) hlive
  exact ⟨c, j, k, n, fl, hl ▸ hl', hid⟩

/-- No send is live once the flight in progress is forgotten. -/
lemma land (h : s.SendsOwned) {c n : ℕ} {j : Job}
    {k : Except Exc j.Value → Program (Except Exc β)} {fl : Flight}
    (hl : s.lock = some (.delivering c j k n fl)) {i : ℕ} {task : SendTask}
    (ht : (s.land j fl.id).sendTasks i = some task) : ¬ Live task.state := by
  by_cases hi : i = fl.id
  · subst hi
    simp only [State.land, cancelSend, Function.update_self, Option.map_eq_some_iff] at ht
    obtain ⟨task', -, rfl⟩ := ht
    exact not_live_cancel _
  · simp only [State.land, cancelSend, Function.update_of_ne hi] at ht
    exact fun hlive => hi ((delivers_iff hl).1 (h i task ht hlive)).symm

lemma launch {c n : ℕ} {cn : Cancellation} {j : Job}
    {k : Except Exc j.Value → Program (Except Exc β)} {frame : Frame}
    (h : ∀ i task, s.sendTasks i = some task → ¬ Live task.state) :
    (s.launch c cn j k n frame).SendsOwned := by
  intro i task ht hlive
  by_cases hi : i = s.nextId
  · exact ⟨c, j, k, n, _, rfl, hi.symm⟩
  · simp only [State.launch, Function.update_of_ne hi] at ht
    exact absurd hlive (h i task ht)

lemma of_not_live (h : ∀ i task, s.sendTasks i = some task → ¬ Live task.state) : s.SendsOwned :=
  fun i task ht hlive => absurd hlive (h i task ht)

lemma goesOn {c n : ℕ} {cn : Cancellation} {j : Job}
    {k : Except Exc j.Value → Program (Except Exc β)} (hg : s.GoesOn c cn j k n s')
    (h : ∀ i task, s.sendTasks i = some task → ¬ Live task.state) : s'.SendsOwned := by
  cases hg with
  | launch => exact launch h
  | release => exact of_not_live h

lemma setSend (h : s.SendsOwned) {i : ℕ} {task : SendTask} {state : TaskState Exc}
    (ht : s.sendTasks i = some task) (hl : Live state → Live task.state) :
    (s.setSend i task state).SendsOwned := by
  intro i' task' ht' hlive
  by_cases hi : i' = i
  · subst hi
    simp only [State.setSend, Function.update_self, Option.some.injEq] at ht'
    subst ht'
    exact h i' task ht (hl hlive)
  · simp only [State.setSend, Function.update_of_ne hi] at ht'
    exact h i' task' ht' hlive

lemma interrupt (h : s.SendsOwned) {c : ℕ} {cn : Cancellation} {fl : Flight} :
    (s.interrupt c cn fl).SendsOwned := by
  have hcs : (s.cancelSend fl.id).SendsOwned := by
    intro i task ht hlive
    by_cases hi : i = fl.id
    · subst hi
      simp only [cancelSend, Function.update_self, Option.map_eq_some_iff] at ht
      obtain ⟨task', -, rfl⟩ := ht
      exact absurd hlive (not_live_cancel _)
    · simp only [cancelSend, Function.update_of_ne hi] at ht
      exact h i task ht hlive
  unfold State.interrupt
  split
  · split_ifs
    · exact h.of_eq rfl rfl
    · exact hcs.of_eq rfl rfl
  · split_ifs <;> exact h.of_eq rfl rfl
  · exact h.of_eq rfl rfl

lemma step (h : s.SendsOwned) (hst : Step s e s') : s'.SendsOwned := by
  cases hst with
  | enter hc hm hl =>
    exact goesOn (s.goesOn_enter _ _ _ _) fun i task ht hlive => by
      obtain ⟨_, _, _, _, _, hl', -⟩ := h i task ht hlive
      rw [hl] at hl'
      cases hl'
  | next hc hl ht hd => exact goesOn (State.goesOn_nextFrame _ _ _ _ _ _) fun _ _ => h.land hl
  | reply hc hl ht hd hf => exact of_not_live fun _ _ => h.land hl
  | failed hc hl ht hd hf => exact of_not_live fun _ _ => h.land hl
  | raised hc hl ht hd => exact of_not_live fun _ _ => h.land hl
  | collect hc hl ht hd => exact of_not_live fun _ _ => h.land hl
  | stop hc hl | idle hc hl =>
    exact of_not_live fun i task ht hlive => by
      obtain ⟨_, _, _, _, _, hl', -⟩ := h i task ht hlive
      rw [hl] at hl'
      cases hl'
  | awaitSend hc hl ht hd | awaitReply hc hl ht hd =>
    intro i task ht hlive
    exact ⟨_, _, _, _, _, rfl, (delivers_iff hl).1 (h i task ht hlive)⟩
  | cancel hc hl => exact h.interrupt
  | @expire c j k n fl phase cn hc hl hx =>
    have h' : ({ s with lock := some (.delivering c j k n fl.expire) } : State β).SendsOwned :=
      fun i task ht hlive => ⟨_, _, _, _, _, rfl, (delivers_iff hl).1 (h i task ht hlive)⟩
    exact h'.interrupt
  | @sendStart i task ht hs =>
    have h' : (s.setSend i task .running).SendsOwned := h.setSend ht fun _ => .inl hs
    exact h'.of_eq rfl rfl
  | sendUnwind ht hs => exact h.setSend ht (by simp [Live])
  | sendEnd ht hs ho => exact h.setSend ht (by simp [Live])
  | _ => exact h.of_eq rfl rfl

end State.SendsOwned

end SpinevBle
