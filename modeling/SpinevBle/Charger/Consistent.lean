import SpinevBle.Charger.Steps

/-!
# The client's tables match what its calls are doing

`Consistent` ties `_waiters` and `_sends` to the call that holds the lock: a frame that is being
delivered has its entry in one of the two tables or its future is done, and nothing else has an
entry. It holds in every reachable state.
-/

namespace SpinevBle

open Asyncio Interaction Transition

variable {β : Type}

/-! ### Tables with one entry -/

namespace Waiters

variable {register register' : UInt8} {w w' : Waiter}

@[simp] lemma erase_singleton : (AList.singleton register w : Waiters).erase register = ∅ :=
  AList.ext (List.kerase_cons_eq rfl)

@[simp] lemma erase_empty : (∅ : Waiters).erase register = ∅ := rfl

lemma lookup_singleton :
    (AList.singleton register w : Waiters).lookup register' = some w' ↔
      register' = register ∧ w' = w := by
  rw [← AList.insert_empty]
  by_cases hr : register' = register
  · subst hr
    rw [AList.lookup_insert]
    simp [eq_comm]
  · rw [AList.lookup_insert_ne hr]
    simp [hr]

end Waiters

namespace State

/-! ### The invariant -/

/-- Flight `i` of the job has the only entry in the tables, unless its future is done. -/
def Tracked (s : State β) (i : ℕ) : Job → Prop
  | .request frame register => s.sends = ∅ ∧
      (s.waiters = AList.singleton register ⟨i, frame.flag⟩ ∨
        s.waiters = ∅ ∧ s.futures i ≠ .pending)
  | _ => s.waiters = ∅ ∧
      (s.sends = {i} ∧ s.futures i = .pending ∨ s.sends = ∅ ∧ s.futures i = .exception dropped)

/-- Call `c` delivers frame `n` of the job as flight `fl`. -/
structure Flying (s : State β) (c : ℕ) (j : Job) (n : ℕ) (fl : Flight) : Prop where
  call : ∃ cn, s.calls c = some ⟨.inside, cn⟩
  newest : fl.id + 1 = s.nextId
  task : ∃ frame state, j.frames[n]? = some frame ∧ s.sendTasks fl.id = some ⟨c, frame, state⟩
  tracked : s.Tracked fl.id j
  dropped : ∀ e, s.futures fl.id = .exception e → e = State.dropped
  cancelled : s.futures fl.id = .cancelled → fl.point = .reply
  atSend : fl.point = .send → ∃ payload, s.futures fl.id = .result payload
  atReply : fl.point = .reply → (∃ frame register, j = .request frame register) ∧
    ∃ frame, s.sendTasks fl.id = some ⟨c, frame, .done .returned⟩

/-- The tables match what the calls are doing. -/
structure Consistent (s : State β) : Prop where
  unborn : ∀ i, s.nextId ≤ i → s.sendTasks i = none ∧ s.futures i = .pending
  inside : ∀ c cn, s.calls c = some ⟨.inside, cn⟩ → ∃ h, s.lock = some h ∧ h.call = c
  owner : ∀ h, s.lock = some h → ∃ cn, s.calls h.call = some ⟨.inside, cn⟩
  idle : (∀ c j k n fl, s.lock ≠ some (.delivering c j k n fl)) → s.waiters = ∅ ∧ s.sends = ∅
  flying : ∀ c j k n fl, s.lock = some (.delivering c j k n fl) → s.Flying c j n fl

/-- Nothing is in flight, and no call but `c` is inside. -/
structure Settled (s : State β) (c : ℕ) : Prop where
  unborn : ∀ i, s.nextId ≤ i → s.sendTasks i = none ∧ s.futures i = .pending
  inside : ∀ c' cn, s.calls c' = some ⟨.inside, cn⟩ → c' = c
  waiters : s.waiters = ∅
  sends : s.sends = ∅

/-! ### Flights -/

namespace Flying

variable {s s' : State β} {c n : ℕ} {j : Job} {fl : Flight}

/-- A flight depends on its own entries only. -/
lemma congr (h : s.Flying c j n fl) (hcall : ∃ cn, s'.calls c = some ⟨.inside, cn⟩)
    (hid : s'.nextId = s.nextId) (htask : s'.sendTasks fl.id = s.sendTasks fl.id)
    (hw : s'.waiters = s.waiters) (hs : s'.sends = s.sends)
    (hf : s'.futures fl.id = s.futures fl.id) : s'.Flying c j n fl where
  call := hcall
  newest := by rw [hid, h.newest]
  task := by simpa only [htask] using h.task
  tracked := by
    have := h.tracked
    cases j <;> simpa only [Tracked, hw, hs, hf] using this
  dropped := by simpa only [hf] using h.dropped
  cancelled := by simpa only [hf] using h.cancelled
  atSend := by simpa only [hf] using h.atSend
  atReply := by simpa only [htask] using h.atReply

/-- Where the flight's deadline stands does not matter. -/
lemma expire (h : s.Flying c j n fl) : s.Flying c j n fl.expire where
  call := h.call
  newest := h.newest
  task := h.task
  tracked := h.tracked
  dropped := h.dropped
  cancelled := h.cancelled
  atSend := h.atSend
  atReply := h.atReply

/-- A waiter or abort that is not done is still in its table. -/
lemma waiters_of_pending {frame : Frame} {register : UInt8}
    (h : s.Flying c (.request frame register) n fl) (hf : s.futures fl.id = .pending) :
    s.waiters = AList.singleton register ⟨fl.id, frame.flag⟩ := by
  have ht := h.tracked
  simp only [Tracked, hf, ne_eq, not_true_eq_false, and_false, or_false] at ht
  exact ht.2

lemma sends_of_pending (h : s.Flying c j n fl) (hf : s.futures fl.id = .pending)
    (hj : ∀ frame register, j ≠ .request frame register) : fl.id ∈ s.sends := by
  have ht := h.tracked
  cases j with
  | request frame register => exact absurd rfl (hj frame register)
  | writeFrames frames =>
    simp only [Tracked, hf, and_true, reduceCtorEq, and_false, or_false] at ht
    simp [ht.2]
  | history count =>
    simp only [Tracked, hf, and_true, reduceCtorEq, and_false, or_false] at ht
    simp [ht.2]

lemma waiters_of_lookup {frame : Frame} {register register' : UInt8} {w : Waiter}
    (h : s.Flying c (.request frame register) n fl) (hw : s.waiters.lookup register' = some w) :
    s.waiters = AList.singleton register ⟨fl.id, frame.flag⟩ ∧ register' = register ∧
      w = ⟨fl.id, frame.flag⟩ := by
  obtain ⟨-, hs | ⟨hs, -⟩⟩ := h.tracked
  · rw [hs, Waiters.lookup_singleton] at hw
    exact ⟨hs, hw⟩
  · simp [hs] at hw

/-- A drop fails the flight's future unless it is done. -/
lemma failAll_futures (h : s.Flying c j n fl) :
    s.failAll.futures fl.id = (s.futures fl.id).fail State.dropped := by
  by_cases hm : fl.id ∈ s.waiting ∨ fl.id ∈ s.sends
  · simp [State.failAll, hm]
  · have hd : (s.futures fl.id).done = true := by
      by_contra hd
      rw [Bool.not_eq_true, Future.done_eq_false_iff] at hd
      refine hm ?_
      have ht := h.tracked
      cases j with
      | request frame register =>
        exact .inl (by simp [waiting, h.waiters_of_pending hd])
      | writeFrames frames => exact .inr (h.sends_of_pending hd (by simp))
      | history count => exact .inr (h.sends_of_pending hd (by simp))
    simp [State.failAll, hm, Future.fail_of_done hd]

/-- Forgetting a flight empties both tables. -/
lemma land (h : s.Flying c j n fl) :
    (s.land j fl.id).waiters = ∅ ∧ (s.land j fl.id).sends = ∅ := by
  have ht := h.tracked
  cases j with
  | request frame register =>
    obtain ⟨hs, hw | ⟨hw, -⟩⟩ := ht
    · refine ⟨?_, hs⟩
      simp only [State.land, Job.dropWaiter, hw, Waiters.erase_singleton]
    · refine ⟨?_, hs⟩
      simp only [State.land, Job.dropWaiter, hw, Waiters.erase_empty]
  | writeFrames frames =>
    obtain ⟨hw, ⟨hs, -⟩ | ⟨hs, -⟩⟩ := ht
    · exact ⟨hw, by simp [State.land, Job.dropAbort, hs]⟩
    · exact ⟨hw, by simp [State.land, Job.dropAbort, hs]⟩
  | history count =>
    obtain ⟨hw, ⟨hs, -⟩ | ⟨hs, -⟩⟩ := ht
    · exact ⟨hw, by simp [State.land, Job.dropAbort, hs]⟩
    · exact ⟨hw, by simp [State.land, Job.dropAbort, hs]⟩

end Flying

/-! ### Between flights -/

namespace Settled

variable {s : State β} {c : ℕ}

lemma setBulk (h : s.Settled c) (bulk : List Bytes) (bulkEvent : Bool) :
    { s with bulk := bulk, bulkEvent := bulkEvent }.Settled c :=
  ⟨h.unborn, h.inside, h.waiters, h.sends⟩

lemma launch (h : s.Settled c) {cn : Cancellation} {j : Job}
    {k : Except Exc j.Value → Program (Except Exc β)} {n : ℕ} {frame : Frame}
    (hj : j.frames[n]? = some frame) : (s.launch c cn j k n frame).Consistent := by
  have hf := (h.unborn s.nextId le_rfl).2
  refine ⟨fun i hi => ?_, fun c' cn' hc' => ⟨_, rfl, ?_⟩, ?_,
    fun hl => absurd rfl (hl _ _ _ _ _), ?_⟩
  · have hne : i ≠ s.nextId := by
      simp only [State.launch] at hi
      omega
    simp only [State.launch, Function.update_of_ne hne]
    exact h.unborn i (by simp only [State.launch] at hi; omega)
  · by_cases hcc : c' = c
    · exact hcc.symm
    · simp only [State.launch, Function.update_of_ne hcc] at hc'
      exact (h.inside c' cn' hc').symm
  · rintro _ ⟨rfl⟩
    exact ⟨cn, by simp [State.launch, Holder.call]⟩
  · rintro _ _ _ _ _ ⟨rfl⟩
    refine ⟨⟨cn, by simp [State.launch]⟩, rfl, ⟨frame, .created, hj, by simp [State.launch]⟩, ?_,
      ?_, ?_, by simp, by simp⟩
    · cases j with
      | request frame' register =>
        refine ⟨h.sends, .inl ?_⟩
        simp only [State.launch, Job.addWaiter, h.waiters, AList.insert_empty]
      | writeFrames frames =>
        exact ⟨h.waiters, .inl ⟨by simp [State.launch, Job.addAbort, h.sends], hf⟩⟩
      | history count =>
        exact ⟨h.waiters, .inl ⟨by simp [State.launch, Job.addAbort, h.sends], hf⟩⟩
    · intro e he
      simp [State.launch, hf] at he
    · intro he
      simp [State.launch, hf] at he

lemma release (h : s.Settled c) {requests : ℕ} {j : Job}
    {k : Except Exc j.Value → Program (Except Exc β)} {r : Except Exc j.Value} :
    (s.release c requests j k r).Consistent := by
  refine ⟨h.unborn, fun c' cn hc' => ?_, ?_, fun _ => ⟨h.waiters, h.sends⟩, ?_⟩
  · by_cases hcc : c' = c
    · subst hcc
      simp [State.release] at hc'
    · simp only [State.release, Function.update_of_ne hcc] at hc'
      exact absurd (h.inside c' cn hc') hcc
  · rintro _ ⟨⟩
  · rintro _ _ _ _ _ ⟨⟩

lemma collect (h : s.Settled c) {cn : Cancellation} {count : ℤ}
    {k : Except Exc (List Bytes) → Program (Except Exc β)} :
    ({ s.setPhase c .inside cn with
      lock := some (.collecting c count k) } : State β).Consistent := by
  refine ⟨h.unborn, fun c' cn' hc' => ⟨_, rfl, ?_⟩, ?_, fun _ => ⟨h.waiters, h.sends⟩, ?_⟩
  · by_cases hcc : c' = c
    · exact hcc.symm
    · simp only [setPhase, Function.update_of_ne hcc] at hc'
      exact (h.inside c' cn' hc').symm
  · rintro _ ⟨rfl⟩
    exact ⟨cn, by simp [setPhase, Holder.call]⟩
  · rintro _ _ _ _ _ ⟨⟩

lemma goesOn (h : s.Settled c) {cn : Cancellation} {j : Job}
    {k : Except Exc j.Value → Program (Except Exc β)} {n : ℕ} {s' : State β}
    (hg : s.GoesOn c cn j k n s') : s'.Consistent := by
  cases hg with
  | launch hj => exact (h.setBulk _ _).launch hj
  | release => exact (h.setBulk _ _).release

end Settled

/-! ### Preservation -/

namespace Consistent

variable {s : State β} {c n : ℕ} {j : Job} {fl : Flight}

/-- No call but the owner of the lock is inside. -/
lemma inside_eq (h : s.Consistent) {hd : Holder β} (hl : s.lock = some hd) {c' : ℕ}
    {cn : Cancellation} (hc' : s.calls c' = some ⟨.inside, cn⟩) : c' = hd.call := by
  obtain ⟨hd', hl', rfl⟩ := h.inside c' cn hc'
  rw [hl] at hl'
  cases hl'
  rfl

lemma settled_of_free (h : s.Consistent) (hl : s.lock = none) : s.Settled c := by
  obtain ⟨hw, hs⟩ := h.idle (by simp [hl])
  refine ⟨h.unborn, fun c' cn hc' => ?_, hw, hs⟩
  obtain ⟨_, hl', -⟩ := h.inside c' cn hc'
  simp [hl] at hl'

lemma settled_of_collecting (h : s.Consistent) {count : ℤ}
    {k : Except Exc (List Bytes) → Program (Except Exc β)}
    (hl : s.lock = some (.collecting c count k)) : s.Settled c := by
  obtain ⟨hw, hs⟩ := h.idle (by simp [hl])
  exact ⟨h.unborn, fun c' cn hc' => h.inside_eq hl hc', hw, hs⟩

lemma land (h : s.Consistent) {k : Except Exc j.Value → Program (Except Exc β)}
    (hl : s.lock = some (.delivering c j k n fl)) : (s.land j fl.id).Settled c := by
  have hfl := h.flying _ _ _ _ _ hl
  obtain ⟨hw, hs⟩ := hfl.land
  refine ⟨fun i hi => ?_, fun c' cn hc' => h.inside_eq hl hc', hw, hs⟩
  have hne : i ≠ fl.id := by
    have := hfl.newest
    simp only [State.land, cancelSend] at hi
    omega
  simpa [State.land, cancelSend, hne] using h.unborn i hi

/-- The lock, the calls inside and the flight in progress decide consistency. -/
lemma congr {s' : State β} (h : s.Consistent) (hlock : s'.lock = s.lock)
    (hin : ∀ c, (∃ cn, s'.calls c = some ⟨.inside, cn⟩) ↔ ∃ cn, s.calls c = some ⟨.inside, cn⟩)
    (hu : ∀ i, s'.nextId ≤ i → s'.sendTasks i = none ∧ s'.futures i = .pending)
    (hidle : (∀ c j k n fl, s.lock ≠ some (.delivering c j k n fl)) →
      s'.waiters = ∅ ∧ s'.sends = ∅)
    (hfl : ∀ c j k n fl, s.lock = some (.delivering c j k n fl) → s'.Flying c j n fl) :
    s'.Consistent where
  unborn := hu
  inside c cn hc := by
    obtain ⟨cn', hc'⟩ := (hin c).1 ⟨cn, hc⟩
    rw [hlock]
    exact h.inside c cn' hc'
  owner hd hl := (hin _).2 (h.owner hd (hlock ▸ hl))
  idle hl := hidle (by simpa only [hlock] using hl)
  flying c j k n fl hl := hfl c j k n fl (hlock ▸ hl)

lemma of_eq {s' : State β} (h : s.Consistent) (hlock : s'.lock = s.lock)
    (hcalls : s'.calls = s.calls) (hid : s'.nextId = s.nextId) (ht : s'.sendTasks = s.sendTasks)
    (hf : s'.futures = s.futures) (hw : s'.waiters = s.waiters) (hs : s'.sends = s.sends) :
    s'.Consistent :=
  h.congr hlock (by simp [hcalls]) (by simpa only [hid, ht, hf] using h.unborn)
    (by simpa only [hw, hs] using h.idle) fun c j k n fl hl =>
      (h.flying c j k n fl hl).congr (hcalls ▸ (h.flying c j k n fl hl).call) hid (by rw [ht]) hw hs
        (by rw [hf])

/-- A call outside the lock goes on. -/
lemma setPhase (h : s.Consistent) {phase : Phase β} {cn : Cancellation}
    (hc : ∀ cn, s.calls c ≠ some ⟨.inside, cn⟩) (hp : phase ≠ .inside) :
    (s.setPhase c phase cn).Consistent := by
  have hin : ∀ c', (∃ cn', (s.setPhase c phase cn).calls c' = some ⟨.inside, cn'⟩) ↔
      ∃ cn', s.calls c' = some ⟨.inside, cn'⟩ := fun c' => by
    by_cases hcc : c' = c
    · subst hcc
      simp [State.setPhase, hp, hc]
    · simp [State.setPhase, hcc]
  exact h.congr rfl hin h.unborn h.idle fun c' j k n fl hl =>
    (h.flying c' j k n fl hl).congr ((hin c').2 (h.flying c' j k n fl hl).call) rfl rfl rfl rfl rfl

/-- The call inside is cancelled. -/
lemma setCancellation (h : s.Consistent) {cn : Cancellation}
    (hc : s.calls c = some ⟨.inside, cn⟩) (cn' : Cancellation) :
    (s.setPhase c .inside cn').Consistent := by
  have hin : ∀ c', (∃ cn, (s.setPhase c .inside cn').calls c' = some ⟨.inside, cn⟩) ↔
      ∃ cn, s.calls c' = some ⟨.inside, cn⟩ := fun c' => by
    by_cases hcc : c' = c
    · subst hcc
      simp [State.setPhase, hc]
    · simp [State.setPhase, hcc]
  exact h.congr rfl hin h.unborn h.idle fun c' j k n fl hl =>
    (h.flying c' j k n fl hl).congr ((hin c').2 (h.flying c' j k n fl hl).call) rfl rfl rfl rfl rfl

/-- A send that is not done takes a step. -/
lemma setSend (h : s.Consistent) {i : ℕ} {task : SendTask} (state : TaskState Exc)
    (ht : s.sendTasks i = some task) (hd : task.state ≠ .done .returned) :
    (s.setSend i task state).Consistent := by
  refine h.congr rfl (fun _ => Iff.rfl) (fun i' hi' => ?_) h.idle fun c j k n fl hl => ?_
  · have hne : i' ≠ i := by
      rintro rfl
      simp [(h.unborn i' hi').1] at ht
    simpa [State.setSend, hne] using h.unborn i' hi'
  · have hfl := h.flying c j k n fl hl
    by_cases hi : fl.id = i
    · subst hi
      obtain ⟨frame, state', hj, ht'⟩ := hfl.task
      rw [ht] at ht'
      cases ht'
      refine ⟨hfl.call, hfl.newest, ⟨frame, state, hj, by simp [State.setSend]⟩, hfl.tracked,
        hfl.dropped, hfl.cancelled, hfl.atSend, fun hp => ?_⟩
      obtain ⟨_, frame', ht'⟩ := hfl.atReply hp
      rw [ht] at ht'
      cases ht'
      exact absurd rfl hd
    · exact hfl.congr hfl.call rfl (by simp [State.setSend, hi]) rfl rfl rfl

lemma cancelSend (h : s.Consistent) {k : Except Exc j.Value → Program (Except Exc β)}
    (hl : s.lock = some (.delivering c j k n fl))
    (hd : ∀ task, s.sendTasks fl.id = some task → task.state.isDone = false) :
    (s.cancelSend fl.id).Consistent := by
  obtain ⟨frame, state, -, ht⟩ := (h.flying _ _ _ _ _ hl).task
  have := h.setSend state.cancel ht (by rintro rfl; simpa using hd _ ht)
  simpa [State.cancelSend, State.setSend, ht] using this

/-- An entry of `_waiters` belongs to the request that holds the lock. -/
lemma lookup (h : s.Consistent) {register : UInt8} {w : Waiter}
    (hw : s.waiters.lookup register = some w) :
    ∃ c frame k n fl, s.lock = some (.delivering c (.request frame register) k n fl) ∧
      w = ⟨fl.id, frame.flag⟩ := by
  by_cases hl : ∃ c j k n fl, s.lock = some (.delivering c j k n fl)
  · obtain ⟨c, j, k, n, fl, hl⟩ := hl
    have hfl := h.flying _ _ _ _ _ hl
    cases j with
    | request frame register' =>
      obtain ⟨-, rfl, rfl⟩ := hfl.waiters_of_lookup hw
      exact ⟨c, frame, k, n, fl, hl, rfl⟩
    | writeFrames frames => simp [hfl.tracked.1] at hw
    | history count => simp [hfl.tracked.1] at hw
  · simp [(h.idle (by simpa using hl)).1] at hw

/-- Whatever is in a table belongs to the flight in progress. -/
lemma mem_tables (h : s.Consistent) {i : ℕ} (hi : i ∈ s.waiting ∨ i ∈ s.sends) :
    ∃ c j k n fl, s.lock = some (.delivering c j k n fl) ∧ i = fl.id := by
  by_cases hl : ∃ c j k n fl, s.lock = some (.delivering c j k n fl)
  · obtain ⟨c, j, k, n, fl, hl⟩ := hl
    refine ⟨c, j, k, n, fl, hl, ?_⟩
    have ht := (h.flying _ _ _ _ _ hl).tracked
    cases j with
    | request frame register =>
      obtain ⟨hs, hw | ⟨hw, -⟩⟩ := ht
      · simpa [waiting, hs, hw] using hi
      · simp [waiting, hs, hw] at hi
    | writeFrames frames =>
      obtain ⟨hw, ⟨hs, -⟩ | ⟨hs, -⟩⟩ := ht
      · simpa [waiting, hs, hw] using hi
      · simp [waiting, hs, hw] at hi
    | history count =>
      obtain ⟨hw, ⟨hs, -⟩ | ⟨hs, -⟩⟩ := ht
      · simpa [waiting, hs, hw] using hi
      · simp [waiting, hs, hw] at hi
  · obtain ⟨hw, hs⟩ := h.idle (by simpa using hl)
    simp [waiting, hs, hw] at hi

/-- The flight goes on to wait for something else. -/
lemma setPoint (h : s.Consistent) {k : Except Exc j.Value → Program (Except Exc β)}
    (hl : s.lock = some (.delivering c j k n fl)) {fl' : Flight}
    (hfl : s.Flying c j n fl') :
    ({ s with lock := some (.delivering c j k n fl') } : State β).Consistent := by
  refine ⟨h.unborn, fun c' cn hc' => ⟨_, rfl, (h.inside_eq hl hc').symm⟩, ?_,
    fun hl' => absurd rfl (hl' _ _ _ _ _), ?_⟩
  · rintro _ ⟨rfl⟩
    exact hfl.call
  · rintro _ _ _ _ _ ⟨rfl⟩
    exact hfl.congr hfl.call rfl rfl rfl rfl rfl

/-- Cancelling the call that delivers a frame. -/
lemma interrupt (h : s.Consistent) {k : Except Exc j.Value → Program (Except Exc β)}
    (hl : s.lock = some (.delivering c j k n fl)) {cn : Cancellation}
    (hc : s.calls c = some ⟨.inside, cn⟩) : (s.interrupt c cn fl).Consistent := by
  unfold State.interrupt
  split
  · split_ifs with hd
    · exact h.setCancellation hc _
    · refine (h.cancelSend hl fun task ht => ?_).setCancellation hc _
      simpa [ht] using hd
  · next hp =>
    split_ifs with hd
    · exact h.setCancellation hc _
    · rw [Bool.not_eq_true, Future.done_eq_false_iff] at hd
      have h' := h.setCancellation hc ⟨cn.requests + 1, cn.mustCancel⟩
      refine h'.congr rfl (fun _ => Iff.rfl) (fun i hi => ?_) h'.idle fun c' j' k' n' fl' hl' => ?_
      · have hne : i ≠ fl.id := by
          have := (h.flying _ _ _ _ _ hl).newest
          simp only [setPhase_nextId] at hi
          omega
        simpa [hne] using h.unborn i hi
      · have hfl := h'.flying c' j' k' n' fl' hl'
        rw [State.setPhase, hl] at hl'
        cases hl'
        obtain ⟨⟨frame, register, rfl⟩, -⟩ := hfl.atReply hp
        refine ⟨hfl.call, hfl.newest, hfl.task, ⟨hfl.tracked.1, .inl (hfl.waiters_of_pending hd)⟩,
          by simp [hd, Future.cancel], fun _ => hp, by simp [hp], hfl.atReply⟩
  · exact h.setCancellation hc _

/-- A reply reaches its waiter. -/
lemma answerWaiter (h : s.Consistent) {register : UInt8} {w : Waiter} {payload : Bytes}
    (hw : s.waiters.lookup register = some w) : (s.answerWaiter register w payload).Consistent := by
  obtain ⟨c, frame, k, n, fl, hl, rfl⟩ := h.lookup hw
  have hfl := h.flying _ _ _ _ _ hl
  obtain ⟨hwe, -, -⟩ := hfl.waiters_of_lookup hw
  refine h.congr rfl (fun _ => Iff.rfl) (fun i hi => ?_) (fun hl' => absurd hl (hl' _ _ _ _ _))
    fun c' j' k' n' fl' hl' => ?_
  · have hne : i ≠ fl.id := by
      have := hfl.newest
      simp only [State.answerWaiter] at hi
      omega
    exact ⟨(h.unborn i hi).1, by simpa [State.answerWaiter, hne] using (h.unborn i hi).2⟩
  · rw [hl] at hl'
    cases hl'
    have hf : (s.answerWaiter register ⟨fl.id, frame.flag⟩ payload).futures fl.id =
      (s.futures fl.id).resolve payload := by simp [State.answerWaiter]
    refine ⟨hfl.call, hfl.newest, hfl.task, ⟨hfl.tracked.1, .inr ⟨?_, ?_⟩⟩, fun e he => ?_,
      fun he => ?_, fun hp => ?_, hfl.atReply⟩
    · simp only [State.answerWaiter, hwe, Waiters.erase_singleton]
    · rw [hf]
      cases s.futures fl.id <;> simp [Future.resolve]
    · refine hfl.dropped e ?_
      rw [hf] at he
      cases hs : s.futures fl.id <;> simp_all [Future.resolve]
    · refine hfl.cancelled ?_
      rw [hf] at he
      cases hs : s.futures fl.id <;> simp_all [Future.resolve]
    · obtain ⟨p, hp⟩ := hfl.atSend hp
      exact ⟨p, by rw [hf, hp, Future.resolve_of_done rfl]⟩

/-- The link drops. -/
lemma failAll (h : s.Consistent) : s.failAll.Consistent := by
  refine h.congr rfl (fun _ => Iff.rfl) (fun i hi => ?_) (fun _ => ⟨rfl, rfl⟩)
    fun c j k n fl hl => ?_
  · refine ⟨(h.unborn i hi).1, ?_⟩
    have hi' : ¬ (i ∈ s.waiting ∨ i ∈ s.sends) := fun hm => by
      obtain ⟨c, j, k, n, fl, hl, rfl⟩ := h.mem_tables hm
      have := (h.flying _ _ _ _ _ hl).newest
      simp only [State.failAll] at hi
      omega
    simpa [State.failAll, hi'] using (h.unborn i hi).2
  · have hfl := h.flying _ _ _ _ _ hl
    have hf := hfl.failAll_futures
    refine ⟨hfl.call, hfl.newest, hfl.task, ?_, fun e he => ?_, fun he => ?_, fun hp => ?_,
      hfl.atReply⟩
    · have ht := hfl.tracked
      have hne : (s.futures fl.id).fail dropped ≠ .pending := by
        cases s.futures fl.id <;> simp [Future.fail]
      cases j with
      | request frame register => exact ⟨rfl, .inr ⟨rfl, by rwa [hf]⟩⟩
      | writeFrames frames =>
        refine ⟨rfl, .inr ⟨rfl, ?_⟩⟩
        rw [hf]
        obtain ⟨-, ⟨-, hp⟩ | ⟨-, hp⟩⟩ := ht <;> rw [hp] <;> rfl
      | history count =>
        refine ⟨rfl, .inr ⟨rfl, ?_⟩⟩
        rw [hf]
        obtain ⟨-, ⟨-, hp⟩ | ⟨-, hp⟩⟩ := ht <;> rw [hp] <;> rfl
    · rw [hf] at he
      cases hs : s.futures fl.id <;> simp_all [Future.fail]
      exact hfl.dropped _ hs
    · refine hfl.cancelled ?_
      rw [hf] at he
      cases hs : s.futures fl.id <;> simp_all [Future.fail]
    · obtain ⟨p, hp⟩ := hfl.atSend hp
      exact ⟨p, by rw [hf, hp, Future.fail_of_done rfl]⟩

end Consistent

/-! ### Every reachable state is consistent -/

lemma Consistent.init (timeoutHint : Option String) (password : Option ℤ) :
    (State.init β timeoutHint password).Consistent where
  unborn _ _ := ⟨rfl, rfl⟩
  inside _ _ h := by cases h
  owner _ h := by cases h
  idle _ := ⟨rfl, rfl⟩
  flying _ _ _ _ _ h := by cases h

/-- One step keeps the tables consistent. -/
theorem Consistent.step {s s' : State β} {e : Event β} (h : s.Consistent) (hst : Step s e s') :
    s'.Consistent := by
  cases hst with
  | spawn hc | begin hc | skip hc | finish hc | getPassword hc | refuse hc | queue hc | giveUp hc
  | cancelFresh hc | cancelQueued hc => exact h.setPhase (by simp [hc]) (by simp)
  | link => exact h.of_eq rfl rfl rfl rfl rfl rfl rfl
  | @setPassword c password k cn hc =>
    have h' : (s.setPhase c (.running (k ())) cn).Consistent :=
      h.setPhase (by simp [hc]) (by simp)
    exact h'.of_eq rfl rfl rfl rfl rfl rfl rfl
  | enter hc hm hl => exact (h.settled_of_free hl).goesOn (s.goesOn_enter _ _ _ _)
  | awaitSend hc hl ht hd =>
    have hfl := h.flying _ _ _ _ _ hl
    refine h.setPoint hl ⟨hfl.call, hfl.newest, hfl.task, hfl.tracked, hfl.dropped, ?_, ?_, by simp⟩
    · intro hf
      obtain ⟨-, -, -, payload, hp⟩ := Delivery.result_of_awaitSend hd
      rw [hf] at hp
      cases hp
    · exact fun _ => (Delivery.result_of_awaitSend hd).2.2.2
  | awaitReply hc hl ht hd hf hp =>
    have hfl := h.flying _ _ _ _ _ hl
    obtain ⟨frame, state, -, ht'⟩ := hfl.task
    rw [ht] at ht'
    cases ht'
    obtain rfl : state = .done .returned := Delivery.returned_of_delivered hd hp
    exact h.setPoint hl ⟨hfl.call, hfl.newest, hfl.task, hfl.tracked, hfl.dropped, by simp,
      by simp, fun _ => ⟨⟨_, _, rfl⟩, frame, ht⟩⟩
  | reply hc hl | failed hc hl | raised hc hl => exact (h.land hl).release
  | next hc hl ht hd => exact (h.land hl).goesOn (State.goesOn_nextFrame _ _ _ _ _ _)
  | collect hc hl ht hd => exact (h.land hl).collect
  | wake hc hl hm hb => exact h.of_eq rfl rfl rfl rfl rfl rfl rfl
  | stop hc hl hm => exact (h.settled_of_collecting hl).release
  | @idle c count k phase cn hc hl hm =>
    have h' : (s.release c cn.requests (.history count) k (.ok s.bulk)).Consistent :=
      (h.settled_of_collecting hl).release
    exact h'.of_eq rfl rfl rfl rfl rfl rfl rfl
  | cancelCollecting hc hl => exact h.setCancellation hc _
  | cancel hc hl => exact h.interrupt hl hc
  | expire hc hl hx =>
    obtain ⟨cn, hc'⟩ := (h.flying _ _ _ _ _ hl).call
    rw [hc] at hc'
    cases hc'
    exact (h.setPoint hl (h.flying _ _ _ _ _ hl).expire).interrupt rfl hc
  | @sendStart i task ht hs =>
    have h' : (s.setSend i task .running).Consistent := h.setSend _ ht (by simp [hs])
    exact h'.of_eq rfl rfl rfl rfl rfl rfl rfl
  | sendUnwind ht hs => exact h.setSend _ ht (by simp [hs])
  | sendEnd ht hs ho => exact h.setSend _ ht (by rintro h; simp [h, TaskState.busy] at hs)
  | record hr => exact h.of_eq rfl rfl rfl rfl rfl rfl rfl
  | answer hp hw => exact h.answerWaiter hw
  | ignore hr hw => exact h
  | disconnect hs => exact h.failAll

/-- The invariant of the machine. -/
theorem consistent_of_run {timeoutHint : Option String} {password : Option ℤ}
    {P : State β → Event β → Prop} {es : List (Event β)} {s : State β}
    (h : ClientRun timeoutHint password P es s) : s.Consistent :=
  h.invariant (fun _ _ _ hs _ hst => hs.step (Step.of_step hst)) (.init timeoutHint password)

end State

/-- The client's invariant rule: every step is a transition from a consistent state. -/
theorem invariant_of_run {timeoutHint : Option String} {password : Option ℤ}
    {P : State β → Event β → Prop} {J : State β → Prop} {es : List (Event β)} {s t : State β}
    (hJ : ∀ u e v, u.Consistent → J u → P u e → Step u e v → J v)
    (h : Run (machine β timeoutHint password) P s es t) (hs : s.Consistent) (hj : J s) : J t :=
  h.invariant_from (fun _ _ _ hu hst => hu.step (Step.of_step hst))
    (fun u e v hu hju hP hst => hJ u e v hu hju hP (Step.of_step hst)) hs hj

end SpinevBle
