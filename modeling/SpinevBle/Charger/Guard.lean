import SpinevBle.Charger.Confirmation
import SpinevBle.Charger.Refusals

/-!
# The session guard

A change of the current limit reads the state first and is refused while a session is open. The read
and the write are two requests, and other calls may have the lock between them. What the guard has
read is still true when the limit is sent as long as no call takes the lock for a start in between.
-/

namespace SpinevBle

open Asyncio Interaction Transition

variable {β : Type}

/-! ### Frames of interest -/

/-- The frame starts a session. -/
def Frame.isStart (f : Frame) : Bool :=
  f.register = Register.control.value && f.flag = Operation.write.value &&
    f.raw.b₀.toNat = Command.start.value

lemma isStart_buildControl {n : ℤ} {f : Frame} (h : buildControl .start n = .ok f) :
    f.isStart = true := by
  obtain ⟨hn, rfl⟩ := buildControl_eq_ok.1 h
  rw [Frame.isStart, b₀_control .start hn]
  rfl

/-- The frame changes the current limit. -/
def Frame.isLimit (f : Frame) : Bool :=
  f.register = Register.currentLimit.value && f.flag = Operation.write.value

/-- The frame that reads the state. -/
def stateFrame : Frame := ⟨Register.state.value, Operation.read.value, ⟨0, 0, 0, 0⟩⟩

lemma buildRead_state : buildRead Register.state.id = .ok stateFrame := by
  rw [buildRead_id, buildReadOf_eq_ok (by decide)]
  rfl

/-- The state word in a reply. -/
def stateOf (payload : Bytes) : Except Exc ℕ := do
  let raw ← valueBytes payload s!"register {hex stateFrame.register}"
  decodeUInt raw

def Job.starts (j : Job) : Bool := j.frames.any Frame.isStart

def Job.isStateRead : Job → Bool
  | .request frame _ => frame = stateFrame
  | _ => false

/-! ### When a start may be sent -/

def nextLimit {α : Type} : Program α → Bool
  | .op (.locked (.request frame _)) _ => frame.isLimit
  | _ => false

/-- Call `c` is outside the lock, and the next thing it asks for is a new limit. -/
def State.limitPending (s : State β) (c : ℕ) : Bool :=
  match s.calls c with
  | some ⟨.fresh p, _⟩ | some ⟨.running p, _⟩ => nextLimit p
  | some ⟨.queued (.request frame _) _, _⟩ => frame.isLimit
  | _ => false

/-- When call `c` is resumed, it takes the lock for a job with a start in it. -/
def State.startsNext (s : State β) (c : ℕ) : Bool :=
  match s.calls c with
  | some ⟨.queued j _, cn⟩ => s.lock.isNone && !cn.mustCancel && j.starts
  | _ => false

/-- No call takes the lock for a start while another has read the state and has its new limit still
to send. -/
def StartsSpareGuards (s : State β) : Event β → Prop
  | .run c => s.startsNext c = true → ∀ b ∈ s.blocks, b.job.isStateRead = true → b.call ≠ c →
      s.limitPending b.call = false
  | _ => True

instance (s : State β) (e : Event β) : Decidable (StartsSpareGuards s e) :=
  match e with
  | .run c => inferInstanceAs (Decidable (s.startsNext c = true → ∀ b ∈ s.blocks, _))
  | .spawn .. | .cancel _ | .expire _ | .idle _ | .sendStart _ | .sendUnwind _ | .sendEnd ..
  | .notify _ | .disconnect | .link _ => .isTrue trivial

/-! ### The program of a guarded change -/

/-- No new limit is asked for. -/
def noLimit : Promise Op Op.Result where
  asks o := ∀ j, o = .locked j → ∀ f ∈ j.frames, f.isLimit = false
  answers _ _ := True

abbrev Quiet {α : Type} (p : Program α) : Prop := p.Meets noLimit fun _ => True

lemma quiet_pure {α : Type} (a : α) : Quiet (.pure a : Program α) := Prog.Meets.pure_iff.2 trivial

/-- How the change goes on once the read of the state has come back with `r`. -/
inductive AfterRead (amps : PyFloat) : Except Exc Bytes → Program (Except Exc β) → Prop
  | quiet {r p} (h : Quiet p) : AfterRead amps r p
  | limit {payload state frame k} (hs : stateOf payload = .ok state)
      (ho : state ∉ sessionOpenStates) (hf : buildWriteFloat .currentLimit amps = .ok frame)
      (hk : ∀ r, Quiet (k r)) : AfterRead amps (.ok payload)
        (.op (.locked (.request frame Register.currentLimit.value)) k)

private lemma quiet_commitIf (f : Unit → β) (commit : Bool) : Quiet (f <$> commitIf commit).run := by
  cases commit with
  | false => exact quiet_pure _
  | true =>
    refine Prog.Meets.op_iff.2 ⟨?_, fun r _ => ?_⟩
    · rintro _ ⟨⟩ g hg
      obtain rfl := List.mem_singleton.1 hg
      rfl
    · cases r <;> exact quiet_pure _

/-- What the change does with the state that it has read. -/
private def afterState (frame : Except Exc Frame) (commit : Bool) (state : ℕ) : Client Unit :=
  if state ∈ sessionOpenStates then
    throw (.spinEv .busy <|
      "the charger will not change its current limit during a " ++
      "session. Stop charging first, or pass " ++
      "allow_while_charging=True to write it anyway.")
  else do
    let frame ← raising frame
    let _ ← request frame Register.currentLimit.value
    commitIf commit

/-- The guarded change, from the frame that it builds. -/
private def guardedChange (frame : Except Exc Frame) (commit : Bool) : Client Unit := do
  let payload ← request stateFrame stateFrame.register
  raising (stateOf payload) >>= afterState frame commit

private lemma asyncSetCurrentLimit_eq {amps maxAmps : PyFloat} (commit : Bool)
    (hin : minCurrentA.le amps = true ∧ amps.le maxAmps = true) :
    asyncSetCurrentLimit amps maxAmps commit false =
      guardedChange (buildWriteFloat .currentLimit amps) commit := by
  have hread : asyncGetStateValue = (do
      let payload ← request stateFrame stateFrame.register
      raising (stateOf payload)) := by
    simp only [asyncGetStateValue, asyncReadRaw, buildRead_state, bind_assoc, stateOf,
      ← raising_bind_raising]
    rfl
  simp only [asyncSetCurrentLimit, hin, and_self, not_true_eq_false, if_false,
    Bool.false_eq_true, not_false_eq_true, if_true, hread, bind_assoc]
  rfl

private lemma afterRead_afterState (f : Unit → β) (amps : PyFloat) (commit : Bool)
    (payload : Bytes) :
    AfterRead amps (.ok payload)
      (f <$> (raising (stateOf payload) >>=
        afterState (buildWriteFloat .currentLimit amps) commit)).run := by
  cases hs : stateOf payload with
  | error x => exact .quiet (quiet_pure _)
  | ok state =>
    change AfterRead amps _ (f <$> afterState (buildWriteFloat .currentLimit amps) commit state).run
    unfold afterState
    by_cases ho : state ∈ sessionOpenStates
    · rw [if_pos ho]
      exact .quiet (quiet_pure _)
    · rw [if_neg ho]
      cases hf : buildWriteFloat .currentLimit amps with
      | error x => exact .quiet (quiet_pure _)
      | ok frame =>
        refine .limit hs ho hf fun r => ?_
        cases r with
        | error x => exact quiet_pure _
        | ok reply => exact quiet_commitIf f commit

/-- The guarded change raises at once, or it reads the state first. -/
lemma limit_shape (f : Unit → β) (amps maxAmps : PyFloat) (commit : Bool) :
    Quiet (f <$> asyncSetCurrentLimit amps maxAmps commit false).run ∨
      ∃ k, (f <$> asyncSetCurrentLimit amps maxAmps commit false).run =
        .op (.locked (.request stateFrame stateFrame.register)) k ∧
        ∀ r, AfterRead amps r (k r) := by
  by_cases hin : minCurrentA.le amps = true ∧ amps.le maxAmps = true
  · right
    rw [asyncSetCurrentLimit_eq commit hin]
    refine ⟨_, rfl, fun r => ?_⟩
    cases r with
    | error x => exact .quiet (quiet_pure _)
    | ok payload => exact afterRead_afterState f amps commit payload
  · left
    simp only [asyncSetCurrentLimit, hin, not_false_eq_true, if_true]
    exact quiet_pure _

/-! ### What the guard has seen -/

section

variable {s s' : State β} {e : Event β} {c : ℕ} {amps : PyFloat}

/-- Call `c` has read the state with send `i₀`, which is one of `ids`, and none of the later ones is
a start of another call. -/
structure State.Watched (s : State β) (c : ℕ) (ids : List ℕ) (i₀ : ℕ) (payload : Bytes) : Prop where
  delivered : s.Delivered c i₀ stateFrame
  result : s.futures i₀ = .result payload
  since : ∃ before mid, ids = before ++ i₀ :: mid ∧
    ∀ i ∈ mid, ∃ c' f, s.Carries c' i f ∧ (c' = c ∨ f.isStart = false)

/-- The guard of call `c` was passed on the strength of a send among `ids`. -/
def State.Guarded (s : State β) (c : ℕ) (ids : List ℕ) : Prop :=
  ∃ i₀ payload state, s.Watched c ids i₀ payload ∧ stateOf payload = .ok state ∧
    state ∉ sessionOpenStates

lemma State.Watched.step {ids : List ℕ} {i₀ : ℕ} {payload : Bytes}
    (h : s.Watched c ids i₀ payload) (hs : s.Consistent) (hst : Step s e s') :
    s'.Watched c ids i₀ payload where
  delivered := h.delivered.step hs hst
  result := (hst.future_done (by simp [h.result])).trans h.result
  since := by
    obtain ⟨before, mid, rfl, hmid⟩ := h.since
    refine ⟨before, mid, rfl, fun i hi => ?_⟩
    obtain ⟨c', f, hf, hstart⟩ := hmid i hi
    exact ⟨c', f, hf.step hs hst, hstart⟩

lemma State.Watched.snoc {ids : List ℕ} {i i₀ c' : ℕ} {f : Frame} {payload : Bytes}
    (h : s.Watched c ids i₀ payload) (hf : s.Carries c' i f) (hstart : c' = c ∨ f.isStart = false) :
    s.Watched c (ids ++ [i]) i₀ payload where
  delivered := h.delivered
  result := h.result
  since := by
    obtain ⟨before, mid, rfl, hmid⟩ := h.since
    refine ⟨before, mid ++ [i], by simp, fun i' hi => ?_⟩
    rcases List.mem_append.1 hi with hi | hi
    · exact hmid i' hi
    · rw [List.mem_singleton.1 hi]
      exact ⟨c', f, hf, hstart⟩

lemma State.Guarded.step {ids : List ℕ} (h : s.Guarded c ids) (hs : s.Consistent)
    (hst : Step s e s') : s'.Guarded c ids := by
  obtain ⟨i₀, payload, state, hw, hstate⟩ := h
  exact ⟨i₀, payload, state, hw.step hs hst, hstate⟩

/-- The guard of call `c` is behind it, and it has its new limit still to send. Meanwhile nobody
else has the lock for a start. -/
structure State.PastGuard (s : State β) (c : ℕ) : Prop where
  guarded : s.Guarded c s.wire
  block : ∃ b ∈ s.blocks, b.call = c ∧ b.job.isStateRead = true
  lock : ∀ hd, s.lock = some hd → hd.call ≠ c → hd.job.starts = false

/-- How far call `c` is, which runs `p₀`. -/
inductive State.Stage (s : State β) (c : ℕ) (amps : PyFloat) (p₀ : Program (Except Exc β)) :
    Program (Except Exc β) → Prop
  | quiet {p} (h : Quiet p) : Stage s c amps p₀ p
  | start : Stage s c amps p₀ p₀
  | past {frame k} (h : s.PastGuard c) (hf : buildWriteFloat .currentLimit amps = .ok frame)
      (hk : ∀ r, Quiet (k r)) :
      Stage s c amps p₀ (.op (.locked (.request frame Register.currentLimit.value)) k)

/-- A send that starts belongs to the job that has the lock. -/
lemma carries_of_start (hs : s.Consistent) (ho : s.SendsOwned) {i : ℕ} {task : SendTask}
    (ht : s.sendTasks i = some task) (hc : task.state = .created) :
    ∃ hd f, s.lock = some hd ∧ s.Carries hd.call i f ∧ f ∈ hd.job.frames := by
  obtain ⟨c', j, k, n, fl, hl, rfl⟩ := ho i task ht (.inl hc)
  obtain ⟨f, state, hj, ht'⟩ := (hs.flying _ _ _ _ _ hl).task
  exact ⟨_, f, hl, ⟨state, ht'⟩, List.mem_of_getElem? hj⟩

lemma limitPending_of_remains {frame : Frame} {register : UInt8}
    {k : Except Exc Bytes → Program (Except Exc β)}
    (h : s.Remains c (.op (.locked (.request frame register)) k)) (hf : frame.isLimit = true)
    (hl : s.lock = none) : s.limitPending c = true := by
  unfold State.limitPending
  cases h with
  | fresh hc | running hc => simpa [hc, nextLimit] using hf
  | queued hc => simpa [hc] using hf
  | delivering hl' => simp [hl] at hl'

/-- The guard stays passed while the new limit is still to be sent. -/
lemma State.PastGuard.step (h : s.PastGuard c) (hs : s.Consistent) (ho : s.SendsOwned)
    (hst : Step s e s') (hP : StartsSpareGuards s e) {frame : Frame} {register : UInt8}
    {k : Except Exc Bytes → Program (Except Exc β)}
    (hr : s.Remains c (.op (.locked (.request frame register)) k)) (hf : frame.isLimit = true) :
    s'.PastGuard c where
  guarded := by
    rcases hst.wire_cases with hw | ⟨i, task, -, hw, ht, hc⟩
    · exact hw ▸ h.guarded.step hs hst
    · obtain ⟨hd, f, hl, hcarries, hmem⟩ := carries_of_start hs ho ht hc
      have hstart : hd.call = c ∨ f.isStart = false := by
        by_cases hcall : hd.call = c
        · exact .inl hcall
        · have hnone := h.lock hd hl hcall
          simp only [Job.starts, List.any_eq_false, Bool.not_eq_true] at hnone
          exact .inr (hnone f hmem)
      obtain ⟨i₀, payload, state, hwatched, hstate⟩ := h.guarded
      rw [hw]
      exact ⟨i₀, payload, state, (hwatched.snoc hcarries hstart).step hs hst, hstate⟩
  block := by
    obtain ⟨b, hb, hcall, hread⟩ := h.block
    refine ⟨b, ?_, hcall, hread⟩
    rcases hst.blocks_cases hs with hb' | ⟨b', hb', -⟩
    · exact hb' ▸ hb
    · exact hb' ▸ List.mem_cons_of_mem b' hb
  lock hd hl hcall := by
    rcases hst.lock_origin hl with ⟨hd', hl', hc', hj'⟩ | ⟨rfl, hl', k', cn, hq, hm⟩
    · exact hj' ▸ h.lock hd' hl' (hc' ▸ hcall)
    · by_contra hstarts
      have hnext : s.startsNext hd.call = true := by
        simp [State.startsNext, hq, hl', hm, Bool.eq_true_of_not_eq_false hstarts]
      obtain ⟨b, hb, hbc, hread⟩ := h.block
      have := hP hnext b hb hread (hbc ▸ hcall.symm)
      simp [hbc, limitPending_of_remains hr hf hl'] at this

/-- The reply to the read of the state takes the change past its guard. -/
lemma State.PastGuard.of_answered (hst : Step s e s') (hs : s.Consistent) {pieces : List (List ℕ)}
    {ids : List ℕ} (hcut : s.Cut pieces ids) {register : UInt8} {payload : Bytes} {state : ℕ}
    (ha : Answered s s' c e (.locked (.request stateFrame register)) (.ok payload))
    (hstate : stateOf payload = .ok state) (ho : state ∉ sessionOpenStates) : s'.PastGuard c := by
  cases ha with
  | block hb =>
    cases hst.ending_of_block hs hb with
    | @reply _ _ _ k n fl _ task hl ht hd hf =>
      obtain ⟨frame, st, hj, ht'⟩ := (hs.flying _ _ _ _ _ hl).task
      obtain ⟨rfl, rfl⟩ := Job.frames_request hj
      rw [ht'] at ht
      cases ht
      obtain rfl : st = .done .returned := hd
      refine ⟨?_, ⟨_, hb ▸ List.mem_cons_self, rfl, by simp [Job.isStateRead]⟩, ?_⟩
      · have hwire : s'.wire = s.wire := by
          rcases hst.wire_cases with hw | ⟨_, _, ⟨⟩, -⟩
          exact hw
        obtain ⟨hcutwire, -, hcur⟩ := hcut
        obtain ⟨sent, last, rfl, hsent, hlast⟩ := (State.current_of_delivering hl).1 hcur
        obtain rfl : sent = [] := by simpa using hsent
        have hwatched : s.Watched c s.wire fl.id payload := by
          refine ⟨ht', hf, ?_⟩
          rcases hlast with ⟨rfl, -⟩ | ⟨-, hn⟩
          · exact ⟨_, [], hcutwire, by simp⟩
          · simpa using hn _ ht'
        rw [hwire]
        exact ⟨_, _, _, hwatched.step hs hst, hstate, ho⟩
      · intro hd hl' hcall
        rcases hst.lock_origin hl' with ⟨hd', hl'', hc', -⟩ | ⟨-, hl'', -⟩
        · rw [hl] at hl''
          cases hl''
          exact absurd hc'.symm hcall
        · rw [hl] at hl''
          cases hl''

/-! ### Runs -/

/-- The limit that call `c` sends is sent past its guard. -/
structure State.Guards (s : State β) (c : ℕ) (amps : PyFloat) (p₀ : Program (Except Exc β)) :
    Prop where
  stage : ∀ p, s.Remains c p → s.Stage c amps p₀ p
  sent : ∀ pre i post, s.wire = pre ++ i :: post →
    ∃ c' f, s.Carries c' i f ∧ (c' = c → f.isLimit = true → s.Guarded c pre)

lemma isLimit_buildWriteFloat {frame : Frame}
    (h : buildWriteFloat .currentLimit amps = .ok frame) : frame.isLimit = true := by
  simp [Frame.isLimit, register_buildWriteFloat h, flag_buildWriteFloat h]

variable {p₀ : Program (Except Exc β)}

private lemma stage_step (h : ∀ p, s.Remains c p → s.Stage c amps p₀ p) (hs : s.Consistent)
    (ho : s.SendsOwned) {pieces : List (List ℕ)} {ids : List ℕ} (hcut : s.Cut pieces ids)
    (hst : Step s e s') (hP : StartsSpareGuards s e)
    (hshape : Quiet p₀ ∨ ∃ k, p₀ = .op (.locked (.request stateFrame stateFrame.register)) k ∧
      ∀ r, AfterRead amps r (k r))
    (hspawn : ∀ p n, e = .spawn c p n → p = p₀) (p : Program (Except Exc β))
    (hp : s'.Remains c p) : s'.Stage c amps p₀ p := by
  have hkeep : ∀ p, s.Remains c p → s'.Stage c amps p₀ p := by
    intro p hr
    cases h p hr with
    | quiet hq => exact .quiet hq
    | start => exact .start
    | past hpast hf hk => exact .past (hpast.step hs ho hst hP hr (isLimit_buildWriteFloat hf)) hf hk
  cases hp.progress hst hs with
  | spawn =>
    obtain rfl := hspawn _ _ rfl
    exact .start
  | same hr => exact hkeep _ hr
  | cancelled => exact .quiet (quiet_pure _)
  | @answered _ o k r hr ha =>
    have hquiet : ∀ {o} {k : Op.Result o → Program (Except Exc β)} {r}, Quiet (.op o k) →
        Quiet (k r) := fun hq => (Prog.Meets.op_iff.1 hq).2 _ trivial
    generalize hop : (Prog.op o k : Program (Except Exc β)) = q at hr
    cases h q hr with
    | quiet hq => exact .quiet (hquiet (hop ▸ hq))
    | past hpast hf hk =>
      cases hop
      exact .quiet (hk r)
    | start =>
      subst hop
      rcases hshape with hq | ⟨k', heq, hk⟩
      · exact .quiet (hquiet hq)
      · cases heq
        have hafter := hk r
        generalize hq : k' r = q at hafter ⊢
        cases hafter with
        | quiet hq => exact .quiet hq
        | limit hstate hopen hf hk => exact .past (.of_answered hst hs hcut ha hstate hopen) hf hk

private lemma guarded_of_start (h : ∀ p, s.Remains c p → s.Stage c amps p₀ p)
    (hshape : Quiet p₀ ∨ ∃ k, p₀ = .op (.locked (.request stateFrame stateFrame.register)) k ∧
      ∀ r, AfterRead amps r (k r)) {j : Job} {k : Except Exc j.Value → Program (Except Exc β)}
    (hr : s.Remains c (.op (.locked j) k)) {f : Frame} (hf : f ∈ j.frames)
    (hlimit : f.isLimit = true) : s.Guarded c s.wire := by
  have hnot : ¬ Quiet (.op (.locked j) k : Program (Except Exc β)) := fun hq => by
    simp [(Prog.Meets.op_iff.1 hq).1 j rfl f hf] at hlimit
  generalize hop : (Prog.op (.locked j) k : Program (Except Exc β)) = q at hr hnot
  cases h q hr with
  | quiet hq => exact absurd hq hnot
  | past hpast => exact hpast.guarded
  | start =>
    subst hop
    rcases hshape with hq | ⟨k', heq, -⟩
    · exact absurd hq hnot
    · cases heq
      obtain rfl := List.mem_singleton.1 hf
      cases hlimit

lemma State.Guards.step (h : s.Guards c amps p₀) (hs : s.Consistent) (ho : s.SendsOwned)
    {pieces : List (List ℕ)} {ids : List ℕ} (hcut : s.Cut pieces ids) (hst : Step s e s')
    (hP : StartsSpareGuards s e)
    (hshape : Quiet p₀ ∨ ∃ k, p₀ = .op (.locked (.request stateFrame stateFrame.register)) k ∧
      ∀ r, AfterRead amps r (k r))
    (hspawn : ∀ p n, e = .spawn c p n → p = p₀) : s'.Guards c amps p₀ where
  stage p := stage_step h.stage hs ho hcut hst hP hshape hspawn p
  sent pre i post hw := by
    have hkeep : ∀ pre i post, s.wire = pre ++ i :: post → ∃ c' f, s'.Carries c' i f ∧
        (c' = c → f.isLimit = true → s'.Guarded c pre) := by
      intro pre i post hw
      obtain ⟨c', f, hf, hguarded⟩ := h.sent pre i post hw
      exact ⟨c', f, hf.step hs hst, fun hc hl => (hguarded hc hl).step hs hst⟩
    rcases hst.wire_cases with hw' | ⟨i', task, -, hw', ht, hc⟩
    · exact hkeep pre i post (hw'.symm.trans hw)
    · rw [hw'] at hw
      rcases List.eq_nil_or_concat post with rfl | ⟨post', i'', rfl⟩
      · obtain ⟨rfl, hi⟩ := List.append_inj' hw rfl
        cases hi
        obtain ⟨hd, f, hl, hcarries, hmem⟩ := carries_of_start hs ho ht hc
        refine ⟨hd.call, f, hcarries.step hs hst, fun hcall hlimit => ?_⟩
        subst hcall
        cases hd with
        | delivering c' j k n fl =>
          exact (guarded_of_start h.stage hshape (.delivering hl) hmem hlimit).step hs hst
        | collecting c' count k =>
          exact (guarded_of_start h.stage hshape (.collecting hl) hmem hlimit).step hs hst
      · rw [List.concat_eq_append, ← List.cons_append, ← List.append_assoc] at hw
        exact hkeep pre i post' (List.append_inj' hw rfl).1

end

/-- Every limit that call `c` sends comes after a read of the state by the same call, in which no
session was open, and no other call has sent a start since that read. -/
def State.GuardKept (s : State β) (c : ℕ) : Prop :=
  ∀ pre i post frame, s.wire = pre ++ i :: post → s.Carries c i frame → frame.isLimit = true →
    ∃ before i₀ mid payload state, pre = before ++ i₀ :: mid ∧ s.Delivered c i₀ stateFrame ∧
      s.futures i₀ = .result payload ∧ stateOf payload = .ok state ∧ state ∉ sessionOpenStates ∧
      ∀ i' ∈ mid, ∀ c' g, c' ≠ c → s.Carries c' i' g → ∀ n, buildControl .start n ≠ .ok g

/-- The guard of a change of the current limit is kept as long as no call takes the lock for a start
while another change is past its guard. -/
theorem guard_kept {timeoutHint : Option String} {password : Option ℤ} {es : List (Event β)}
    {s : State β} (h : ClientRun timeoutHint password StartsSpareGuards es s) {c n : ℕ}
    {amps maxAmps : PyFloat} {commit : Bool} {f : Unit → β}
    (hspawn : .spawn c (f <$> asyncSetCurrentLimit amps maxAmps commit false).run n ∈ es) :
    s.GuardKept c := by
  have hshape := limit_shape f amps maxAmps commit
  have hp₀ : ∀ p n, .spawn c p n ∈ es → p = (f <$> asyncSetCurrentLimit amps maxAmps commit false).run :=
    fun p n hp => spawn_unique h hp hspawn
  have hstep : ∀ (u : State β) e v pieces ids, u.Consistent → u.SendsOwned → u.Cut pieces ids →
      u.Guards c amps (f <$> asyncSetCurrentLimit amps maxAmps commit false).run →
      (StartsSpareGuards u e ∧ e ∈ es) → Step u e v →
      v.Guards c amps (f <$> asyncSetCurrentLimit amps maxAmps commit false).run :=
    fun u e v pieces ids hs ho hcut hg hP hst =>
      hg.step hs ho hcut hst hP.1 hshape fun p n he => hp₀ p n (he ▸ hP.2)
  have hinit : (State.init β timeoutHint password).Guards c amps
      (f <$> asyncSetCurrentLimit amps maxAmps commit false).run := by
    refine ⟨fun p hp => ?_, fun pre i post hw => ?_⟩
    · cases hp with
      | fresh h | running h | queued h | finished h | delivering h | collecting h => cases h
    · simp [State.init] at hw
  intro pre i post frame hw hcarries hlimit
  obtain ⟨c', g, hg, hguarded⟩ := (invariant_of_cut hstep h.mem hinit).2.sent pre i post hw
  obtain ⟨st, ht⟩ := hcarries
  obtain ⟨st', ht'⟩ := hg
  rw [ht] at ht'
  cases ht'
  obtain ⟨i₀, payload, state, hwatched, hstate, hopen⟩ := hguarded rfl hlimit
  obtain ⟨before, mid, rfl, hmid⟩ := hwatched.since
  refine ⟨before, i₀, mid, payload, state, rfl, hwatched.delivered, hwatched.result, hstate, hopen,
    fun i' hi c' g hc hg n hn => ?_⟩
  obtain ⟨c'', g', ⟨st, ht⟩, hstart⟩ := hmid i' hi
  obtain ⟨st', ht'⟩ := hg
  rw [ht] at ht'
  cases ht'
  simp [isStart_buildControl hn] at hstart
  exact hc hstart

private lemma asyncSetCurrentLimit_sixteen :
    asyncSetCurrentLimit (.finite 16) (.finite 32) false false =
      guardedChange (.ok limitFrame) false := by
  have hin : minCurrentA.le (.finite 16) = true ∧ PyFloat.le (.finite 16) (.finite 32) = true :=
    ⟨by norm_num [PyFloat.le, minCurrentA], by norm_num [PyFloat.le]⟩
  rw [asyncSetCurrentLimit_eq false hin, buildWriteFloat_limit]

/-- Call 0 runs `p` while call 1 starts charging. -/
def limitAndStart (p : Client Unit) : List (Event Unit) :=
  [.link true, .spawn 0 (id <$> p).run 0, .spawn 1 asyncStartCharging.run 0]

/-- Call 1 sends its start and has it confirmed, as flight `i`. -/
def confirmedStart (i : ℕ) : List (Event Unit) :=
  [.run 1, .sendStart i, .sendEnd i .returned,
    .notify [0x10, 0xAC, 0x3C, 0x01, 0x01, 0x00, 0x00, 0x00], .run 1]

/-- Call 0 reads that the charger is idle, as flight `i`. -/
def idleRead (i : ℕ) : List (Event Unit) :=
  [.run 0, .sendStart i, .sendEnd i .returned,
    .notify [0x10, 0xAC, 0x67, 0x00, 0x00, 0x00, 0x00, 0x02], .run 0]

/-- The start goes out before the state is read. -/
def startThenLimit (p : Client Unit) : List (Event Unit) :=
  limitAndStart p ++ [.run 1, .run 1, .run 1] ++ confirmedStart 0 ++ [.run 0, .run 0] ++
    idleRead 1 ++ [.run 0, .run 0, .sendStart 2]

/-- The start goes out between the read of the state and the write of the limit. -/
def startAfterRead (p : Client Unit) : List (Event Unit) :=
  limitAndStart p ++ [.run 0, .run 0] ++ idleRead 0 ++ [.run 0, .run 1, .run 1, .run 1] ++
    confirmedStart 1 ++ [.run 0, .sendStart 2]

theorem guard_kept_after_start :
    ∃ s, ClientRun none (some 0) StartsSpareGuards
      (startThenLimit (asyncSetCurrentLimit (.finite 16) (.finite 32) false false)) s ∧
      s.wire = [0, 1, 2] ∧ s.GuardKept 0 := by
  have h : ClientRun none (some 0) StartsSpareGuards
      (startThenLimit (guardedChange (.ok limitFrame) false)) _ := Run.of_exec rfl
  rw [← asyncSetCurrentLimit_sixteen] at h
  exact ⟨_, h, rfl, guard_kept h (.tail _ (.head _))⟩

/-- A start of another call goes out between the read of the state and the write of the limit. -/
theorem start_bypasses_guard :
    ∃ s, ClientRun none (some 0) Always
      (startAfterRead (asyncSetCurrentLimit (.finite 16) (.finite 32) false false)) s ∧
      ¬ s.GuardKept 0 := by
  have h : ClientRun none (some 0) Always
      (startAfterRead (guardedChange (.ok limitFrame) false)) _ := Run.of_exec rfl
  rw [← asyncSetCurrentLimit_sixteen] at h
  refine ⟨_, h, fun hkept => ?_⟩
  obtain ⟨before, i₀, mid, payload, state, hpre, hd, -, -, -, hmid⟩ :=
    hkept [0, 1] 2 [] _ rfl ⟨_, rfl⟩ rfl
  rcases before with _ | ⟨_, _ | ⟨_, before⟩⟩
  · obtain ⟨rfl, rfl⟩ := List.cons.inj hpre
    exact hmid 1 (.head _) 1 _ (by decide) ⟨_, rfl⟩ 0 rfl
  · obtain ⟨-, hpre⟩ := List.cons.inj hpre
    obtain ⟨rfl, -⟩ := List.cons.inj hpre
    cases hd
  · simp at hpre

end SpinevBle
