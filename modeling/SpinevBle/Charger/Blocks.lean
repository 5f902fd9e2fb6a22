import SpinevBle.Charger.Sends

/-!
# The frames on the wire, job by job

Since a job keeps the lock until its last frame, the frames that were handed to the transport can
be cut into pieces, one for each job, in the order in which the jobs had the lock. A piece is as
much of the job's frames as the job came to, which is all of them if it ended well.
-/

namespace SpinevBle

open Asyncio Interaction Transition

variable {β : Type} {s s' : State β} {e : Event β}

namespace State

/-- Send `i` carries frame `f` for call `c`. -/
def Carries (s : State β) (c i : ℕ) (f : Frame) : Prop :=
  ∃ state, s.sendTasks i = some ⟨c, f, state⟩

/-- Send `i` has delivered frame `f` for call `c`. -/
def Delivered (s : State β) (c i : ℕ) (f : Frame) : Prop :=
  s.sendTasks i = some ⟨c, f, .done .returned⟩

/-- The piece of the wire that belongs to a job of call `c`: its first frames, in order. -/
def Piece (s : State β) (c : ℕ) (j : Job) (ids : List ℕ) : Prop :=
  ∃ frames, frames <+: j.frames ∧ List.Forall₂ (s.Carries c) ids frames

/-- The piece of a job that has ended: all of it, and delivered, if the job ended well. -/
def Closed (s : State β) (b : Block) (ids : List ℕ) : Prop :=
  s.Piece b.call b.job ids ∧
    ∀ v, b.outcome = .ok v → List.Forall₂ (s.Delivered b.call) ids b.job.frames

/-- The piece of the job that has the lock. The send of the frame in progress is the last of it,
once it has started. -/
def Current (s : State β) (ids : List ℕ) : Prop :=
  match s.lock with
  | none => ids = []
  | some (.collecting c count _) => List.Forall₂ (s.Delivered c) ids (Job.history count).frames
  | some (.delivering c j _ n fl) => ∃ sent last, ids = sent ++ last ∧
      List.Forall₂ (s.Delivered c) sent (j.frames.take n) ∧
      (last = [fl.id] ∧ (∀ task, s.sendTasks fl.id = some task → task.state ≠ .created) ∨
        last = [] ∧ ∀ task, s.sendTasks fl.id = some task →
          task.state = .created ∨ task.state = .done .cancelled)

/-- The wire is cut into the pieces of the jobs that have ended and of the one that has the
lock. -/
def Cut (s : State β) (pieces : List (List ℕ)) (current : List ℕ) : Prop :=
  s.wire = pieces.reverse.flatten ++ current ∧ List.Forall₂ s.Closed s.blocks pieces ∧
    s.Current current

end State

/-! ### Pieces last -/

section

variable {c i : ℕ} {f : Frame} {ids : List ℕ} {frames : List Frame}

lemma State.Delivered.carries (h : s.Delivered c i f) : s.Carries c i f := ⟨_, h⟩

lemma State.Carries.step (h : s.Carries c i f) (hs : s.Consistent) (hst : Step s e s') :
    s'.Carries c i f := by
  obtain ⟨state, ht⟩ := h
  exact hst.sendTask_stays hs ht

lemma State.Delivered.step (h : s.Delivered c i f) (hs : s.Consistent) (hst : Step s e s') :
    s'.Delivered c i f :=
  hst.sendTask_done hs h rfl

lemma State.Closed.step {b : Block} (h : s.Closed b ids) (hs : s.Consistent) (hst : Step s e s') :
    s'.Closed b ids := by
  obtain ⟨⟨fs, hp, hc⟩, hd⟩ := h
  exact ⟨⟨fs, hp, hc.imp fun _ _ h => h.step hs hst⟩,
    fun v hv => (hd v hv).imp fun _ _ h => h.step hs hst⟩

lemma delivered_step (h : List.Forall₂ (s.Delivered c) ids frames) (hs : s.Consistent)
    (hst : Step s e s') : List.Forall₂ (s'.Delivered c) ids frames :=
  h.imp fun _ _ h => h.step hs hst

lemma State.Piece.of_delivered {j : Job} (h : List.Forall₂ (s.Delivered c) ids j.frames) :
    s.Piece c j ids :=
  ⟨j.frames, List.prefix_rfl, h.imp fun _ _ h => h.carries⟩

lemma State.current_of_free (hl : s.lock = none) : s.Current ids ↔ ids = [] := by
  rw [State.Current, hl]

lemma State.current_of_collecting {count : ℤ}
    {k : Except Exc (List Bytes) → Program (Except Exc β)}
    (hl : s.lock = some (.collecting c count k)) :
    s.Current ids ↔ List.Forall₂ (s.Delivered c) ids (Job.history count).frames := by
  rw [State.Current, hl]

section

variable {j : Job} {k : Except Exc j.Value → Program (Except Exc β)} {n : ℕ} {fl : Flight}

lemma State.current_of_delivering (hl : s.lock = some (.delivering c j k n fl)) :
    s.Current ids ↔ ∃ sent last, ids = sent ++ last ∧
      List.Forall₂ (s.Delivered c) sent (j.frames.take n) ∧
      (last = [fl.id] ∧ (∀ task, s.sendTasks fl.id = some task → task.state ≠ .created) ∨
        last = [] ∧ ∀ task, s.sendTasks fl.id = some task →
          task.state = .created ∨ task.state = .done .cancelled) := by
  rw [State.Current, hl]

/-- The piece of the job in progress. -/
lemma State.Current.piece (h : s.Current ids) (hl : s.lock = some (.delivering c j k n fl))
    (hfl : s.Flying c j n fl) : s.Piece c j ids := by
  obtain ⟨sent, last, rfl, hsent, hlast⟩ := (current_of_delivering hl).1 h
  obtain ⟨frame, state, hj, ht⟩ := hfl.task
  have hsent' := hsent.imp fun _ _ h => h.carries
  rcases hlast with ⟨rfl, -⟩ | ⟨rfl, -⟩
  · refine ⟨j.frames.take (n + 1), List.take_prefix _ _, ?_⟩
    rw [List.take_add_one, hj]
    exact List.rel_append hsent' (.cons ⟨state, ht⟩ .nil)
  · refine ⟨j.frames.take n, List.take_prefix _ _, ?_⟩
    rwa [List.append_nil]

/-- Once the frame in progress is delivered, so is the whole piece. -/
lemma State.Current.delivered (h : s.Current ids) (hl : s.lock = some (.delivering c j k n fl))
    (hfl : s.Flying c j n fl) {task : SendTask} (ht : s.sendTasks fl.id = some task)
    (hd : task.state = .done .returned) :
    List.Forall₂ (s.Delivered c) ids (j.frames.take (n + 1)) := by
  obtain ⟨sent, last, rfl, hsent, hlast⟩ := (current_of_delivering hl).1 h
  obtain ⟨frame, state, hj, ht'⟩ := hfl.task
  rcases hlast with ⟨rfl, -⟩ | ⟨-, hn⟩
  · rw [List.take_add_one, hj]
    rw [ht'] at ht
    cases ht
    obtain rfl : state = .done .returned := hd
    exact List.rel_append hsent (.cons ht' .nil)
  · have := hn task ht
    simp [hd] at this

end

/-- The last piece of the wire belongs to the job that has the lock. -/
lemma State.Current.piece_of_lock (h : s.Current ids) (hs : s.Consistent) {hd : Holder β}
    (hl : s.lock = some hd) : s.Piece hd.call hd.job ids := by
  cases hd with
  | delivering c j k n fl => exact h.piece hl (hs.flying _ _ _ _ _ hl)
  | collecting c count k => exact .of_delivered ((State.current_of_collecting hl).1 h)

/-- Whether the send in progress has started does not change unless it starts. -/
private lemma keep_delivering {ids : List ℕ} {c : ℕ} {j : Job}
    {k : Except Exc j.Value → Program (Except Exc β)} {n : ℕ} {fl : Flight} (h : s.Current ids)
    (hs : s.Consistent) (hst : Step s e s') (hl : s.lock = some (.delivering c j k n fl))
    (he : ∀ i, e ≠ .sendStart i) :
    ∃ sent last, ids = sent ++ last ∧ List.Forall₂ (s'.Delivered c) sent (j.frames.take n) ∧
      (last = [fl.id] ∧ (∀ task, s'.sendTasks fl.id = some task → task.state ≠ .created) ∨
        last = [] ∧ ∀ task, s'.sendTasks fl.id = some task →
          task.state = .created ∨ task.state = .done .cancelled) := by
  obtain ⟨sent, last, hids, hsent, hlast⟩ := (State.current_of_delivering hl).1 h
  refine ⟨sent, last, hids, delivered_step hsent hs hst, hlast.imp ?_ ?_⟩
  · rintro ⟨hl', hn⟩
    refine ⟨hl', fun task ht => ?_⟩
    have hc := hst.sendTasks_cases fl.id
    rw [ht] at hc
    cases hc with
    | same h => exact hn task h.symm
    | create hi =>
      have := (hs.flying _ _ _ _ _ hl).newest
      omega
    | @cancel _ _ _ _ _ _ task' _ _ ht' => cases hts : task'.state <;> simp [TaskState.cancel]
    | start => exact absurd rfl (he _)
    | unwind => simp
    | finish => simp
  · rintro ⟨hl', hn⟩
    refine ⟨hl', fun task ht => ?_⟩
    have hc := hst.sendTasks_cases fl.id
    rw [ht] at hc
    cases hc with
    | same h => exact hn task h.symm
    | create hi => exact .inl rfl
    | cancel _ _ ht' => obtain h | h := hn _ ht' <;> simp [h, TaskState.cancel]
    | start => exact absurd rfl (he _)
    | unwind ht' hs' => obtain h | h := hn _ ht' <;> simp [h] at hs'
    | finish ht' hs' => obtain h | h := hn _ ht' <;> simp [h, TaskState.busy] at hs'

/-- The lock is as it was, but for where the frame in progress is waited for. -/
def SameJob (s s' : State β) : Prop :=
  s'.lock = s.lock ∨ ∃ c j k n fl fl', s.lock = some (.delivering c j k n fl) ∧
    s'.lock = some (.delivering c j k n fl') ∧ fl'.id = fl.id

/-- The piece of the job in progress grows with the start of a send only. -/
lemma State.Current.keep (h : s.Current ids) (hs : s.Consistent) (hst : Step s e s')
    (hl : SameJob s s') (he : ∀ i, e ≠ .sendStart i) : s'.Current ids := by
  rcases hl with hl | ⟨c, j, k, n, fl, fl', hl, hl', hid⟩
  · cases hlock : s.lock with
    | none =>
      rw [State.current_of_free (hl.trans hlock)]
      exact (State.current_of_free hlock).1 h
    | some hd =>
      cases hd with
      | collecting c count k =>
        rw [State.current_of_collecting (hl.trans hlock)]
        exact delivered_step ((State.current_of_collecting hlock).1 h) hs hst
      | delivering c j k n fl =>
        rw [State.current_of_delivering (hl.trans hlock)]
        exact keep_delivering h hs hst hlock he
  · rw [State.current_of_delivering hl', hid]
    exact keep_delivering h hs hst hl he

/-! ### The cut -/

namespace State.Cut

variable {pieces : List (List ℕ)}

lemma init (timeoutHint : Option String) (password : Option ℤ) :
    (State.init β timeoutHint password).Cut [] [] :=
  ⟨rfl, .nil, rfl⟩

lemma keep (h : s.Cut pieces ids) (hs : s.Consistent) (hst : Step s e s')
    (hw : s'.wire = s.wire) (hb : s'.blocks = s.blocks) (hl : SameJob s s')
    (he : ∀ i, e ≠ .sendStart i) : s'.Cut pieces ids := by
  obtain ⟨hwire, hblocks, hcur⟩ := h
  exact ⟨hw.trans hwire, hb ▸ hblocks.imp fun _ _ h => h.step hs hst, hcur.keep hs hst hl he⟩

/-- The job that has the lock ends. -/
lemma close (h : s.Cut pieces ids) (hs : s.Consistent) (hst : Step s e s')
    (hw : s'.wire = s.wire) {b : Block} (hb : s'.blocks = b :: s.blocks) (hl : s'.lock = none)
    (hc : s.Closed b ids) : s'.Cut (ids :: pieces) [] := by
  obtain ⟨hwire, hblocks, -⟩ := h
  refine ⟨?_, ?_, (current_of_free hl).2 rfl⟩
  · rw [hw, hwire]
    simp
  · rw [hb]
    exact .cons (hc.step hs hst) (hblocks.imp fun _ _ h => h.step hs hst)

/-- The next frame of a job is launched. -/
lemma launch (h : s.Cut pieces ids) (hs : s.Consistent) (hst : Step s e s')
    (hw : s'.wire = s.wire) (hb : s'.blocks = s.blocks) {j : Job}
    {k : Except Exc j.Value → Program (Except Exc β)} {n : ℕ} {fl : Flight}
    (hl : s'.lock = some (.delivering c j k n fl))
    (ht : ∃ task, s'.sendTasks fl.id = some task ∧ task.state = .created)
    (hd : List.Forall₂ (s.Delivered c) ids (j.frames.take n)) : s'.Cut pieces ids := by
  obtain ⟨hwire, hblocks, -⟩ := h
  refine ⟨hw.trans hwire, hb ▸ hblocks.imp fun _ _ h => h.step hs hst,
    (current_of_delivering hl).2 ⟨ids, [], by simp, delivered_step hd hs hst, .inr ⟨rfl, ?_⟩⟩⟩
  obtain ⟨task, ht, hc⟩ := ht
  intro task' ht'
  rw [ht] at ht'
  cases ht'
  exact .inl hc

/-- The send of the frame in progress starts. -/
lemma sendStart (h : s.Cut pieces ids) (hs : s.Consistent) (ho : s.SendsOwned) {i : ℕ}
    {task : SendTask} (ht : s.sendTasks i = some task) (hc : task.state = .created)
    (hst : Step s e s')
    (hs' : s' = { s.setSend i task .running with wire := s.wire ++ [i] }) :
    s'.Cut pieces (ids ++ [i]) := by
  obtain ⟨hwire, hblocks, hcur⟩ := h
  obtain ⟨c, j, k, n, fl, hl, rfl⟩ := ho i task ht (.inl hc)
  obtain ⟨sent, last, rfl, hsent, hlast⟩ := (current_of_delivering hl).1 hcur
  rcases hlast with ⟨-, hn⟩ | ⟨rfl, -⟩
  · exact absurd hc (hn task ht)
  · have hl' : s'.lock = some (.delivering c j k n fl) := by rw [hs', ← hl]; rfl
    refine ⟨by rw [hs']; simp [hwire], ?_, (current_of_delivering hl').2 ⟨sent, [fl.id], by simp,
      delivered_step hsent hs hst, .inl ⟨rfl, fun task' ht' => ?_⟩⟩⟩
    · have hb : s'.blocks = s.blocks := by rw [hs']; rfl
      exact hb ▸ hblocks.imp fun _ _ h => h.step hs hst
    · simp only [hs', setSend, Function.update_self, Option.some.injEq] at ht'
      simp [← ht']

/-- A job goes on to its next frame, or ends. -/
lemma goesOn {t : State β} (h : s.Cut pieces ids) (hs : s.Consistent) {cn : Cancellation}
    {j : Job} {k : Except Exc j.Value → Program (Except Exc β)} {n : ℕ}
    (hg : t.GoesOn c cn j k n s') (hst : Step s e s') (hw : t.wire = s.wire)
    (hb : t.blocks = s.blocks) (hd : List.Forall₂ (s.Delivered c) ids (j.frames.take n)) :
    ∃ pieces' ids', s'.Cut pieces' ids' := by
  cases hg with
  | launch hj =>
    exact ⟨pieces, ids, h.launch hs hst hw hb rfl ⟨_, Function.update_self _ _ _, rfl⟩ hd⟩
  | release hj hr =>
    have hlen : j.frames.take n = j.frames := List.take_of_length_le (by simpa using hj)
    rw [hlen] at hd
    exact ⟨ids :: pieces, [], h.close hs hst hw (congrArg (_ :: ·) hb) rfl
      ⟨.of_delivered hd, fun _ _ => hd⟩⟩

/-- One step keeps the wire in order. -/
lemma step (h : s.Cut pieces ids) (hs : s.Consistent) (ho : s.SendsOwned) (hst : Step s e s') :
    ∃ pieces' ids', s'.Cut pieces' ids' := by
  have hcur := h.2.2
  have hst' := hst
  cases hst' with
  | enter hc hm hl =>
    obtain rfl := (current_of_free hl).1 hcur
    exact h.goesOn hs (s.goesOn_enter _ _ _ _) hst rfl rfl (by simp)
  | @reply c frame register k n fl cn task payload hc hl ht hd hf =>
    have hfl := hs.flying _ _ _ _ _ hl
    obtain ⟨frame', -, hj, -⟩ := hfl.task
    obtain ⟨rfl, -⟩ := Job.frames_request hj
    have hdel := hcur.delivered hl hfl ht (Step.returned_of_delivered hs hl ht hd)
    exact ⟨ids :: pieces, [], h.close hs hst rfl rfl rfl ⟨.of_delivered hdel, fun _ _ => hdel⟩⟩
  | failed hc hl ht hd hf =>
    exact ⟨ids :: pieces, [], h.close hs hst rfl rfl rfl
      ⟨hcur.piece hl (hs.flying _ _ _ _ _ hl), by simp⟩⟩
  | raised hc hl ht hd =>
    exact ⟨ids :: pieces, [], h.close hs hst rfl rfl rfl
      ⟨hcur.piece hl (hs.flying _ _ _ _ _ hl), by simp⟩⟩
  | next hc hl ht hd =>
    exact h.goesOn hs (State.goesOn_nextFrame _ _ _ _ _ _) hst rfl rfl
      (hcur.delivered hl (hs.flying _ _ _ _ _ hl) ht (Step.returned_of_delivered hs hl ht hd))
  | @collect c count k n fl cn task hc hl ht hd =>
    have hfl := hs.flying _ _ _ _ _ hl
    have hdel := hcur.delivered hl hfl ht (Step.returned_of_delivered hs hl ht hd)
    rw [List.take_of_length_le ((Job.length_frames_history count).trans (by omega))] at hdel
    obtain ⟨hwire, hblocks, -⟩ := h
    exact ⟨pieces, ids, hwire, hblocks.imp fun _ _ h => h.step hs hst,
      (current_of_collecting rfl).2 (delivered_step hdel hs hst)⟩
  | stop hc hl hm =>
    have hdel := (current_of_collecting hl).1 hcur
    exact ⟨ids :: pieces, [], h.close hs hst rfl rfl rfl ⟨.of_delivered hdel, fun _ _ => hdel⟩⟩
  | idle hc hl hm =>
    have hdel := (current_of_collecting hl).1 hcur
    exact ⟨ids :: pieces, [], h.close hs hst rfl rfl rfl ⟨.of_delivered hdel, fun _ _ => hdel⟩⟩
  | sendStart ht hc => exact ⟨pieces, _, h.sendStart hs ho ht hc hst rfl⟩
  | awaitSend hc hl ht hd =>
    exact ⟨pieces, ids, h.keep hs hst rfl rfl
      (.inr ⟨_, _, _, _, _, _, hl, rfl, rfl⟩) (by simp)⟩
  | awaitReply hc hl ht hd hf hp =>
    exact ⟨pieces, ids, h.keep hs hst rfl rfl
      (.inr ⟨_, _, _, _, _, _, hl, rfl, rfl⟩) (by simp)⟩
  | cancel hc hl =>
    exact ⟨pieces, ids, h.keep hs hst (interrupt_wire _ _ _ _)
      (interrupt_blocks _ _ _ _) (.inl (interrupt_lock _ _ _ _)) (by simp)⟩
  | expire hc hl hx =>
    exact ⟨pieces, ids, h.keep hs hst (interrupt_wire _ _ _ _)
      (interrupt_blocks _ _ _ _) (.inr ⟨_, _, _, _, _, _, hl, interrupt_lock _ _ _ _, rfl⟩)
      (by simp)⟩
  | _ => exact ⟨pieces, ids, h.keep hs hst rfl rfl (.inl rfl) (by simp)⟩

end State.Cut

/-- The client's invariant rule, from states in which the wire is in order besides. -/
theorem invariant_of_cut {timeoutHint : Option String} {password : Option ℤ}
    {P : State β → Event β → Prop} {J : State β → Prop} {es : List (Event β)}
    (hJ : ∀ u e v pieces ids, u.Consistent → u.SendsOwned → u.Cut pieces ids → J u → P u e →
      Step u e v → J v)
    (h : ClientRun timeoutHint password P es s) (hj : J (.init β timeoutHint password)) :
    (∃ pieces ids, s.Cut pieces ids) ∧ J s := by
  let I (u : State β) : Prop := u.SendsOwned ∧ (∃ pieces ids, u.Cut pieces ids) ∧ J u
  have hstep : ∀ u e v, u.Consistent → I u → P u e → Step u e v → I v := by
    rintro u e v hs ⟨ho, ⟨pieces, ids, hc⟩, hu⟩ hP hst
    exact ⟨ho.step hst, hc.step hs ho hst, hJ u e v pieces ids hs ho hc hu hP hst⟩
  have hinit : I (.init β timeoutHint password) := ⟨.init _ _, ⟨[], [], .init _ _⟩, hj⟩
  exact (invariant_of_run hstep h (.init _ _) hinit).2

/-- The wire is in order in every run. -/
theorem cut_of_run {timeoutHint : Option String} {password : Option ℤ}
    {P : State β → Event β → Prop} {es : List (Event β)}
    (h : ClientRun timeoutHint password P es s) : ∃ pieces ids, s.Cut pieces ids :=
  (invariant_of_cut (fun _ _ _ _ _ _ _ _ _ _ _ => trivial) h trivial).1

end

end SpinevBle
