import SpinevBle.Charger.Calls

/-!
# What a call has done

What remains of a call is what its program leaves once some of its operations have been answered,
and the jobs of the call that have come to an end are those answers, one for one, but for the jobs
that never had the lock. So a statement about everything that a call has sent or returned can be
read off its program.
-/

namespace SpinevBle

open Asyncio Interaction Transition

variable {β : Type} {s s' : State β} {e : Event β} {c : ℕ}

/-! ### The answers and the jobs of a call -/

/-- The exceptions of a job that never had the lock. -/
def NotEntered (x : Exc) : Prop := x = .spinEv .connection "not connected" ∨ x = .cancelledError

/-- The jobs in the list are those that the trace of call `c` has answers of. -/
inductive Logged (c : ℕ) : List (Σ o : Op, Op.Result o) → List Block → Prop
  | nil : Logged c [] []
  | quiet {o r tr bs} (ho : ∀ j, o ≠ .locked j) (h : Logged c tr bs) : Logged c (⟨o, r⟩ :: tr) bs
  | passed {j x tr bs} (hx : NotEntered x) (h : Logged c tr bs) :
      Logged c (⟨.locked j, .error x⟩ :: tr) bs
  | block {j tr bs} {r : Except Exc j.Value} (h : Logged c tr bs) :
      Logged c (⟨.locked j, r⟩ :: tr) (⟨c, j, r⟩ :: bs)

namespace Logged

variable {tr tr' : List (Σ o : Op, Op.Result o)} {bs bs' : List Block}

lemma append (h : Logged c tr bs) (h' : Logged c tr' bs') : Logged c (tr ++ tr') (bs ++ bs') := by
  induction h with
  | nil => exact h'
  | quiet ho _ ih => exact .quiet ho ih
  | passed hx _ ih => exact .passed hx ih
  | block _ ih => exact .block ih

lemma quiet_snoc {o : Op} {r : Op.Result o} (h : Logged c tr bs) (ho : ∀ j, o ≠ .locked j) :
    Logged c (tr ++ [⟨o, r⟩]) bs := by
  have h := h.append (.quiet (r := r) ho .nil)
  rwa [List.append_nil] at h

lemma passed_snoc {j : Job} {x : Exc} (h : Logged c tr bs) (hx : NotEntered x) :
    Logged c (tr ++ [⟨.locked j, .error x⟩]) bs := by
  have h := h.append (.passed (j := j) hx .nil)
  rwa [List.append_nil] at h

lemma block_snoc (h : Logged c tr bs) (j : Job) (r : Except Exc j.Value) :
    Logged c (tr ++ [⟨.locked j, r⟩]) (bs ++ [⟨c, j, r⟩]) :=
  h.append (.block .nil)

/-- What a job has returned is among the jobs that have come to an end. -/
lemma mem {j : Job} {v : j.Value} (h : Logged c tr bs) (hv : ⟨.locked j, .ok v⟩ ∈ tr) :
    ⟨c, j, .ok v⟩ ∈ bs := by
  induction h with
  | nil => cases hv
  | quiet ho _ ih =>
    rcases List.mem_cons.1 hv with heq | hv
    · cases heq
      exact absurd rfl (ho j)
    · exact ih hv
  | passed _ _ ih =>
    rcases List.mem_cons.1 hv with heq | hv
    · cases heq
    · exact ih hv
  | block _ ih =>
    rcases List.mem_cons.1 hv with heq | hv
    · cases heq
      exact .head _
    · exact .tail _ (ih hv)

end Logged

/-- The jobs of call `c` that have come to an end, oldest first. -/
def State.blocksOf (s : State β) (c : ℕ) : List Block :=
  (s.blocks.filter fun b => b.call = c).reverse

lemma State.mem_blocksOf {b : Block} : b ∈ s.blocksOf c ↔ b ∈ s.blocks ∧ b.call = c := by
  simp [State.blocksOf]

lemma State.blocksOf_cons {b : Block} (hb : s'.blocks = b :: s.blocks) :
    s'.blocksOf c = if b.call = c then s.blocksOf c ++ [b] else s.blocksOf c := by
  simp only [State.blocksOf, hb, List.filter_cons, decide_eq_true_eq]
  split_ifs
  · rw [List.reverse_cons]
  · rfl

lemma State.blocksOf_congr (hb : s'.blocks = s.blocks) : s'.blocksOf c = s.blocksOf c := by
  rw [State.blocksOf, hb, State.blocksOf]

/-! ### The end of a job -/

private lemma ended_goesOn {t : State β} {cn : Cancellation} {j : Job}
    {k : Except Exc j.Value → Program (Except Exc β)} {n : ℕ} {b : Block}
    (hg : t.GoesOn c cn j k n s') (h : s.Remains c (.op (.locked j) k)) (ht : t.blocks = s.blocks)
    (hb : s'.blocks = b :: s.blocks) :
    b.call = c ∧ ∃ k cn, s.Remains b.call (.op (.locked b.job) k) ∧
      s'.calls b.call = some ⟨.running (k b.outcome), cn⟩ := by
  cases hg with
  | launch => exact absurd (ht.symm.trans hb) (List.cons_ne_self _ _).symm
  | release hj hr =>
    obtain ⟨rfl, -⟩ := List.cons.inj hb
    exact ⟨rfl, k, _, h, Function.update_self _ _ _⟩

/-- A job that comes to an end was what its call had to do next, and its outcome is what the call
goes on with. -/
lemma Step.ended (h : Step s e s') {b : Block} (hb : s'.blocks = b :: s.blocks) :
    e.call = some b.call ∧ ∃ k cn, s.Remains b.call (.op (.locked b.job) k) ∧
      s'.calls b.call = some ⟨.running (k b.outcome), cn⟩ := by
  have hsame : ∀ {t : State β}, t.blocks = s.blocks → t.blocks ≠ b :: s.blocks := fun ht hn =>
    (List.cons_ne_self _ _).symm (ht.symm.trans hn)
  cases h with
  | enter hc hm hl =>
    obtain ⟨rfl, h⟩ := ended_goesOn (s.goesOn_enter _ _ _ _) (.queued hc) rfl hb
    exact ⟨rfl, h⟩
  | @next c frames k n fl cn task hc hl ht hd =>
    have hg := (s.land (.writeFrames frames) fl.id).goesOn_nextFrame c
      ⟨(fl.scope.exit cn.requests).1, false⟩ frames k (n + 1)
    obtain ⟨rfl, h⟩ := ended_goesOn hg (.delivering hl) rfl hb
    exact ⟨rfl, h⟩
  | reply hc hl | failed hc hl | raised hc hl =>
    obtain ⟨rfl, -⟩ := List.cons.inj hb
    exact ⟨rfl, _, _, .delivering hl, Function.update_self _ _ _⟩
  | stop hc hl | idle hc hl =>
    obtain ⟨rfl, -⟩ := List.cons.inj hb
    exact ⟨rfl, _, _, .collecting hl, Function.update_self _ _ _⟩
  | cancel | expire => exact absurd hb (hsame (State.interrupt_blocks _ _ _ _))
  | _ => exact absurd hb (hsame rfl)

/-! ### Calls that have not begun -/

/-- A call that has not begun has just been made, or it is one that has been cancelled, or it is as
it was. -/
lemma Step.fresh_cases (h : Step s e s') {p : Program (Except Exc β)} {cn : Cancellation}
    (hc : s'.calls c = some ⟨.fresh p, cn⟩) :
    s.calls c = none ∧ cn.mustCancel = false ∨ (∃ cn', s.calls c = some ⟨.fresh p, cn'⟩) ∧
      (cn.mustCancel = true → e = .cancel c ∨ s.calls c = some ⟨.fresh p, cn⟩) := by
  have hchange := h.calls_cases c
  rw [hc] at hchange
  cases hchange with
  | same ht => exact .inr ⟨⟨_, ht.symm⟩, fun _ => .inr ht.symm⟩
  | spawn hc' => exact .inl ⟨hc', rfl⟩
  | cancelFresh hc' => exact .inr ⟨⟨_, hc'⟩, fun _ => .inl rfl⟩

/-! ### Traces in a run -/

/-- What remains of call `c` is left of `p` after some answers, and these are its jobs. A call that
was cancelled before it began has done nothing. -/
inductive State.Traced (s : State β) (es : List (Event β)) (c : ℕ)
    (p p' : Program (Except Exc β)) : Prop
  | went {tr} (hres : p.Residual tr p') (hl : Logged c tr (s.blocksOf c))
  | cancelled (hp : p' = .pure (.error .cancelledError)) (hb : s.blocksOf c = [])
      (he : .cancel c ∈ es)

/-- Call `c`, made to run `p`, has done what its trace says. -/
structure State.Accounted (s : State β) (es : List (Event β)) (c : ℕ)
    (p : Program (Except Exc β)) : Prop where
  traced : ∀ p', s.Remains c p' → s.Traced es c p p'
  unborn : s.calls c = none → s.blocksOf c = []
  fresh : ∀ p cn, s.calls c = some ⟨.fresh p, cn⟩ →
    s.blocksOf c = [] ∧ (cn.mustCancel = true → .cancel c ∈ es)

namespace State.Accounted

variable {es : List (Event β)} {p : Program (Except Exc β)}

lemma init (timeoutHint : Option String) (password : Option ℤ) :
    (State.init β timeoutHint password).Accounted es c p where
  traced _ hp := by
    cases hp with
    | fresh h | running h | queued h | finished h | delivering h | collecting h => cases h
  unborn _ := rfl
  fresh _ _ hc := by cases hc

private lemma went {o : Op} {k : Op.Result o → Program (Except Exc β)} (h : s.Accounted es c p)
    (hr : s.Remains c (.op o k)) :
    ∃ tr, p.Residual tr (.op o k) ∧ Logged c tr (s.blocksOf c) := by
  cases h.traced _ hr with
  | went hres hl => exact ⟨_, hres, hl⟩
  | cancelled hp => cases hp

/-- One step of the call itself. -/
private lemma traced_step (h : s.Accounted es c p) (hst : Step s e s') (hs : s.Consistent)
    (he : e.call = some c) (hspawn : ∀ q n, e = .spawn c q n → q = p)
    {p' : Program (Except Exc β)} (hp : s'.Remains c p') : s'.Traced es c p p' := by
  rcases hst.blocks_cases hs with hb | ⟨b, hb, -⟩
  · have hblocks : s'.blocksOf c = s.blocksOf c := State.blocksOf_congr hb
    cases hp.progress hst hs with
    | spawn =>
      obtain rfl := hspawn _ _ rfl
      cases hst with
      | spawn hc => exact .went (.nil _) (hblocks.trans (h.unborn hc) ▸ .nil)
    | same hr =>
      cases h.traced _ hr with
      | went hres hl => exact .went hres (hblocks ▸ hl)
      | cancelled hp hb he => exact .cancelled hp (hblocks.trans hb) he
    | cancelled hc hm =>
      obtain ⟨hb', hasked⟩ := h.fresh _ _ hc
      exact .cancelled rfl (hblocks.trans hb') (hasked hm)
    | answered hr ha =>
      obtain ⟨tr, hres, hl⟩ := h.went hr
      rw [← hblocks] at hl
      cases ha with
      | getPassword | setPassword => exact .went (hres.snoc _) (hl.quiet_snoc fun _ => Op.noConfusion)
      | refused => exact .went (hres.snoc _) (hl.passed_snoc (.inl rfl))
      | gaveUp => exact .went (hres.snoc _) (hl.passed_snoc (.inr rfl))
      | block hb' => exact absurd (hb.symm.trans hb') (List.cons_ne_self _ _).symm
  · obtain ⟨hcall, k, cn, hr, hc'⟩ := hst.ended hb
    obtain rfl : b.call = c := Option.some.inj (hcall.symm.trans he)
    obtain rfl := hp.unique (.running hc') (hs.step hst)
    obtain ⟨tr, hres, hl⟩ := h.went hr
    refine .went (hres.snoc b.outcome) ?_
    rw [State.blocksOf_cons hb, if_pos rfl]
    exact hl.block_snoc b.job b.outcome

/-- A step that is not of the call, or leaves it to begin, ends none of its jobs. -/
private lemma blocksOf_step (hst : Step s e s') (hs : s.Consistent)
    (h : e.call = some c → ∀ p cn, s'.calls c ≠ some ⟨.running p, cn⟩) :
    s'.blocksOf c = s.blocksOf c := by
  rcases hst.blocks_cases hs with hb | ⟨b, hb, -⟩
  · exact State.blocksOf_congr hb
  · rw [State.blocksOf_cons hb, if_neg]
    rintro rfl
    obtain ⟨hcall, k, cn, -, hc⟩ := hst.ended hb
    exact h hcall _ _ hc

lemma step (h : s.Accounted es c p) (hst : Step s e s') (hs : s.Consistent) (he : e ∈ es)
    (hspawn : ∀ q n, e = .spawn c q n → q = p) : s'.Accounted es c p := by
  refine ⟨fun p' hp => ?_, fun hc => ?_, fun p' cn hc => ?_⟩
  · by_cases hcall : e.call = some c
    · exact h.traced_step hst hs hcall hspawn hp
    · have hblocks : s'.blocksOf c = s.blocksOf c :=
        blocksOf_step hst hs fun h => absurd h hcall
      cases h.traced _ (hp.of_frame hst hcall) with
      | went hres hl => exact .went hres (hblocks ▸ hl)
      | cancelled hp hb hasked => exact .cancelled hp (hblocks.trans hb) hasked
  · rw [blocksOf_step hst hs fun _ p cn => by simp [hc]]
    exact h.unborn (by_contra fun hn => hst.calls_ne_none hn hc)
  · rw [blocksOf_step hst hs fun _ p cn => by simp [hc]]
    rcases hst.fresh_cases hc with ⟨hc', hm⟩ | ⟨⟨cn', hc'⟩, hasked⟩
    · exact ⟨h.unborn hc', by simp [hm]⟩
    · refine ⟨(h.fresh _ _ hc').1, fun hm => ?_⟩
      rcases hasked hm with rfl | hc'
      · exact he
      · exact (h.fresh _ _ hc').2 hm

end State.Accounted

/-- In every run, what remains of a call and what its jobs came to is what its program makes of
them. -/
theorem traced_of_run {timeoutHint : Option String} {password : Option ℤ}
    {P : State β → Event β → Prop} {es : List (Event β)}
    (h : ClientRun timeoutHint password P es s) {p p' : Program (Except Exc β)} {n : ℕ}
    (hp : .spawn c p n ∈ es) (hr : s.Remains c p') : s.Traced es c p p' := by
  have hstep : ∀ u e v, u.Consistent → u.Accounted es c p → P u e ∧ e ∈ es → Step u e v →
      v.Accounted es c p := by
    rintro u e v hu hacc ⟨-, he⟩ hst
    exact hacc.step hst hu he fun q m hq => spawn_unique h (hq ▸ he) hp
  exact (invariant_of_run hstep h.mem (.init _ _) (.init _ _)).traced p' hr

/-! ### Calls that have been made -/

lemma State.exists_remains (hs : s.Consistent) (hc : s.calls c ≠ none) : ∃ p, s.Remains c p := by
  obtain ⟨⟨phase, cn⟩, hc⟩ := Option.ne_none_iff_exists'.1 hc
  cases phase with
  | fresh p => exact ⟨_, .fresh hc⟩
  | running p => exact ⟨_, .running hc⟩
  | queued j k => exact ⟨_, .queued hc⟩
  | finished r => exact ⟨_, .finished hc⟩
  | inside =>
    obtain ⟨hd, hl, rfl⟩ := hs.inside c cn hc
    cases hd with
    | delivering c' j k n fl => exact ⟨_, .delivering hl⟩
    | collecting c' count k => exact ⟨_, .collecting hl⟩

/-- Something remains of every call that has been made, if only its result. -/
lemma remains_of_run {timeoutHint : Option String} {password : Option ℤ}
    {P : State β → Event β → Prop} {es : List (Event β)}
    (h : ClientRun timeoutHint password P es s) {p : Program (Except Exc β)} {n : ℕ}
    (hp : .spawn c p n ∈ es) : ∃ p', s.Remains c p' := by
  obtain ⟨es₁, es₂, rfl⟩ := List.append_of_mem hp
  obtain ⟨t, h₁, h₂⟩ := h.of_append
  cases h₂ with
  | @cons _ u _ _ _ _ hstep hrun =>
    have hst : Step t (.spawn c p n) u := Step.of_step hstep
    have hu := (State.consistent_of_run h₁).step hst
    have hc : u.calls c ≠ none := by
      obtain ⟨q, hq, -⟩ := progress_of_step hst rfl
      exact hq.calls_ne_none hu
    have hkeep : ∀ u e v, u.Consistent → u.calls c ≠ none → P u e → Step u e v →
        v.calls c ≠ none := fun u e v _ hc _ hst => hst.calls_ne_none hc
    refine State.exists_remains (State.consistent_of_run h) ?_
    exact invariant_of_run hkeep hrun hu hc

/-- A call of which there is anything has been made. -/
lemma exists_spawn {timeoutHint : Option String} {password : Option ℤ}
    {P : State β → Event β → Prop} {es : List (Event β)}
    (h : ClientRun timeoutHint password P es s) (hc : s.calls c ≠ none) :
    ∃ p n, .spawn c p n ∈ es := by
  obtain ⟨es₁, e, es₂, v, w, rfl, h₁, hv, -, hst, hw, -⟩ :=
    h.exists_step (fun u => u.calls c ≠ none) (fun hn => hn rfl) hc
  have hvs := State.consistent_of_run h₁
  have hst : Step v e w := .of_step hst
  have hcall : e.call = some c := by
    by_contra he
    exact hv (hst.calls_frame he ▸ hw)
  obtain ⟨p, -, hprogress⟩ := progress_of_step hst hcall
  cases hprogress with
  | spawn => exact ⟨_, _, List.mem_append_right _ List.mem_cons_self⟩
  | same hr | answered hr => exact absurd (hr.calls_ne_none hvs) hv
  | cancelled hc => exact absurd hc (by simp [not_not.1 hv])

/-- What remains of a call that is one operation is the operation or nothing. -/
lemma remains_of_operation {timeoutHint : Option String} {password : Option ℤ}
    {P : State β → Event β → Prop} {es : List (Event β)}
    (h : ClientRun timeoutHint password P es s) {j : Job}
    {g : Except Exc j.Value → Except Exc β}
    (hp : ∀ p n, .spawn c p n ∈ es → p = .op (.locked j) fun r => .pure (g r))
    {p : Program (Except Exc β)} (hr : s.Remains c p) :
    p = (.op (.locked j) fun r => .pure (g r)) ∨ ∃ r, p = .pure r := by
  obtain ⟨q, n, hq⟩ := exists_spawn h (hr.calls_ne_none (State.consistent_of_run h))
  obtain rfl := hp q n hq
  cases traced_of_run h hq hr with
  | went hres hl =>
    rcases hres.of_op with ⟨-, rfl⟩ | ⟨r, tr, -, hres'⟩
    · exact .inl rfl
    · exact .inr ⟨_, hres'.of_pure.2⟩
  | cancelled hp => exact .inr ⟨_, hp⟩

/-! ### What a call has sent -/

/-- The frame that send `i` carries, if it carries one for call `c`. -/
def State.frameOf (s : State β) (c i : ℕ) : Option Frame :=
  (s.sendTasks i).bind fun task => if task.call = c then some task.frame else none

/-- The frames that were handed to the transport for call `c`, oldest first. -/
def State.sentBy (s : State β) (c : ℕ) : List Frame := s.wire.filterMap (s.frameOf c)

lemma State.Carries.frameOf {c' i : ℕ} {f : Frame} (h : s.Carries c' i f) :
    s.frameOf c i = if c' = c then some f else none := by
  obtain ⟨state, ht⟩ := h
  rw [State.frameOf, ht, Option.bind_some]

lemma filterMap_frameOf {c' : ℕ} {ids : List ℕ} {frames : List Frame}
    (h : List.Forall₂ (s.Carries c') ids frames) :
    ids.filterMap (s.frameOf c) = if c' = c then frames else [] := by
  induction h with
  | nil => simp
  | cons hi _ ih =>
    rw [List.filterMap_cons, hi.frameOf, ih]
    split_ifs <;> rfl

/-- What was sent of a job that has come to an end: its first frames, and all of them if it ended
well. -/
def Block.Sent (b : Block) (frames : List Frame) : Prop :=
  frames <+: b.job.frames ∧ ∀ v, b.outcome = .ok v → frames = b.job.frames

private lemma State.Closed.sent {b : Block} {ids : List ℕ} (h : s.Closed b ids) :
    b.Sent (ids.filterMap (s.frameOf b.call)) := by
  obtain ⟨⟨frames, hpre, hc⟩, hd⟩ := h
  constructor
  · rwa [filterMap_frameOf hc, if_pos rfl]
  · intro v hv
    rw [filterMap_frameOf ((hd v hv).imp fun _ _ h => h.carries), if_pos rfl]

private lemma sent_pieces {bs : List Block} {pieces : List (List ℕ)}
    (h : List.Forall₂ s.Closed bs pieces) :
    ∃ sents, List.Forall₂ Block.Sent (bs.filter fun b => b.call = c).reverse sents ∧
      pieces.reverse.flatten.filterMap (s.frameOf c) = sents.flatten := by
  induction h with
  | nil => exact ⟨[], .nil, rfl⟩
  | @cons b ids bs pieces hb _ ih =>
    obtain ⟨sents, hsents, heq⟩ := ih
    rw [List.reverse_cons, List.flatten_concat, List.filterMap_append, heq, List.filter_cons]
    by_cases hc : b.call = c
    · subst hc
      refine ⟨sents ++ [ids.filterMap (s.frameOf b.call)], ?_, List.flatten_concat.symm⟩
      rw [if_pos (by simp), List.reverse_cons]
      exact List.rel_append hsents (.cons hb.sent .nil)
    · obtain ⟨frames, -, hids⟩ := hb.1
      refine ⟨sents, by rwa [if_neg (by simpa using hc)], ?_⟩
      rw [filterMap_frameOf hids, if_neg hc, List.append_nil]

/-- A call has sent what its jobs have come to, one after the other, and a first part of the job
that it is at. -/
theorem sentBy_of_run {timeoutHint : Option String} {password : Option ℤ}
    {P : State β → Event β → Prop} {es : List (Event β)}
    (h : ClientRun timeoutHint password P es s) (c : ℕ) :
    ∃ sents last, List.Forall₂ Block.Sent (s.blocksOf c) sents ∧
      s.sentBy c = sents.flatten ++ last ∧
      (last = [] ∨ ∃ j k, s.Remains c (.op (.locked j) k) ∧ last <+: j.frames) := by
  have hs := State.consistent_of_run h
  obtain ⟨pieces, ids, hwire, hblocks, hcur⟩ := cut_of_run h
  obtain ⟨sents, hsents, heq⟩ := sent_pieces (c := c) hblocks
  refine ⟨sents, ids.filterMap (s.frameOf c), hsents, ?_, ?_⟩
  · rw [State.sentBy, hwire, List.filterMap_append, heq]
  · cases hl : s.lock with
    | none =>
      rw [(State.current_of_free hl).1 hcur]
      exact .inl rfl
    | some hd =>
      obtain ⟨frames, hpre, hids⟩ := hcur.piece_of_lock hs hl
      rw [filterMap_frameOf hids]
      split_ifs with hc
      · subst hc
        refine .inr ⟨hd.job, ?_⟩
        cases hd with
        | delivering c' j k n fl => exact ⟨k, .delivering hl, hpre⟩
        | collecting c' count k => exact ⟨k, .collecting hl, hpre⟩
      · exact .inl rfl

/-- What has nothing to issue sends nothing and ends as it is. -/
lemma idle_of_run {timeoutHint : Option String} {password : Option ℤ}
    {P : State β → Event β → Prop} {es : List (Event β)}
    (h : ClientRun timeoutHint password P es s) {n : ℕ} {r : Except Exc β}
    (hspawn : .spawn c (.pure r) n ∈ es) :
    s.sentBy c = [] ∧ ∀ r' cn, s.calls c = some ⟨.finished r', cn⟩ →
      r' = r ∨ r' = .error .cancelledError ∧ .cancel c ∈ es := by
  have hs := State.consistent_of_run h
  obtain ⟨p', hr⟩ := remains_of_run h hspawn
  obtain ⟨sents, last, hsents, hsent, hlast⟩ := sentBy_of_run h c
  have hout : (s.blocksOf c = [] ∧ ∃ r', p' = .pure r') ∧ ∀ r', p' = .pure r' →
      r' = r ∨ r' = .error .cancelledError ∧ .cancel c ∈ es := by
    cases traced_of_run h hspawn hr with
    | went hres hl =>
      obtain ⟨rfl, rfl⟩ := hres.of_pure
      generalize s.blocksOf c = bs at hl
      cases hl
      refine ⟨⟨rfl, r, rfl⟩, fun r' h' => ?_⟩
      cases h'
      exact .inl rfl
    | cancelled hp hb he =>
      subst hp
      refine ⟨⟨hb, _, rfl⟩, fun r' h' => ?_⟩
      cases h'
      exact .inr ⟨rfl, he⟩
  obtain ⟨⟨hb, r', rfl⟩, hr'⟩ := hout
  rw [hb] at hsents
  cases hsents
  obtain rfl | ⟨j, k, hj, -⟩ := hlast
  · exact ⟨hsent, fun r'' cn hc => hr' r'' (hr.unique (.finished hc) hs)⟩
  · cases hr.unique hj hs

/-! ### Jobs in sequence -/

/-- The program issues the jobs one after the other, and raises what the first of them that fails
raises. -/
inductive Sequence : List Job → Program (Except Exc β) → Prop
  | done {a} : Sequence [] (.pure (.ok a))
  | job {j js} {k : Except Exc j.Value → Program (Except Exc β)} (hok : ∀ v, Sequence js (k (.ok v)))
      (herror : ∀ x, k (.error x) = .pure (.error x)) : Sequence (j :: js) (.op (.locked j) k)

namespace Sequence

variable {js : List Job} {p p' : Program (Except Exc β)} {tr : List (Σ o : Op, Op.Result o)}
  {bs : List Block} {sents : List (List Frame)} {last : List Frame}

/-- What is sent of a sequence is a first part of all its frames, and it is all of them if the
program returns. What it raises one of its jobs has raised. -/
lemma sent (h : Sequence js p) (hres : p.Residual tr p') (hl : Logged c tr bs)
    (hs : List.Forall₂ Block.Sent bs sents)
    (hlast : last = [] ∨ ∃ j k, p' = .op (.locked j) k ∧ last <+: j.frames) :
    sents.flatten ++ last <+: js.flatMap Job.frames ∧
      (∀ a, p' = .pure (.ok a) → sents.flatten ++ last = js.flatMap Job.frames) ∧
      ∀ x, p' = .pure (.error x) → NotEntered x ∨ ∃ j, ⟨c, j, .error x⟩ ∈ bs := by
  induction h generalizing tr bs sents with
  | done =>
    obtain ⟨rfl, rfl⟩ := hres.of_pure
    cases hl
    cases hs
    obtain rfl | ⟨j, k, hp, -⟩ := hlast
    · exact ⟨List.prefix_rfl, fun _ _ => rfl, fun x hx => by cases hx⟩
    · cases hp
  | @job j js k hok herror ih =>
    rw [List.flatMap_cons]
    obtain ⟨rfl, rfl⟩ | ⟨r, tr, rfl, hk⟩ := hres.of_op
    · cases hl
      cases hs
      refine ⟨?_, fun a ha => (by cases ha), fun x hx => (by cases hx)⟩
      obtain rfl | ⟨j', k', hp, hpre⟩ := hlast
      · exact List.nil_prefix
      · cases hp
        exact hpre.trans (List.prefix_append _ _)
    · cases r with
      | ok v =>
        cases hl with
        | quiet ho => exact absurd rfl (ho j)
        | block hl =>
          cases hs with
          | @cons _ frames _ sents hb hs =>
            obtain ⟨hpre, hall, hraised⟩ := ih v hk hl hs
            obtain rfl : frames = j.frames := hb.2 v rfl
            rw [List.flatten_cons, List.append_assoc]
            refine ⟨(List.prefix_append_right_inj _).2 hpre, fun a ha => ?_, fun x hx => ?_⟩
            · rw [hall a ha]
            · exact (hraised x hx).imp_right fun ⟨j', hj'⟩ => ⟨j', .tail _ hj'⟩
      | error x =>
        rw [herror x] at hk
        obtain ⟨rfl, rfl⟩ := hk.of_pure
        obtain rfl : last = [] := by
          obtain h | ⟨j', k', hp, -⟩ := hlast
          · exact h
          · cases hp
        cases hl with
        | quiet ho => exact absurd rfl (ho j)
        | passed hx hl =>
          cases hl
          cases hs
          refine ⟨List.nil_prefix, fun a ha => (by cases ha), fun y hy => ?_⟩
          cases hy
          exact .inl hx
        | block hl =>
          cases hl
          cases hs with
          | cons hb hs =>
            cases hs
            refine ⟨?_, fun a ha => (by cases ha), fun y hy => ?_⟩
            · simpa using hb.1.trans (List.prefix_append _ _)
            · cases hy
              exact .inr ⟨j, .head _⟩

/-- The same of a call that runs the sequence. -/
theorem of_run {timeoutHint : Option String} {password : Option ℤ}
    {P : State β → Event β → Prop} {es : List (Event β)} (hp : Sequence js p)
    (h : ClientRun timeoutHint password P es s) {n : ℕ} (hspawn : .spawn c p n ∈ es) :
    s.sentBy c <+: js.flatMap Job.frames ∧
      (∀ a cn, s.calls c = some ⟨.finished (.ok a), cn⟩ → s.sentBy c = js.flatMap Job.frames) ∧
      ∀ x cn, s.calls c = some ⟨.finished (.error x), cn⟩ →
        NotEntered x ∨ ∃ j, ⟨c, j, .error x⟩ ∈ s.blocks := by
  have hs := State.consistent_of_run h
  obtain ⟨p', hr⟩ := remains_of_run h hspawn
  obtain ⟨sents, last, hsents, hsent, hlast⟩ := sentBy_of_run h c
  have hlast : last = [] ∨ ∃ j k, p' = .op (.locked j) k ∧ last <+: j.frames :=
    hlast.imp_right fun ⟨j, k, hj, hpre⟩ => ⟨j, k, hr.unique hj hs, hpre⟩
  rw [hsent]
  cases traced_of_run h hspawn hr with
  | went hres hl =>
    obtain ⟨hpre, hall, hraised⟩ := hp.sent hres hl hsents hlast
    refine ⟨hpre, fun a cn hc => hall a (hr.unique (.finished hc) hs), fun x cn hc => ?_⟩
    refine (hraised x (hr.unique (.finished hc) hs)).imp_right fun ⟨j, hj⟩ => ⟨j, ?_⟩
    exact (State.mem_blocksOf.1 hj).1
  | cancelled hp' hb _ =>
    subst hp'
    rw [hb] at hsents
    cases hsents
    obtain rfl | ⟨j, k, hj, -⟩ := hlast
    · refine ⟨List.nil_prefix, fun a cn hc => ?_, fun x cn hc => ?_⟩
      · cases hr.unique (.finished hc) hs
      · cases hr.unique (.finished hc) hs
        exact .inl (.inr rfl)
    · cases hj

end Sequence

end SpinevBle
