import SpinevBle.Charger.Blocks

/-!
# Calls run their programs

However the calls of a client are interleaved, each of them runs the program of its method: what
remains of the program is unchanged by the steps of others, and goes on with the outcome of its
operation. So a property of a method can be shown of its program alone, by the rules of
`Lib.Interaction`, from what an operation is known to have achieved when it returns.
-/

namespace SpinevBle

open Asyncio Interaction Transition

variable {β : Type} {s s' : State β} {e : Event β} {c : ℕ}

/-! ### What remains of a program -/

/-- What call `c` has still to do. -/
inductive State.Remains (s : State β) (c : ℕ) : Program (Except Exc β) → Prop
  | fresh {p cn} (hc : s.calls c = some ⟨.fresh p, cn⟩) : s.Remains c p
  | running {p cn} (hc : s.calls c = some ⟨.running p, cn⟩) : s.Remains c p
  | queued {j k cn} (hc : s.calls c = some ⟨.queued j k, cn⟩) : s.Remains c (.op (.locked j) k)
  | delivering {j k n fl} (hl : s.lock = some (.delivering c j k n fl)) :
      s.Remains c (.op (.locked j) k)
  | collecting {count k} (hl : s.lock = some (.collecting c count k)) :
      s.Remains c (.op (.locked (.history count)) k)
  | finished {r cn} (hc : s.calls c = some ⟨.finished r, cn⟩) : s.Remains c (.pure r)

namespace State.Remains

variable {p p' : Program (Except Exc β)}

lemma unique (h : s.Remains c p) (h' : s.Remains c p') (hs : s.Consistent) : p = p' := by
  have hin : ∀ {hd : Holder β} {phase : Phase β} {cn : Cancellation}, s.lock = some hd →
      hd.call = c → s.calls c = some ⟨phase, cn⟩ → phase = .inside := by
    rintro hd phase cn hl rfl hc
    obtain ⟨cn', hc'⟩ := hs.owner hd hl
    rw [hc] at hc'
    cases hc'
    rfl
  cases h with
  | fresh hc | running hc | queued hc | finished hc =>
    cases h' with
    | fresh hc' | running hc' | queued hc' | finished hc' =>
      rw [hc] at hc'
      cases hc' <;> rfl
    | delivering hl | collecting hl => cases hin hl rfl hc
  | delivering hl | collecting hl =>
    cases h' with
    | fresh hc' | running hc' | queued hc' | finished hc' => cases hin hl rfl hc'
    | delivering hl' | collecting hl' =>
      rw [hl] at hl'
      cases hl' <;> rfl

lemma calls_ne_none (h : s.Remains c p) (hs : s.Consistent) : s.calls c ≠ none := by
  cases h with
  | fresh hc | running hc | queued hc | finished hc => simp [hc]
  | delivering hl | collecting hl =>
    obtain ⟨cn, hc⟩ := hs.owner _ hl
    exact fun hn => by simp [show s.calls c = _ from hc] at hn

/-- The steps of others leave it alone. -/
lemma of_frame (h : s'.Remains c p) (hst : Step s e s') (he : e.call ≠ some c) :
    s.Remains c p := by
  cases h with
  | fresh hc => exact .fresh (hst.calls_frame he ▸ hc)
  | running hc => exact .running (hst.calls_frame he ▸ hc)
  | queued hc => exact .queued (hst.calls_frame he ▸ hc)
  | delivering hl => exact .delivering (hst.lock_of_lock hl he)
  | collecting hl => exact .collecting (hst.lock_of_lock hl he)
  | finished hc => exact .finished (hst.calls_frame he ▸ hc)

end State.Remains

/-- How a step answers operation `o` of call `c`. -/
inductive Answered (s s' : State β) (c : ℕ) : Event β → (o : Op) → Op.Result o → Prop
  | getPassword : Answered s s' c (.run c) .getPassword s.password
  | setPassword {password} : Answered s s' c (.run c) (.setPassword password) ()
  | refused {j} : Answered s s' c (.run c) (.locked j) (.error (.spinEv .connection "not connected"))
  | gaveUp {j k cn} (hc : s.calls c = some ⟨.queued j k, cn⟩) (hm : cn.mustCancel = true) :
      Answered s s' c (.run c) (.locked j) (.error .cancelledError)
  | block {ev : Event β} {j r} (hb : s'.blocks = ⟨c, j, r⟩ :: s.blocks) :
      Answered s s' c ev (.locked j) r

/-- What a step of call `c` makes of its program. -/
inductive Progress (s s' : State β) (c : ℕ) : Event β → Program (Except Exc β) → Prop
  | spawn {p n} : Progress s s' c (.spawn c p n) p
  | same {ev : Event β} {p} (h : s.Remains c p) : Progress s s' c ev p
  | cancelled {p cn} (hc : s.calls c = some ⟨.fresh p, cn⟩) (hm : cn.mustCancel = true) :
      Progress s s' c (.run c) (.pure (.error .cancelledError))
  | answered {ev : Event β} {o k r} (h : s.Remains c (.op o k)) (ha : Answered s s' c ev o r) :
      Progress s s' c ev (k r)

private lemma progress_goesOn {t : State β} {cn : Cancellation} {j : Job}
    {k : Except Exc j.Value → Program (Except Exc β)} {n : ℕ} (hg : t.GoesOn c cn j k n s')
    (h : s.Remains c (.op (.locked j) k)) (hb : t.blocks = s.blocks) :
    ∃ p, s'.Remains c p ∧ Progress s s' c (.run c) p := by
  cases hg with
  | launch => exact ⟨_, .delivering rfl, .same h⟩
  | release hj hr =>
    exact ⟨_, .running (Function.update_self _ _ _), .answered h (.block (congrArg (_ :: ·) hb))⟩

/-- A step of a call takes its program as far as one operation. -/
lemma progress_of_step (hst : Step s e s') (he : e.call = some c) :
    ∃ p, s'.Remains c p ∧ Progress s s' c e p := by
  cases hst with
  | spawn hc =>
    cases he
    exact ⟨_, .fresh (Function.update_self _ _ _), .spawn⟩
  | begin hc hm =>
    cases he
    exact ⟨_, .running (Function.update_self _ _ _), .same (.fresh hc)⟩
  | skip hc hm =>
    cases he
    exact ⟨_, .finished (Function.update_self _ _ _), .cancelled hc hm⟩
  | finish hc =>
    cases he
    exact ⟨_, .finished (Function.update_self _ _ _), .same (.running hc)⟩
  | getPassword hc =>
    cases he
    exact ⟨_, .running (Function.update_self _ _ _), .answered (.running hc) .getPassword⟩
  | setPassword hc =>
    cases he
    exact ⟨_, .running (Function.update_self _ _ _), .answered (.running hc) .setPassword⟩
  | refuse hc hu =>
    cases he
    exact ⟨_, .running (Function.update_self _ _ _), .answered (.running hc) .refused⟩
  | queue hc hu =>
    cases he
    exact ⟨_, .queued (Function.update_self _ _ _), .same (.running hc)⟩
  | giveUp hc hm =>
    cases he
    exact ⟨_, .running (Function.update_self _ _ _), .answered (.queued hc) (.gaveUp hc hm)⟩
  | enter hc hm hl =>
    cases he
    exact progress_goesOn (s.goesOn_enter _ _ _ _) (.queued hc) rfl
  | awaitSend hc hl | awaitReply hc hl =>
    cases he
    exact ⟨_, .delivering rfl, .same (.delivering hl)⟩
  | reply hc hl | failed hc hl | raised hc hl =>
    cases he
    exact ⟨_, .running (Function.update_self _ _ _), .answered (.delivering hl) (.block rfl)⟩
  | next hc hl ht hd =>
    cases he
    exact progress_goesOn (State.goesOn_nextFrame _ _ _ _ _ _) (.delivering hl) rfl
  | collect hc hl ht hd =>
    cases he
    exact ⟨_, .collecting rfl, .same (.delivering hl)⟩
  | wake hc hl | cancelCollecting hc hl =>
    cases he
    exact ⟨_, .collecting hl, .same (.collecting hl)⟩
  | stop hc hl | idle hc hl =>
    cases he
    exact ⟨_, .running (Function.update_self _ _ _), .answered (.collecting hl) (.block rfl)⟩
  | cancelFresh hc =>
    cases he
    exact ⟨_, .fresh (Function.update_self _ _ _), .same (.fresh hc)⟩
  | cancelQueued hc =>
    cases he
    exact ⟨_, .queued (Function.update_self _ _ _), .same (.queued hc)⟩
  | cancel hc hl =>
    cases he
    exact ⟨_, .delivering ((State.interrupt_lock _ _ _ _).trans hl), .same (.delivering hl)⟩
  | expire hc hl hx =>
    cases he
    exact ⟨_, .delivering (State.interrupt_lock _ _ _ _), .same (.delivering hl)⟩
  | link | sendStart | sendUnwind | sendEnd | record | answer | ignore | disconnect => cases he

/-- What remains of a call after a step is what the step has made of its program. -/
lemma State.Remains.progress (hp : s'.Remains c p) (hst : Step s e s') (hs : s.Consistent) :
    Progress s s' c e p := by
  by_cases he : e.call = some c
  · obtain ⟨p', hp', hprogress⟩ := progress_of_step hst he
    obtain rfl := hp.unique hp' (hs.step hst)
    exact hprogress
  · exact .same (hp.of_frame hst he)

/-- How far one step takes the program of call `c`. -/
inductive Advance (s s' : State β) (c : ℕ) : Event β → Program (Except Exc β) → Prop
  | spawn {p n} : Advance s s' c (.spawn c p n) p
  | same {ev : Event β} {p} (h : s.Remains c p) : Advance s s' c ev p
  | cancelled : Advance s s' c (.run c) (.pure (.error .cancelledError))
  | getPassword {k} (h : s.Remains c (.op .getPassword k)) : Advance s s' c (.run c) (k s.password)
  | setPassword {password k} (h : s.Remains c (.op (.setPassword password) k)) :
      Advance s s' c (.run c) (k ())
  | locked {ev : Event β} {j k r} (h : s.Remains c (.op (.locked j) k))
      (hr : ∀ v, r = .ok v → s'.blocks = ⟨c, j, .ok v⟩ :: s.blocks) : Advance s s' c ev (k r)

/-- The same with what is known of an operation that has returned. -/
lemma State.Remains.advance (hp : s'.Remains c p) (hst : Step s e s') (hs : s.Consistent) :
    Advance s s' c e p := by
  cases hp.progress hst hs with
  | spawn => exact .spawn
  | same h => exact .same h
  | cancelled => exact .cancelled
  | answered h ha =>
    cases ha with
    | getPassword => exact .getPassword h
    | setPassword => exact .setPassword h
    | refused | gaveUp => exact .locked h (by simp)
    | block hb => exact .locked h fun v hv => hv ▸ hb

/-! ### What an operation achieves -/

/-- Sends that are done and futures that are done stay as they are. -/
structure Later (s t : State β) : Prop where
  sends : ∀ i task o, s.sendTasks i = some task → task.state = .done o → t.sendTasks i = some task
  futures : ∀ i, s.futures i ≠ .pending → t.futures i = s.futures i

namespace Later

lemma refl (s : State β) : Later s s := ⟨fun _ _ _ h _ => h, fun _ _ => rfl⟩

lemma trans {t u : State β} (h : Later s t) (h' : Later t u) : Later s u where
  sends i task o ht ho := h'.sends i task o (h.sends i task o ht ho) ho
  futures i hf := by
    have hi := h.futures i hf
    rw [h'.futures i (hi ▸ hf), hi]

lemma of_step (hst : Step s e s') (hs : s.Consistent) : Later s s' :=
  ⟨fun _ _ _ ht ho => hst.sendTask_done hs ht ho, fun _ hf => hst.future_done hf⟩

lemma delivered {t : State β} (h : Later s t) {i : ℕ} {f : Frame} (hd : s.Delivered c i f) :
    t.Delivered c i f :=
  h.sends i _ .returned hd rfl

end Later

/-- What is known once a job of call `c` has returned. -/
def State.Achieved (s : State β) (c : ℕ) : (j : Job) → j.Value → Prop
  | .request frame _, payload => ∃ i, s.Delivered c i frame ∧ s.futures i = .result payload
  | .writeFrames frames, _ => ∃ ids, List.Forall₂ (s.Delivered c) ids frames
  | .history count, _ => ∃ ids, List.Forall₂ (s.Delivered c) ids (Job.history count).frames

/-- A job that has just returned has achieved what it is for. -/
lemma achieved_of_block (hst : Step s e s') (hs : s.Consistent) (ho : s.SendsOwned)
    {pieces : List (List ℕ)} {ids : List ℕ} (hcut : s.Cut pieces ids) {j : Job} {v : j.Value}
    (hb : s'.blocks = ⟨c, j, .ok v⟩ :: s.blocks) : s'.Achieved c j v := by
  have hclosed : ∃ ids, List.Forall₂ (s'.Delivered c) ids j.frames := by
    obtain ⟨pieces', ids', -, hblocks, -⟩ := hcut.step hs ho hst
    rw [hb] at hblocks
    cases hblocks with
    | cons hc _ => exact ⟨_, hc.2 v rfl⟩
  cases j with
  | writeFrames frames => exact hclosed
  | history count => exact hclosed
  | request frame register =>
    cases hst.ending_of_block hs hb with
    | @reply _ _ _ k n fl _ task hl ht hd hf =>
      have hfl := hs.flying _ _ _ _ _ hl
      obtain ⟨frame', state, hj, ht'⟩ := hfl.task
      obtain ⟨-, rfl⟩ := Job.frames_request hj
      rw [ht'] at ht
      cases ht
      obtain rfl : state = .done .returned := hd
      exact ⟨fl.id, hst.sendTask_done hs ht' rfl, (hst.future_done (by simp [hf])).trans hf⟩

lemma State.Achieved.later {t : State β} {j : Job} {v : j.Value} (h : s.Achieved c j v)
    (hst : Later s t) : t.Achieved c j v := by
  cases j with
  | request frame register =>
    obtain ⟨i, hd, hf⟩ := h
    exact ⟨i, hst.delivered hd, (hst.futures i (by simp [hf])).trans hf⟩
  | writeFrames frames | history count =>
    obtain ⟨ids, hd⟩ := h
    exact ⟨ids, hd.imp fun _ _ h => hst.delivered h⟩

/-- Every job that has returned has achieved what it is for, in every run. -/
theorem achieved_of_run {timeoutHint : Option String} {password : Option ℤ}
    {P : State β → Event β → Prop} {es : List (Event β)}
    (h : ClientRun timeoutHint password P es s) {b : Block} (hb : b ∈ s.blocks)
    {v : b.job.Value} (hv : b.outcome = .ok v) : s.Achieved b.call b.job v := by
  let I (u : State β) : Prop := ∀ b ∈ u.blocks, ∀ v, b.outcome = .ok v → u.Achieved b.call b.job v
  have hstep : ∀ u e w pieces ids, u.Consistent → u.SendsOwned → u.Cut pieces ids → I u →
      P u e → Step u e w → I w := by
    intro u e w pieces ids hs ho hcut hI _ hst b hb v hv
    have hlater := Later.of_step hst hs
    rcases hst.blocks_cases hs with hb' | ⟨b', hb', -⟩
    · exact (hI b (hb' ▸ hb) v hv).later hlater
    · rcases List.mem_cons.1 (hb' ▸ hb) with rfl | hb
      · exact achieved_of_block hst hs ho hcut (by rw [← hv, hb'])
      · exact (hI b hb v hv).later hlater
  exact (invariant_of_cut hstep h fun b hb => by cases hb).2 b hb v hv

/-- The contract of call `c`: a job may start where `Pre` holds of it, and is known to have
achieved what it is for once it has returned. -/
def callContract (c : ℕ) (Pre : State β → Job → Prop) : Contract (State β) Op Op.Result where
  later := Later
  later_refl := Later.refl
  later_trans := Later.trans
  pre s o := ∀ j, o = .locked j → Pre s j
  post s o r :=
    match o, r with
    | .locked j, .ok v => s.Achieved c j v
    | _, _ => True

/-- Nothing is known of a job that has raised. -/
lemma post_of_advance {Pre : State β → Job → Prop} {j : Job} {r : Except Exc j.Value}
    (h : ∀ v, r = .ok v → s.Achieved c j v) : (callContract c Pre).post s (.locked j) r := by
  cases r with
  | ok v => exact h v rfl
  | error x => trivial

/-! ### Rules for the methods -/

/-- The method issues jobs only where they may start, and `Q` holds of what it returns. -/
def Client.Ensures {α : Type} (C : Contract (State β) Op Op.Result) (Q : State β → α → Prop)
    (x : Client α) (s : State β) : Prop :=
  x.run.Ensures C (fun t r => ∀ a, r = .ok a → Q t a) s

namespace Client.Ensures

variable {C : Contract (State β) Op Op.Result} {α γ : Type} {Q : State β → α → Prop}
  {R : State β → γ → Prop}

lemma bind {x : Client α} {f : α → Client γ} (h : Client.Ensures C Q x s)
    (hf : ∀ t a, C.later s t → Q t a → Client.Ensures C R (f a) t) :
    Client.Ensures C R (x >>= f) s := by
  refine Prog.Ensures.bind h fun t r hst hr => ?_
  cases r with
  | ok a => exact hf t a hst (hr a rfl)
  | error x => exact fun u _ a h => by cases h

lemma ok {a : α} (h : ∀ t, C.later s t → Q t a) : Client.Ensures C Q (pure a) s :=
  fun t hst a' ha => by
    cases ha
    exact h t hst

lemma thrown {x : Exc} : Client.Ensures C Q (throw x) s := fun _ _ a h => by
  cases h

lemma raising {x : Except Exc α} (h : ∀ a, x = .ok a → ∀ t, C.later s t → Q t a) :
    Client.Ensures C Q (raising x) s :=
  fun t hst a ha => h a ha t hst

lemma locked (j : Job) {Q : State β → j.Value → Prop}
    (hpre : ∀ t, C.later s t → C.pre t (.locked j))
    (hpost : ∀ t u v, C.later s t → C.post t (.locked j) (.ok v) → C.later t u → Q u v) :
    Client.Ensures C Q (locked j) s :=
  ⟨hpre, fun t r hst hr u htu v hv => by
    cases hv
    exact hpost t u v hst hr htu⟩

/-- The caller of a method may go on with its result. -/
lemma map {x : Client α} {f : α → γ} (h : Client.Ensures C Q x s)
    (hQR : ∀ t a, Q t a → ∀ u, C.later t u → R u (f a)) : Client.Ensures C R (f <$> x) s :=
  h.bind fun t a _ ha => ok fun u htu => hQR t a ha u htu

/-- Code that has raised issues nothing more. -/
lemma throw_bind {x : Exc} {f : α → Client γ} : Client.Ensures C R (throw x >>= f) s := by
  have h : Client.Ensures C (fun _ _ => False) (throw x : Client α) s := thrown
  exact h.bind fun _ _ _ h => h.elim

lemma ite {p : Prop} [Decidable p] {x y : Client α} (hx : p → Client.Ensures C Q x s)
    (hy : ¬ p → Client.Ensures C Q y s) : Client.Ensures C Q (if p then x else y) s := by
  split_ifs with h
  · exact hx h
  · exact hy h

lemma mono {Q' : State β → α → Prop} {x : Client α} (h : Client.Ensures C Q x s)
    (hQ : ∀ t a, Q t a → Q' t a) : Client.Ensures C Q' x s :=
  Prog.Ensures.mono h fun t _ ht a ha => hQ t a (ht a ha)

lemma trivial {x : Client α} (h : ∀ s o, C.pre s o) : Client.Ensures C (fun _ _ => True) x s :=
  (Prog.Ensures.trivial h).mono fun _ _ _ _ _ => True.intro

/-- What is stable and known before is still known of the result. -/
lemma constancy {x : Client α} {R : State β → Prop} (h : Client.Ensures C Q x s)
    (hR : ∀ s t, C.later s t → R s → R t) (hs : R s) :
    Client.Ensures C (fun t a => Q t a ∧ R t) x s :=
  (Prog.Ensures.constancy h hR hs).mono fun _ _ h a ha => ⟨h.1 a ha, h.2⟩

/-- What the method ensures its program does. -/
lemma run {x : Client α} (h : Client.Ensures C Q x s) :
    x.run.Ensures C (fun t r => ∀ a, r = .ok a → Q t a) s :=
  h

end Client.Ensures

attribute [irreducible] Client.Ensures

/-! ### Calls keep to their contract -/

/-- Call `c` is under the contract: what remains of its program ensures `Q`, and every job that
it has done was one that could start. -/
structure Supervised (c : ℕ) (Pre : State β → Job → Prop) (Q : State β → Except Exc β → Prop)
    (s : State β) : Prop where
  remains : ∀ p, s.Remains c p → p.Ensures (callContract c Pre) Q s
  jobs : ∀ b ∈ s.blocks, b.call = c → Pre s b.job

/-- A job that ends was what remained of its call. -/
lemma remains_of_ending {b : Block} (h : Step.Ending s e b) :
    ∃ k, s.Remains b.call (.op (.locked b.job) k) := by
  cases h with
  | reply hl | error _ hl | written hl => exact ⟨_, .delivering hl⟩
  | nothing hc | badCount hc => exact ⟨_, .queued hc⟩
  | stop hl | idle hl => exact ⟨_, .collecting hl⟩

namespace Supervised

variable {Pre : State β → Job → Prop} {Q : State β → Except Exc β → Prop}

/-- Nothing remains of a call that was not made. -/
lemma init (timeoutHint : Option String) (password : Option ℤ) :
    Supervised c Pre Q (State.init β timeoutHint password) where
  remains p hp := by
    cases hp with
    | fresh h | running h | queued h | finished h | delivering h | collecting h => cases h
  jobs b hb := by cases hb

/-- The job that has the lock was one that could start. -/
lemma pre_of_lock (h : Supervised c Pre Q s) {hd : Holder β} (hl : s.lock = some hd)
    (hc : hd.call = c) : Pre s hd.job := by
  cases hd with
  | delivering c' j k n fl =>
    cases hc
    exact (h.remains _ (.delivering hl)).pre j rfl
  | collecting c' count k =>
    cases hc
    exact (h.remains _ (.collecting hl)).pre (.history count) rfl

/-- One step of a supervised call. -/
lemma step (h : Supervised c Pre Q s) (hst : Step s e s') (hs : s.Consistent) (ho : s.SendsOwned)
    {pieces : List (List ℕ)} {ids : List ℕ} (hcut : s.Cut pieces ids)
    (hpre : ∀ s t j, Later s t → Pre s j → Pre t j) (hQ : ∀ s, Q s (.error .cancelledError))
    (hspawn : ∀ p n, e = .spawn c p n → p.Ensures (callContract c Pre) Q s') :
    Supervised c Pre Q s' := by
  have hlater : Later s s' := .of_step hst hs
  refine ⟨fun p hp => ?_, fun b hb hc => ?_⟩
  · cases hp.advance hst hs with
    | spawn => exact hspawn _ _ rfl
    | same h' => exact (h.remains _ h').later hlater
    | cancelled => exact fun t _ => hQ t
    | getPassword h' | setPassword h' =>
      exact ((h.remains _ h').later hlater).answer trivial
    | locked h' hr =>
      exact ((h.remains _ h').later hlater).answer
        (post_of_advance fun v hv => achieved_of_block hst hs ho hcut (hr v hv))
  · rcases hst.blocks_cases hs with hb' | ⟨b', hb', hend⟩
    · exact hpre _ _ _ hlater (h.jobs b (hb' ▸ hb) hc)
    · rcases List.mem_cons.1 (hb' ▸ hb) with rfl | hb
      · obtain ⟨k, hr⟩ := remains_of_ending hend
        exact hpre _ _ _ hlater ((h.remains _ (hc ▸ hr)).pre _ rfl)
      · exact hpre _ _ _ hlater (h.jobs b hb hc)

private lemma exists_of_mem {α γ : Type} {R : α → γ → Prop} {l : List α} {m : List γ}
    (h : List.Forall₂ R l m) {a : α} (ha : a ∈ l) : ∃ b ∈ m, R a b := by
  induction h with
  | nil => simp at ha
  | @cons a' b l m hab _ ih =>
    rcases List.mem_cons.1 ha with rfl | ha
    · exact ⟨b, by simp, hab⟩
    · obtain ⟨b', hb', hR⟩ := ih ha
      exact ⟨b', List.mem_cons_of_mem b hb', hR⟩

/-- A frame that was handed to the transport belongs to a job that could start. -/
lemma pre_of_wire (h : Supervised c Pre Q s) (hs : s.Consistent) {pieces : List (List ℕ)}
    {ids : List ℕ} (hcut : s.Cut pieces ids) {i : ℕ} (hi : i ∈ s.wire) {f : Frame}
    (hf : s.Carries c i f) : ∃ j, f ∈ j.frames ∧ Pre s j := by
  have hmem : ∀ {c' : ℕ} {j : Job} {ids : List ℕ}, i ∈ ids → s.Piece c' j ids →
      c' = c ∧ f ∈ j.frames := by
    rintro c' j ids hi ⟨frames, hpre, hids⟩
    obtain ⟨f', hf', state, ht'⟩ := exists_of_mem hids hi
    obtain ⟨state', ht⟩ := hf
    rw [ht] at ht'
    cases ht'
    exact ⟨rfl, hpre.subset hf'⟩
  obtain ⟨hwire, hblocks, hcur⟩ := hcut
  rw [hwire, List.mem_append, List.mem_flatten] at hi
  rcases hi with ⟨piece, hp, hi⟩ | hi
  · have hpieces : List.Forall₂ (fun ids b => s.Closed b ids) pieces s.blocks := hblocks.flip
    obtain ⟨b, hb, hclosed⟩ := exists_of_mem hpieces (List.mem_reverse.1 hp)
    obtain ⟨hc, hf⟩ := hmem hi hclosed.1
    exact ⟨b.job, hf, h.jobs b hb hc⟩
  · cases hl : s.lock with
    | none => simp [(State.current_of_free hl).1 hcur] at hi
    | some hd =>
      obtain ⟨hc, hf⟩ := hmem hi (hcur.piece_of_lock hs hl)
      exact ⟨hd.job, hf, h.pre_of_lock hl hc⟩

end Supervised

private lemma not_spawned_again {timeoutHint : Option String} {password : Option ℤ}
    {P : State β → Event β → Prop} {es : List (Event β)} {t : State β}
    (h : Run (machine β timeoutHint password) P s es t) (hc : s.calls c ≠ none)
    {p : Program (Except Exc β)} {n : ℕ} : .spawn c p n ∉ es := by
  induction h with
  | nil => simp
  | @cons s t u e es hP hstep hrun ih =>
    have hst := Step.of_step hstep
    rw [List.mem_cons, not_or]
    refine ⟨?_, ih (hst.calls_ne_none hc)⟩
    rintro rfl
    cases hst with
    | spawn hc' => exact hc hc'

/-- A call is made once. -/
lemma spawn_unique {timeoutHint : Option String} {password : Option ℤ}
    {P : State β → Event β → Prop} {es : List (Event β)} {t : State β}
    (h : Run (machine β timeoutHint password) P s es t) {p p' : Program (Except Exc β)} {n n' : ℕ}
    (h₁ : .spawn c p n ∈ es) (h₂ : .spawn c p' n' ∈ es) : p = p' := by
  induction h with
  | nil => cases h₁
  | @cons s t u e es hP hstep hrun ih =>
    have hst := Step.of_step hstep
    have hafter : ∀ p n, e = .spawn c p n → t.calls c ≠ none := by
      rintro p n rfl
      cases hst with
      | spawn => simp
    rcases List.mem_cons.1 h₁ with he₁ | hm₁
    · rcases List.mem_cons.1 h₂ with he₂ | hm₂
      · rw [← he₁] at he₂
        cases he₂
        rfl
      · exact absurd hm₂ (not_spawned_again hrun (hafter _ _ he₁.symm))
    · rcases List.mem_cons.1 h₂ with he₂ | hm₂
      · exact absurd hm₁ (not_spawned_again hrun (hafter _ _ he₂.symm))
      · exact ih hm₁ hm₂

/-- A call that is made to run a program under a contract keeps to the contract in every run. -/
theorem supervised_of_run {Pre : State β → Job → Prop} {Q : State β → Except Exc β → Prop}
    (hpre : ∀ s t j, Later s t → Pre s j → Pre t j) (hQ : ∀ s, Q s (.error .cancelledError))
    {timeoutHint : Option String} {password : Option ℤ} {P : State β → Event β → Prop}
    {es : List (Event β)} (h : ClientRun timeoutHint password P es s)
    {p : Program (Except Exc β)} {n : ℕ} (hp : .spawn c p n ∈ es)
    (hens : ∀ t, p.Ensures (callContract c Pre) Q t) : Supervised c Pre Q s := by
  have hspawn : ∀ p n, .spawn c p n ∈ es → ∀ t, p.Ensures (callContract c Pre) Q t :=
    fun p' n' hp' => spawn_unique h hp hp' ▸ hens
  have hstep : ∀ u e v pieces ids, u.Consistent → u.SendsOwned → u.Cut pieces ids →
      Supervised c Pre Q u → P u e ∧ e ∈ es → Step u e v → Supervised c Pre Q v := by
    rintro u e v pieces ids hs ho hcut hsup ⟨-, he⟩ hst
    exact hsup.step hst hs ho hcut hpre hQ fun p n h => hspawn p n (h ▸ he) v
  exact (invariant_of_cut hstep h.mem (.init _ _)).2

end SpinevBle
