import SpinevBle.Charger.Calls
import SpinevBle.Charger.Promises

/-!
# Calls keep to their promises

A method that keeps to its promise when it is run alone does so in every run of the client, however
the calls are interleaved, as long as every step answers its operations as the promise says.
-/

namespace SpinevBle

open Asyncio Interaction Transition

variable {β : Type} {s s' : State β} {e : Event β} {c : ℕ} {R : Promise Op Op.Result}
  {Q : Except Exc β → Prop}

/-- What call `c` has still to do keeps to the promise, and all that it has handed to the transport
are frames of jobs that it may issue. -/
structure State.Obeys (s : State β) (c : ℕ) (R : Promise Op Op.Result)
    (Q : Except Exc β → Prop) : Prop where
  remains : ∀ p, s.Remains c p → p.Meets R Q
  sends : ∀ i task, s.sendTasks i = some task → task.call = c →
    ∃ j, R.asks (.locked j) ∧ task.frame ∈ j.frames

namespace State.Obeys

lemma init (timeoutHint : Option String) (password : Option ℤ) :
    (State.init β timeoutHint password).Obeys c R Q where
  remains p hp := by
    cases hp with
    | fresh h | running h | queued h | finished h | delivering h | collecting h => cases h
  sends i task ht := by cases ht

/-- The job that has the lock is one that may be issued. -/
lemma asks_of_lock (h : s.Obeys c R Q) {hd : Holder β} (hl : s.lock = some hd)
    (hc : hd.call = c) : R.asks (.locked hd.job) := by
  cases hd with
  | delivering c' j k n fl =>
    cases hc
    exact (Prog.Meets.op_iff.1 (h.remains _ (.delivering hl))).1
  | collecting c' count k =>
    cases hc
    exact (Prog.Meets.op_iff.1 (h.remains _ (.collecting hl))).1

/-- One step of the client. -/
lemma step (h : s.Obeys c R Q) (hst : Step s e s') (hs : s.Consistent)
    (hspawn : ∀ p n, e = .spawn c p n → p.Meets R Q)
    (hcancel : ∀ p cn, s.calls c = some ⟨.fresh p, cn⟩ → cn.mustCancel = true →
      Q (.error .cancelledError))
    (hanswer : ∀ o k r, s.Remains c (.op o k) → Answered s s' c e o r → R.answers o r) :
    s'.Obeys c R Q := by
  have hremains : ∀ p, s'.Remains c p → p.Meets R Q := by
    intro p hp
    cases hp.progress hst hs with
    | spawn => exact hspawn _ _ rfl
    | same h' => exact h.remains _ h'
    | cancelled hc hm => exact Prog.Meets.pure_iff.2 (hcancel _ _ hc hm)
    | answered h' ha => exact (Prog.Meets.op_iff.1 (h.remains _ h')).2 _ (hanswer _ _ _ h' ha)
  refine ⟨hremains, fun i task ht hc => ?_⟩
  rcases hst.sendTask_origin ht with ⟨state, ht'⟩ | ⟨j, k, n, fl, hl, hj⟩
  · exact h.sends i { task with state := state } ht' hc
  · subst hc
    exact ⟨j, (Prog.Meets.op_iff.1 (hremains _ (.delivering hl))).1, List.mem_of_getElem? hj⟩

end State.Obeys

/-- A call keeps to its promise in every run in which its operations are answered as promised. -/
theorem obeys_of_run {timeoutHint : Option String} {password : Option ℤ}
    {P : State β → Event β → Prop} {J : State β → Prop} {es : List (Event β)}
    (hJ : ∀ u e v, u.Consistent → J u → P u e → Step u e v → J v)
    (hinit : J (State.init β timeoutHint password))
    (hspawn : ∀ p n, .spawn c p n ∈ es → p.Meets R Q)
    (hcancel : ∀ u p cn, J u → u.calls c = some ⟨.fresh p, cn⟩ → cn.mustCancel = true →
      Q (.error .cancelledError))
    (hanswer : ∀ u e v o k r, u.Consistent → J u → P u e → Step u e v → u.Remains c (.op o k) →
      Answered u v c e o r → R.answers o r)
    (h : ClientRun timeoutHint password P es s) : J s ∧ s.Obeys c R Q := by
  have hstep : ∀ u e v, u.Consistent → (J u ∧ u.Obeys c R Q) → (P u e ∧ e ∈ es) → Step u e v →
      J v ∧ v.Obeys c R Q := by
    rintro u e v hu ⟨hj, ho⟩ ⟨hP, he⟩ hst
    refine ⟨hJ u e v hu hj hP hst, ho.step hst hu (fun p n hp => hspawn p n (hp ▸ he))
      (fun p cn => hcancel u p cn hj) fun o k r => hanswer u e v o k r hu hj hP hst⟩
  exact invariant_of_run hstep h.mem (.init _ _) ⟨hinit, .init _ _⟩

/-! ### Clients that run methods -/

/-- Every call that is made is one of a method of the client. -/
def OnlyMethods (_ : State β) : Event β → Prop
  | .spawn _ p _ => ∃ (m : Method) (f : m.Result → β), p = (f <$> m.program).run
  | _ => True

lemma onlyMethods_of_mem {timeoutHint : Option String} {password : Option ℤ}
    {P : State β → Event β → Prop} {es : List (Event β)}
    (h : ClientRun timeoutHint password P es s) (hes : ∀ e ∈ es, ∀ u, OnlyMethods u e) :
    ClientRun timeoutHint password OnlyMethods es s :=
  h.mem.mono fun u e he => hes e he.2 u

/-- A promise that all methods keep. -/
def KeptByAll (R : Promise Op Op.Result) : Prop := ∀ m, Covers R (fun _ => True) m

lemma KeptByAll.meets (h : KeptByAll R) (m : Method) (f : m.Result → β) :
    (f <$> m.program).run.Meets R fun _ => True :=
  ((within_of_covers (h m)).map f).meets.mono fun _ _ => trivial

/-- Whatever the methods may ask for is all that is ever asked for, by any call. -/
theorem obeys_all_of_run {timeoutHint : Option String} {password : Option ℤ} {es : List (Event β)}
    (hR : KeptByAll R) (hanswers : ∀ o r, R.answers o r)
    (h : ClientRun timeoutHint password OnlyMethods es s) (c : ℕ) :
    s.Obeys c R fun _ => True := by
  have hstep : ∀ (u : State β) e v, u.Consistent → u.Obeys c R (fun _ => True) →
      OnlyMethods u e → Step u e v → v.Obeys c R fun _ => True := by
    intro u e v hu ho hP hst
    refine ho.step hst hu (fun p n he => ?_) (fun _ _ _ _ => trivial) fun o _ r _ _ => hanswers o r
    subst he
    obtain ⟨m, f, rfl⟩ := hP
    exact hR.meets m f
  exact invariant_of_run hstep h (.init _ _) (.init _ _)

end SpinevBle
