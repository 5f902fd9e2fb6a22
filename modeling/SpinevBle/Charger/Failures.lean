import SpinevBle.Charger.Answers
import SpinevBle.Charger.Lifecycle

/-!
# Failures of a call

An operation raises errors of the package only, unless its caller cancels it or it is a history read
whose count cannot be packed. So a call whose arguments fit fails tidily, whatever the transport
does.
-/

namespace SpinevBle

open Asyncio Interaction Transition

variable {β : Type} {s s' : State β} {e : Event β} {c : ℕ}

/-! ### Calls that nobody cancels -/

/-- The event is not the cancellation of call `c`. -/
def Event.sparesCall (e : Event β) (c : ℕ) : Prop := e ≠ .cancel c

instance (e : Event β) (c : ℕ) : Decidable (e.sparesCall c) :=
  match e with
  | .cancel c' => decidable_of_iff (c' ≠ c) (by simp [Event.sparesCall])
  | .spawn .. | .run _ | .expire _ | .idle _ | .sendStart _ | .sendUnwind _ | .sendEnd ..
  | .notify _ | .disconnect | .link _ => .isTrue (by simp [Event.sparesCall])

/-- The caller of call `c` has not cancelled it. -/
structure State.Unasked (s : State β) (c : ℕ) : Prop where
  fresh : ∀ p cn, s.calls c = some ⟨.fresh p, cn⟩ → cn.mustCancel = false
  queued : ∀ j k cn, s.calls c = some ⟨.queued j k, cn⟩ → cn.mustCancel = false
  delivering : ∀ j k n i, ¬ s.Asked c j k n i
  collecting : ∀ count k cn, s.lock = some (.collecting c count k) →
    s.calls c = some ⟨.inside, cn⟩ → cn.mustCancel = false

namespace State.Unasked

lemma init (timeoutHint : Option String) (password : Option ℤ) :
    (State.init β timeoutHint password).Unasked c where
  fresh _ _ h := by cases h
  queued _ _ _ h := by cases h
  delivering := by
    rintro _ _ _ _ ⟨_, _, hl, -⟩
    cases hl
  collecting _ _ _ h := by cases h

private lemma fresh_step (hf : ∀ p cn, s.calls c = some ⟨.fresh p, cn⟩ → cn.mustCancel = false)
    (hst : Step s e s') (he : e.sparesCall c) {p : Program (Except Exc β)} {cn : Cancellation}
    (hc : s'.calls c = some ⟨.fresh p, cn⟩) : cn.mustCancel = false := by
  have hchange := hst.calls_cases c
  rw [hc] at hchange
  cases hchange with
  | same ht => exact hf p cn ht.symm
  | spawn => rfl
  | cancelFresh => exact absurd rfl he

private lemma collecting_step
    (hf : ∀ count k cn, s.lock = some (.collecting c count k) →
      s.calls c = some ⟨.inside, cn⟩ → cn.mustCancel = false)
    (hst : Step s e s') (he : e.sparesCall c) {count : ℤ}
    {k : Except Exc (List Bytes) → Program (Except Exc β)} {cn : Cancellation}
    (hl : s'.lock = some (.collecting c count k)) (hc : s'.calls c = some ⟨.inside, cn⟩) :
    cn.mustCancel = false := by
  by_cases hcall : e.call = some c
  · cases hst with
    | collect =>
      cases hcall
      have := (Function.update_self c _ _).symm.trans hc
      cases this
      rfl
    | wake => exact hf count k cn hl hc
    | cancelFresh | cancelQueued | cancelCollecting | cancel =>
      cases hcall
      exact absurd rfl he
    | enter =>
      obtain ⟨_, hd, -⟩ := (s.goesOn_enter _ _ _ _).lock hl
      cases hd
    | next =>
      obtain ⟨_, hd, -⟩ := (State.goesOn_nextFrame _ _ _ _ _ _).lock hl
      cases hd
    | expire =>
      rw [interrupt_lock] at hl
      cases hl
    | awaitSend | awaitReply | reply | failed | raised | stop | idle => cases hl
    | spawn | begin | skip | finish | getPassword | setPassword | refuse | queue | giveUp =>
      cases hcall
      have := (Function.update_self c _ _).symm.trans hc
      cases this
    | _ => cases hcall
  · exact hf count k cn (hst.lock_of_lock hl hcall) (hst.calls_frame hcall ▸ hc)

/-- Only the caller itself changes this. -/
lemma step (h : s.Unasked c) (hs : s.Consistent)
    (hm : ∀ c p cn, s.calls c = some ⟨.running p, cn⟩ → cn.mustCancel = false) (hst : Step s e s')
    (he : e.sparesCall c) : s'.Unasked c where
  fresh p cn := fresh_step h.fresh hst he
  queued j k cn hc := by
    by_contra hmust
    rcases queuedAsked_of_step hst hm hc (by simpa using hmust) with ⟨cn', hc', hm'⟩ | ⟨rfl, -⟩
    · simp [h.queued _ _ _ hc'] at hm'
    · exact he rfl
  delivering j k n i ha := by
    rcases ha.of_step hs hst with ha' | ⟨rfl, -⟩
    · exact h.delivering j k n i ha'
    · exact he rfl
  collecting count k cn := collecting_step h.collecting hst he

end State.Unasked

/-! ### What an operation raises -/

/-- The count of a history read is not one that can be packed. -/
def Job.RaisesOwn (j : Job) (x : Exc) : Prop := ∃ count, j = .history count ∧ historyFrame count = .error x

private lemma mustCancel_of_stop (hst : Step s (.run c) s') (hs : s.Consistent) {count : ℤ}
    {k : Except Exc (List Bytes) → Program (Except Exc β)}
    (hl : s.lock = some (.collecting c count k)) (hb : s'.blocks ≠ s.blocks) :
    ∃ cn, s.calls c = some ⟨.inside, cn⟩ ∧ cn.mustCancel = true := by
  obtain ⟨cn, hc⟩ := hs.owner _ hl
  have hc : s.calls c = some ⟨.inside, cn⟩ := hc
  cases hst with
  | stop hc' hl' hm => exact ⟨_, hc', hm⟩
  | wake => exact absurd rfl hb
  | awaitSend _ hl' | awaitReply _ hl' | reply _ hl' | failed _ hl' | raised _ hl' | next _ hl'
  | collect _ hl' =>
    rw [hl] at hl'
    cases hl'
  | begin hc' | skip hc' | finish hc' | getPassword hc' | setPassword hc' | refuse hc' | queue hc'
  | giveUp hc' | enter hc' =>
    rw [hc] at hc'
    cases hc'

/-- An operation raises an error of the package or `CancelledError`. -/
lemma error_of_answered (hst : Step s e s') (hs : s.Consistent) {j : Job} {x : Exc}
    (ha : Answered s s' c e (.locked j) (.error x)) :
    IsSpinEv x ∨ j.RaisesOwn x ∨ x = .cancelledError := by
  cases ha with
  | refused => exact .inl rfl
  | gaveUp => exact .inr (.inr rfl)
  | block hb =>
    cases hst.ending_of_block hs hb with
    | @error _ _ _ _ fl cn x =>
      by_cases hx : (leaveScope fl.scope cn.requests x).2 = .cancelledError
      · exact .inr (.inr (by rw [hx]; rfl))
      · exact .inl (Job.isSpinEvError_translate hx)
    | badCount _ hx => exact .inr (.inl ⟨_, rfl, hx⟩)
    | stop => exact .inr (.inr rfl)

/-- While its caller does not cancel it, and its sends end as they should, an operation raises no
`CancelledError`. -/
lemma error_of_unasked (hst : Step s e s') (hs : s.Consistent) (hat : s.Attributes)
    (hu : s.Unasked c) {j : Job} {x : Exc} (ha : Answered s s' c e (.locked j) (.error x)) :
    IsSpinEv x ∨ j.RaisesOwn x := by
  cases ha with
  | refused => exact .inl rfl
  | gaveUp hc hm => simp [hu.queued _ _ _ hc] at hm
  | block hb =>
    cases hst.ending_of_block hs hb with
    | @error _ _ _ _ fl cn x frame task hc hl ht hj hr =>
      by_cases hx : (leaveScope fl.scope cn.requests x).2 = .cancelledError
      · exact absurd (asked_of_raises hs hat hc hl ht hr hx) (hu.delivering _ _ _ _)
      · exact .inl (Job.isSpinEvError_translate hx)
    | badCount _ hx => exact .inr ⟨_, rfl, hx⟩
    | stop hl =>
      obtain ⟨cn, hc, hm⟩ := mustCancel_of_stop hst hs hl (by simp [hb])
      simp [hu.collecting _ _ _ hl hc] at hm

/-! ### What a method raises -/

/-- Operations raise exceptions with `E`, or what a history read raises itself. -/
def raisesOnly (E : Exc → Prop) : Promise Op Op.Result where
  asks _ := True
  answers
    | .locked j, .error x => E x ∨ j.RaisesOwn x
    | _, _ => True

lemma historyFrame_eq_ok {count : ℤ} (h : 0 ≤ count ∧ count < 0x100000000) :
    ∃ frame, historyFrame count = .ok frame :=
  ⟨_, buildReadOf_eq_ok h⟩

/-- A method whose arguments fit raises nothing else. -/
lemma covers_of_fits {E : Exc → Prop} (hE : ∀ x, IsSpinEv x → E x) {m : Method} (hm : m.Fits) :
    Covers (raisesOnly E) E m where
  jobs j hj := by
    refine ⟨trivial, fun x hx => hx.resolve_right ?_⟩
    rintro ⟨count, rfl, hcount⟩
    cases hj with
    | history =>
      obtain ⟨frame, hf⟩ := historyFrame_eq_ok hm
      cases hf.symm.trans hcount
  getPassword := trivial
  setPassword _ _ := trivial
  spinEv := hE
  fits := .inl hm

/-! ### Runs -/

section

variable {timeoutHint : Option String} {password : Option ℤ} {es : List (Event β)}

/-- What every step of a run leaves true while nobody cancels call `c`. -/
structure State.Calm (s : State β) (c : ℕ) : Prop where
  attributes : s.Attributes
  unasked : s.Unasked c
  running : ∀ c p cn, s.calls c = some ⟨.running p, cn⟩ → cn.mustCancel = false

lemma State.Calm.init (timeoutHint : Option String) (password : Option ℤ) :
    (State.init β timeoutHint password).Calm c where
  attributes := .of_not_delivering (by simp [State.init])
  unasked := .init _ _
  running _ _ _ h := by cases h

lemma State.Calm.step (h : s.Calm c) (hs : s.Consistent) (hP : SendsEnd s e ∧ e.sparesCall c)
    (hst : Step s e s') : s'.Calm c where
  attributes := h.attributes.step hs hst hP.1
  unasked := h.unasked.step hs h.running hst hP.2
  running := fun _ _ _ => hst.mustCancel_running h.running

private lemma tidy_of_obeys {E : Exc → Prop} {r : Except Exc β} {cn : Cancellation}
    (h : s.Obeys c (raisesOnly E) (OnlyRaises E)) (hc : s.calls c = some ⟨.finished r, cn⟩) :
    OnlyRaises E r :=
  Prog.Meets.pure_iff.1 (h.remains _ (.finished hc))

private lemma meets_of_spawn {P : State β → Event β → Prop} {E : Exc → Prop} {m : Method}
    {f : m.Result → β} {n : ℕ} (hE : ∀ x, IsSpinEv x → E x) (hm : m.Fits)
    (h : ClientRun timeoutHint password P es s) (hspawn : .spawn c (f <$> m.program).run n ∈ es) :
    ∀ p n, .spawn c p n ∈ es → p.Meets (raisesOnly E) (OnlyRaises E) := by
  intro p n' hp
  obtain rfl := spawn_unique h hspawn hp
  exact ((within_of_covers (covers_of_fits hE hm)).map f).meets

private lemma answers_raisesOnly {E : Exc → Prop} {o : Op} {r : Op.Result o}
    (ha : Answered s s' c e o r)
    (hE : ∀ j x, Answered s s' c e (.locked j) (.error x) → E x ∨ j.RaisesOwn x) :
    (raisesOnly E).answers o r := by
  cases o with
  | locked j =>
    cases r with
    | ok v => exact trivial
    | error x => exact hE j x ha
  | getPassword | setPassword => exact trivial

/-- The exceptions that are not builtin ones. -/
def NotBuiltin (x : Exc) : Prop := IsSpinEv x ∨ x = .cancelledError

/-- No method whose arguments fit lets a builtin exception escape. -/
theorem notBuiltin_of_run {P : State β → Event β → Prop} {m : Method} (hm : m.Fits)
    {f : m.Result → β} {n : ℕ} (h : ClientRun timeoutHint password P es s)
    (hspawn : .spawn c (f <$> m.program).run n ∈ es) {r : Except Exc β} {cn : Cancellation}
    (hc : s.calls c = some ⟨.finished r, cn⟩) : OnlyRaises NotBuiltin r := by
  have hmeets := meets_of_spawn (fun _ => Or.inl : ∀ x, IsSpinEv x → NotBuiltin x) hm h hspawn
  have hanswer : ∀ (u : State β) e v o (k : Op.Result o → Program (Except Exc β)) r, u.Consistent →
      True → P u e → Step u e v → u.Remains c (.op o k) → Answered u v c e o r →
      (raisesOnly NotBuiltin).answers o r := fun u e v o k r hu _ _ hst _ ha =>
    answers_raisesOnly ha fun j x hx => by
      rcases error_of_answered hst hu hx with h | h | h
      · exact .inl (.inl h)
      · exact .inr h
      · exact .inl (.inr h)
  have hobeys := (obeys_of_run (fun _ _ _ _ _ _ _ => trivial) trivial hmeets
    (fun _ _ _ _ _ _ => OnlyRaises.error_iff.2 (.inr rfl)) hanswer h).2
  exact tidy_of_obeys hobeys hc

/-- While nobody cancels the call, and its sends end as they should, it returns or raises an error
of the package. -/
theorem tidy_of_run {m : Method} (hm : m.Fits) {f : m.Result → β} {n : ℕ}
    (h : ClientRun timeoutHint password (fun s e => SendsEnd s e ∧ e.sparesCall c) es s)
    (hspawn : .spawn c (f <$> m.program).run n ∈ es) {r : Except Exc β} {cn : Cancellation}
    (hc : s.calls c = some ⟨.finished r, cn⟩) : Tidy r := by
  have hmeets := meets_of_spawn (fun _ h => h) hm h hspawn
  have hstep : ∀ (u : State β) e v, u.Consistent → u.Calm c → (SendsEnd u e ∧ e.sparesCall c) →
      Step u e v → v.Calm c := fun _ _ _ hu hcalm hP hst => hcalm.step hu hP hst
  have hanswer : ∀ (u : State β) e v o (k : Op.Result o → Program (Except Exc β)) r, u.Consistent →
      u.Calm c → (SendsEnd u e ∧ e.sparesCall c) → Step u e v → u.Remains c (.op o k) →
      Answered u v c e o r → (raisesOnly IsSpinEv).answers o r :=
    fun u e v o k r hu hcalm _ hst _ ha => answers_raisesOnly ha fun j x hx =>
      error_of_unasked hst hu hcalm.attributes hcalm.unasked hx
  have hcancel : ∀ (u : State β) p cn, u.Calm c → u.calls c = some ⟨.fresh p, cn⟩ →
      cn.mustCancel = true → Tidy (.error .cancelledError : Except Exc β) :=
    fun u p cn hcalm hc hm => by simp [hcalm.unasked.fresh _ _ hc] at hm
  exact tidy_of_obeys (obeys_of_run hstep (.init _ _) hmeets hcancel hanswer h).2 hc

end

/-! ### The reads with arguments -/

/-- The reads whose arguments are integers of the caller. -/
def Method.isPlainRead : Method → Bool
  | readRaw .. | readString _ | getHistory _ => true
  | _ => false

/-- A call of the method that is not cancelled, over a transport whose sends end as they should,
returns or raises an error of the package, and over no transport at all does it let a builtin
exception escape. -/
structure Method.FailsTidily (m : Method) : Prop where
  tidy : ∀ {timeoutHint password es c n s r cn},
    ClientRun timeoutHint password (fun s e => SendsEnd s e ∧ e.sparesCall c) es s →
    .spawn c m.program.run n ∈ es → s.calls c = some ⟨.finished r, cn⟩ → Tidy r
  notBuiltin : ∀ {timeoutHint password es c n s r cn},
    ClientRun timeoutHint password Always es s →
    .spawn c m.program.run n ∈ es → s.calls c = some ⟨.finished r, cn⟩ → OnlyRaises NotBuiltin r

lemma Method.failsTidily_of_fits {m : Method} (hm : m.Fits) : m.FailsTidily where
  tidy h hspawn hc := tidy_of_run hm h (id_map m.program ▸ hspawn) hc
  notBuiltin h hspawn hc := notBuiltin_of_run hm h (id_map m.program ▸ hspawn) hc

/-- A read can be built only if its arguments fit. -/
lemma buildRead_of_not_fits {register parameter : ℤ} {flag : UInt8}
    (h : ¬ ((0 ≤ register ∧ register < 256) ∧ 0 ≤ parameter ∧ parameter < 0x100000000)) :
    ∃ cls msg, buildRead register parameter flag = .error (.builtin cls msg) := by
  unfold buildRead byte buildReadOf packUInt
  by_cases hr : 0 ≤ register ∧ register < 256
  · rw [if_pos hr, bind_ok, if_neg fun hp => h ⟨hr, hp⟩]
    exact ⟨_, _, rfl⟩
  · rw [if_neg hr]
    exact ⟨_, _, rfl⟩

/-- On a connected client, a call that runs `p` and that nobody cancels can end with `x`. -/
def CanRaise (p : Program (Except Exc β)) (x : Exc) : Prop :=
  ∃ es s cn, ClientRun none none (fun s e => SendsEnd s e ∧ e.sparesCall 0) es s ∧
    .spawn 0 p 0 ∈ es ∧ s.connected = true ∧ s.calls 0 = some ⟨.finished (.error x), cn⟩

lemma canRaise_pure (x : Exc) : CanRaise (.pure (.error x) : Program (Except Exc β)) x :=
  ⟨[.link true, .spawn 0 (.pure (.error x)) 0, .run 0, .run 0], _, _, .of_exec rfl,
    .tail _ (.head _), rfl, rfl⟩

private lemma step_badCount {count : ℤ} {x : Exc}
    {k : Except Exc (List Bytes) → Program (Except Exc β)} {cn : Cancellation}
    (hc : s.calls c = some ⟨.queued (.history count) k, cn⟩) (hm : cn.mustCancel = false)
    (hl : s.lock = none) (hx : historyFrame count = .error x) :
    s.step (.run c) =
      some (s.clearBulk.release c cn.requests (.history count) k (.error x)) := by
  simp [State.step, State.runCall, State.enter, hc, hm, hl, hx]

/-- The call takes the lock and fails before it sends a frame. -/
lemma canRaise_history {count : ℤ} {x : Exc} (hx : historyFrame count = .error x) :
    CanRaise (asyncGetHistory count).run x := by
  have hqueued : ClientRun none none (fun s e => SendsEnd s e ∧ e.sparesCall 0)
      [.link true, .spawn 0 (asyncGetHistory count).run 0, .run 0, .run 0] _ := .of_exec rfl
  have hspares : ∀ s : State (List ChargingSession), SendsEnd s (.run 0) ∧
      (Event.run 0 : Event (List ChargingSession)).sparesCall 0 := fun s => by
    simp [SendsEnd, Event.cancelledSend, Event.sparesCall]
  refine ⟨_, _, _, hqueued.append (.cons (hspares _) (step_badCount rfl rfl rfl hx)
    (.single (hspares _) rfl)), .tail _ (.head _), rfl, rfl⟩

/-- A read whose arguments do not fit raises a builtin exception. -/
lemma Method.canRaise_of_not_fits {m : Method} (hm : m.isPlainRead = true) (hf : ¬ m.Fits) :
    ∃ cls msg, CanRaise m.program.run (.builtin cls msg) := by
  cases m with
  | readRaw register parameter =>
    have hb : ∃ cls msg, buildRead register parameter = .error (.builtin cls msg) :=
      buildRead_of_not_fits hf
    obtain ⟨cls, msg, hb⟩ := hb
    have hp : (asyncReadRaw register parameter).run = .pure (.error (.builtin cls msg)) := by
      rw [asyncReadRaw, hb]
      rfl
    exact ⟨cls, msg, hp ▸ canRaise_pure _⟩
  | readString register =>
    have hb : ∃ cls msg, buildRead register = .error (.builtin cls msg) :=
      buildRead_of_not_fits fun h => hf h.1
    obtain ⟨cls, msg, hb⟩ := hb
    have hp : (asyncReadString register).run = .pure (.error (.builtin cls msg)) := by
      rw [asyncReadString, hb]
      rfl
    exact ⟨cls, msg, hp ▸ canRaise_pure _⟩
  | getHistory count =>
    have hb : ∃ cls msg, buildRead Register.historySessions.id count = .error (.builtin cls msg) :=
      buildRead_of_not_fits fun h => hf h.2
    obtain ⟨cls, msg, hb⟩ := hb
    exact ⟨cls, msg, canRaise_history ((historyFrame_eq count).trans hb)⟩
  | _ => cases hm

lemma Method.fits_of_failsTidily {m : Method} (hm : m.isPlainRead = true) (h : m.FailsTidily) :
    m.Fits := by
  by_contra hf
  obtain ⟨cls, msg, es, s, cn, hrun, hspawn, -, hc⟩ := canRaise_of_not_fits hm hf
  cases OnlyRaises.error_iff.1 (h.tidy hrun hspawn hc)

/-- The reads with arguments fail with errors of the package exactly if their arguments fit into the
bytes they are packed into, and a text write can be built or is refused as documented exactly if its
pieces can be numbered. -/
theorem package_errors (m : Method) (register : UInt8) (value : String) (fieldBytes : ℤ) :
    (m.isPlainRead = true → (m.Fits ↔ m.FailsTidily)) ∧
    ((FitsField value fieldBytes → fieldBytes ≤ 1020) ↔
      (∃ frames, buildStringWriteOf register value fieldBytes = .ok frames) ∨
        ∃ msg, buildStringWriteOf register value fieldBytes = .error (.spinEv .protocol msg)) := by
  refine ⟨fun hm => ⟨Method.failsTidily_of_fits, Method.fits_of_failsTidily hm⟩, ?_⟩
  by_cases hf : FitsField value fieldBytes
  · by_cases hle : fieldBytes ≤ 1020
    · exact ⟨fun _ => .inl ⟨_, buildStringWriteOf_eq_ok hf hle⟩, fun _ _ => hle⟩
    · simp [hf, hle, buildStringWriteOf_eq_valueError hf (not_le.1 hle)]
  · exact ⟨fun _ => .inr (buildStringWriteOf_eq_error _ hf), fun _ h => absurd h hf⟩

theorem package_errors_history : (Method.getHistory 40).FailsTidily :=
  ((package_errors (.getHistory 40) 0x63 "net" 8).1 rfl).1 ⟨by decide, by decide⟩

/-- Counts, parameters and registers that do not fit, and a field of more than 255 pieces. -/
theorem builtin_errors_escape :
    CanRaise (asyncGetHistory (-1)).run (.builtin .structError "argument out of range") ∧
    CanRaise (asyncReadRaw 0x67 0x100000000).run
      (.builtin .structError "'I' format requires 0 <= number <= 4294967295") ∧
    CanRaise (asyncReadString 256).run (.builtin .valueError "bytes must be in range(0, 256)") ∧
    buildStringWriteOf 0x63 "net" 1024 =
      .error (.builtin .valueError "bytes must be in range(0, 256)") := by
  refine ⟨canRaise_history rfl, canRaise_pure _, canRaise_pure _, ?_⟩
  exact buildStringWriteOf_eq_valueError ⟨by decide, by decide, by decide, by decide⟩ (by decide)

end SpinevBle
