import SpinevBle.Transports.Ble

/-!
# Connected and listening

The callbacks are stored when a connect starts and the link when it has subscribed. A disconnect or
another connect in between leaves the transport with a link and without the callbacks that belong to
it. As long as every connect that stores a link finds its own callbacks in place, a transport that
is connected hands every payload to its client, and one that was disconnected stays so.
-/

namespace SpinevBle.Ble

open Transition

variable {s s' : State} {e : Event}

/-- A connect that stores a link that is up finds its own callbacks in place. -/
def CallbacksInPlace (s : State) : Event → Prop
  | .returned c =>
    match s.calls c with
    | some (.subscribing k) => s.isUp k = true → s.onFrame = some c ∧ s.onDisconnect = some c
    | _ => True
  | _ => True

instance (s : State) (e : Event) : Decidable (CallbacksInPlace s e) :=
  match e with
  | .returned c =>
    match hc : s.calls c with
    | some (.subscribing k) =>
      decidable_of_iff (s.isUp k = true → s.onFrame = some c ∧ s.onDisconnect = some c)
        (by simp only [CallbacksInPlace, hc])
    | none | some .establishing | some (.handingBack ..) | some (.closing _)
    | some (.finished _) => .isTrue (by simp only [CallbacksInPlace, hc])
  | .connect _ | .disconnect _ | .raised .. | .shut _ | .drop _ | .callback _
  | .notify .. => .isTrue trivial

/-! ### Listening -/

/-- The callbacks are those of the connect that opened the transport's link, if that is up. -/
def State.Listening (s : State) : Prop :=
  ∀ k l, s.client = some k → s.links[k]? = some l → l.status = .up →
    s.onFrame = some l.opener ∧ s.onDisconnect = some l.opener

lemma State.isConnected_iff {s : State} :
    s.isConnected = true ↔ ∃ k, s.client = some k ∧ s.isUp k = true := by
  simp [State.isConnected, Option.any_eq_true]

lemma State.Listening.step (h : s.Listening) (hs : s.Sound) (hst : Step s e s')
    (hP : CallbacksInPlace s e) : s'.Listening := by
  intro k l' hclient hl' hup
  have hkeep : s.client = some k →
      s.onFrame = some l'.opener ∧ s.onDisconnect = some l'.opener := by
    intro hk
    obtain ⟨l, hl, -⟩ := hs.current k hk
    obtain ⟨l'', hl'', hc⟩ := hst.link_stays hl
    rw [hl'] at hl''
    cases hl''
    have := h k l hk hl (hc.up_of_up hup)
    rwa [hc.opener_eq]
  cases hst with
  | @connect c hc hu =>
    have hconnected : s.isConnected = true :=
      State.isConnected_iff.2 ⟨k, hclient, State.isUp_iff.2 ⟨l', hl', hup⟩⟩
    simp [hu] at hconnected
  | disconnect => simp at hclient
  | @subscribe c k' hc =>
    cases hclient
    have hst : Step s (.returned c) (s.subscribe c k) := .subscribe hc
    obtain ⟨l, hl, ho⟩ := hs.opens c k hc
    have hisUp := hst.isUp_of_isUp hl (State.isUp_iff.2 ⟨l', hl', hup⟩)
    obtain ⟨l'', hl'', hchange⟩ := hst.link_stays hl
    rw [hl'] at hl''
    cases hl''
    rw [hchange.opener_eq, ho]
    have hplace : s.onFrame = some c ∧ s.onDisconnect = some c := by
      simpa [CallbacksInPlace, hc, hisUp] using hP
    exact hplace
  | @callback k' =>
    obtain ⟨reports, heq⟩ := s.handleDisconnect_eq k'
    rw [heq] at hclient ⊢
    exact hkeep hclient
  | @notify k' payload =>
    obtain ⟨frames, heq⟩ := s.handleNotify_eq payload
    rw [heq] at hclient ⊢
    exact hkeep hclient
  | _ => exact hkeep hclient

/-! ### Staying disconnected -/

/-- The transport has forgotten its callbacks and is not connected. -/
def State.Deaf (s : State) : Prop := s.onFrame = none ∧ s.isConnected = false

lemma State.Deaf.step (h : s.Deaf) (hs : s.Sound) (hst : Step s e s')
    (hP : CallbacksInPlace s e) (he : ∀ c, e ≠ .connect c) : s'.Deaf := by
  obtain ⟨hframe, hdown⟩ := h
  have hkeep : s'.client = s.client → s'.isConnected = false := by
    intro hclient
    by_contra hc
    obtain ⟨k, hk, hu⟩ := State.isConnected_iff.1 (by simpa using hc)
    obtain ⟨l, hl, -⟩ := hs.current k (hclient ▸ hk)
    have hconnected := State.isConnected_iff.2 ⟨k, hclient ▸ hk, hst.isUp_of_isUp hl hu⟩
    simp [hdown] at hconnected
  cases hst with
  | already | connect => exact absurd rfl (he _)
  | disconnect => exact ⟨by simp, by simp [State.isConnected]⟩
  | @subscribe c k hc =>
    refine ⟨hframe, ?_⟩
    by_contra hcon
    obtain ⟨k', hk', hu⟩ := State.isConnected_iff.1 (by simpa using hcon)
    cases hk'
    have hst : Step s (.returned c) (s.subscribe c k) := .subscribe hc
    obtain ⟨l, hl, -⟩ := hs.opens c k hc
    have hisUp := hst.isUp_of_isUp hl hu
    simp [CallbacksInPlace, hc, hisUp, hframe] at hP
  | @callback k' =>
    obtain ⟨reports, heq⟩ := s.handleDisconnect_eq k'
    exact ⟨by rwa [heq], hkeep (by simp [heq, State.setStatus])⟩
  | @notify k' payload =>
    obtain ⟨frames, heq⟩ := s.handleNotify_eq payload
    exact ⟨by simpa [heq] using hframe, hkeep (by simp [heq])⟩
  | _ => exact ⟨hframe, hkeep rfl⟩

/-! ### Both in a run -/

/-- If the transport is connected, its callbacks are those of the connect that opened its link, and
every payload that the link brings goes there. -/
def State.Listens (s : State) : Prop :=
  s.isConnected = true → ∃ k l, s.client = some k ∧ s.links[k]? = some l ∧
    s.onFrame = some l.opener ∧ s.onDisconnect = some l.opener ∧
    ∀ payload s', s.step (.notify k payload) = some s' →
      s'.frames = s.frames ++ [(l.opener, payload)]

/-- Once a disconnect has returned and every connect from before it has ended, the transport is not
connected unless there has been another connect. -/
def StaysDown (es : List Event) (s : State) : Prop :=
  ∀ es₁ es₂ d, es = es₁ ++ .disconnect d :: es₂ → (∀ c, .connect c ∉ es₂) →
    (∃ r, s.calls d = some (.finished r)) →
    (∀ c, .connect c ∈ es₁ → ∃ r, s.calls c = some (.finished r)) → s.isConnected = false

lemma State.Listening.listens (h : s.Listening) : s.Listens := by
  intro hcon
  obtain ⟨k, hk, hu⟩ := State.isConnected_iff.1 hcon
  obtain ⟨l, hl, hup⟩ := State.isUp_iff.1 hu
  obtain ⟨hf, hd⟩ := h k l hk hl hup
  refine ⟨k, l, hk, hl, hf, hd, fun payload s' hst => ?_⟩
  simp only [State.step, hu, if_true, Option.some.injEq] at hst
  subst hst
  simp [State.handleNotify, hf]

/-- A transport that is connected listens, and one that was disconnected stays so, in every run in
which a connect that stores a link finds its own callbacks in place. -/
theorem connected_is_listening {es : List Event} (h : BleRun CallbacksInPlace es s) :
    s.Listens ∧ StaysDown es s := by
  constructor
  · have hinit : State.init.Listening := fun k l hk => by cases hk
    have hlistening : s.Listening :=
      invariant_of_run (fun _ _ _ hs hu hP hst => hu.step hs hst hP) h .init hinit
    exact hlistening.listens
  · rintro es₁ es₂ d rfl hnone - -
    obtain ⟨v, hv, hrest⟩ := h.of_append
    have hvs := State.sound_of_run hv
    cases hrest with
    | @cons _ w _ _ _ hP hst hrun =>
      have hst : Step v (.disconnect d) w := Step.of_step hst
      have hws := hvs.step hst
      have hw : w.Deaf := by
        cases hst with
        | disconnect => exact ⟨by simp, by simp [State.isConnected]⟩
      have hstep : ∀ u e u', u.Sound → u.Deaf → CallbacksInPlace u e ∧ e ∈ es₂ → Step u e u' →
          u'.Deaf := by
        rintro u e u' hus hu ⟨hP, he⟩ hst
        exact hu.step hus hst hP fun c hc => hnone c (hc ▸ he)
      exact (invariant_of_run hstep hrun.mem hws hw).2

theorem connected_is_listening_connect :
    ∃ s, BleRun CallbacksInPlace [.connect 0, .returned 0, .returned 0] s ∧
      ∃ k l, s.client = some k ∧ s.links[k]? = some l ∧ s.onFrame = some l.opener ∧
        s.onDisconnect = some l.opener ∧ ∀ payload s', s.step (.notify k payload) = some s' →
          s'.frames = s.frames ++ [(l.opener, payload)] := by
  have h : BleRun CallbacksInPlace [.connect 0, .returned 0, .returned 0] _ := Run.of_exec rfl
  exact ⟨_, h, (connected_is_listening h).1 rfl⟩

/-- A disconnect while the connect still subscribes leaves the link without its callbacks, and the
transport connected. -/
theorem disconnected_while_connecting :
    (¬ ∀ (es : List Event) (s : State), BleRun Always es s → s.Listens) ∧
      ¬ ∀ (es : List Event) (s : State), BleRun Always es s → StaysDown es s := by
  have hrun : BleRun Always [.connect 0, .returned 0, .disconnect 1, .returned 0] _ :=
    Run.of_exec rfl
  constructor
  · intro h
    obtain ⟨k, l, -, -, hf, -⟩ := h _ _ hrun rfl
    cases hf
  · intro h
    have hdown := h _ _ hrun [.connect 0, .returned 0] [.returned 0] 1 rfl (by simp) ⟨_, rfl⟩
      fun c hc => ?_
    · cases hdown
    · obtain rfl : c = 0 := by simpa using hc
      exact ⟨_, rfl⟩

end SpinevBle.Ble
