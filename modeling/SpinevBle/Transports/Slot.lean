import SpinevBle.Transports.Ble

/-!
# The charger's one slot

A link that is up takes the charger's only slot, so somebody has to be able to give it back: the
transport, whose client it is, or a call that has it in hand. A call that is cancelled between the
link and its subscription lets go of a link that is up, and so does a call whose close fails, and a
connect that stores its link over another one.
-/

namespace SpinevBle.Ble

open Transition

variable {s s' : State} {e : Event} {k : ℕ}

/-- The transport or a call has the link. -/
def State.Has (s : State) (k : ℕ) : Prop :=
  s.client = some k ∨ ∃ c phase, s.calls c = some phase ∧ phase.link = some k

/-- No call lets go of a link that is up: none is cancelled while it subscribes to one, none ends
its close with the link still up, and none stores a link in place of another that is up. -/
def GivesBack (s : State) : Event → Prop
  | .returned c =>
    match s.calls c with
    | some (.subscribing k) => s.client.all (fun k' => k' = k || !s.isUp k') = true
    | some (.handingBack k _) | some (.closing k) => s.isUp k = false
    | _ => True
  | .raised c err =>
    match s.calls c with
    | some (.subscribing k) => err = .cancelledError → s.isUp k = false
    | some (.handingBack k _) | some (.closing k) => s.isUp k = false
    | _ => True
  | _ => True

instance (s : State) (e : Event) : Decidable (GivesBack s e) :=
  match e with
  | .returned c =>
    match hc : s.calls c with
    | some (.subscribing k) =>
      decidable_of_iff (s.client.all (fun k' => k' = k || !s.isUp k') = true)
        (by simp only [GivesBack, hc])
    | some (.handingBack k _) | some (.closing k) =>
      decidable_of_iff (s.isUp k = false) (by simp only [GivesBack, hc])
    | none | some .establishing | some (.finished _) => .isTrue (by simp only [GivesBack, hc])
  | .raised c err =>
    match hc : s.calls c with
    | some (.subscribing k) =>
      decidable_of_iff (err = .cancelledError → s.isUp k = false) (by simp only [GivesBack, hc])
    | some (.handingBack k _) | some (.closing k) =>
      decidable_of_iff (s.isUp k = false) (by simp only [GivesBack, hc])
    | none | some .establishing | some (.finished _) => .isTrue (by simp only [GivesBack, hc])
  | .connect _ | .disconnect _ | .shut _ | .drop _ | .callback _ | .notify .. => .isTrue trivial

/-! ### Links in hand -/

/-- Every link that is up has somebody to close it. -/
def State.Kept (s : State) : Prop := ∀ k, s.isUp k = true → s.Has k

/-- A link that is up after a step was up before it, or has just been established. -/
lemma Step.isUp_cases (h : Step s e s') (hu : s'.isUp k = true) :
    s.isUp k = true ∨ ∃ l, s.Opened k l e := by
  obtain ⟨l', hl', hup⟩ := State.isUp_iff.1 hu
  rcases h.link_cases hl' with ⟨l, hl, hc⟩ | hnew
  · exact .inl (State.isUp_iff.2 ⟨l, hl, hc.up_of_up hup⟩)
  · exact .inr ⟨l', hnew⟩

namespace State.Has

/-- Whoever has a link keeps it as long as its call does not move. -/
lemma of_eq (h : s.Has k) (hclient : s'.client = s.client) (hcalls : s'.calls = s.calls) :
    s'.Has k := by
  rcases h with h | ⟨c, phase, hc, hp⟩
  · exact .inl (hclient.trans h)
  · exact .inr ⟨c, phase, by rw [hcalls, hc], hp⟩

/-- A call that moves on lets go of its own link only. -/
lemma of_update (h : s.Has k) {c : ℕ} {phase' : Phase}
    (hk : ∀ phase, s.calls c = some phase → phase.link ≠ some k) (hclient : s'.client = s.client)
    (hcalls : s'.calls = Function.update s.calls c (some phase')) : s'.Has k := by
  rcases h with h | ⟨c', phase, hc, hp⟩
  · exact .inl (hclient.trans h)
  · have hne : c' ≠ c := by
      rintro rfl
      exact hk phase hc hp
    exact .inr ⟨c', phase, by rw [hcalls, Function.update_of_ne hne, hc], hp⟩

/-- A disconnect takes the transport's link in hand. -/
lemma asyncDisconnect (h : s.Has k) {c : ℕ} (hc : s.calls c = none) :
    (s.asyncDisconnect c).Has k := by
  rcases h with h | ⟨c', phase, hc', hp⟩
  · refine .inr ⟨c, .closing k, ?_, rfl⟩
    simp [State.asyncDisconnect, h, State.setCall]
  · have hne : c' ≠ c := by
      rintro rfl
      simp [hc] at hc'
    refine .inr ⟨c', phase, ?_, hp⟩
    unfold State.asyncDisconnect
    split <;> exact (Function.update_of_ne hne _ _).trans hc'

/-- A connect that has subscribed hands its link to the transport. -/
lemma subscribe (h : s.Has k) {c k' : ℕ} (hc : s.calls c = some (.subscribing k'))
    (hclient : s.client = some k → k = k') : (s.subscribe c k').Has k := by
  rcases h with h | ⟨c', phase, hc', hp⟩
  · exact .inl (congrArg some (hclient h).symm)
  · by_cases hcc : c' = c
    · subst hcc
      rw [hc] at hc'
      cases hc'
      exact .inl hp
    · exact .inr ⟨c', phase, (Function.update_of_ne hcc _ _).trans hc', hp⟩

end State.Has

lemma State.Kept.step (h : s.Kept) (hst : Step s e s') (hP : GivesBack s e) : s'.Kept := by
  intro k hu
  rcases hst.isUp_cases hu with hup | ⟨l, c, rfl, hc, rfl, rfl⟩
  · have hk := h k hup
    -- a call that ends with a link in hand has one that is down
    have hdown : ∀ {k' : ℕ} {phase : Phase}, s.isUp k' = false → phase.link = some k' →
        phase.link ≠ some k := fun hd hl hl' => by
      rw [hl] at hl'
      cases hl'
      simp [hup] at hd
    cases hst with
    | already hc | connect hc => exact hk.of_update (by simp [hc]) rfl rfl
    | disconnect hc => exact hk.asyncDisconnect hc
    | establish hc => exact hk.of_update (by simp [hc, Phase.link]) rfl rfl
    | @subscribe c k' hc =>
      refine hk.subscribe hc fun hclient => ?_
      simpa [GivesBack, hc, hclient, hup] using hP
    | handedBack hc | closed hc =>
      refine hk.of_update (fun phase hc' => ?_) rfl rfl
      rw [hc] at hc'
      cases hc'
      exact hdown (by simpa [GivesBack, hc] using hP) rfl
    | unestablished hc => exact hk.of_update (by simp [hc, Phase.link]) rfl rfl
    | @unsubscribed c k' err hc =>
      by_cases hkk : k' = k
      · subst hkk
        exact .inr ⟨c, _, Function.update_self _ _ _, rfl⟩
      · exact hk.of_update (by simp [hc, Phase.link, hkk]) rfl rfl
    | abandoned hc =>
      refine hk.of_update (fun phase hc' => ?_) rfl rfl
      rw [hc] at hc'
      cases hc'
      exact hdown (by simpa [GivesBack, hc] using hP) rfl
    | unclosed hc hp =>
      refine hk.of_update (fun phase hc' => ?_) rfl rfl
      rw [hc] at hc'
      cases hc'
      obtain ⟨err, rfl⟩ | rfl := hp <;> exact hdown (by simpa [GivesBack, hc] using hP) rfl
    | shut | drop => exact hk.of_eq rfl rfl
    | callback =>
      refine hk.of_eq ?_ ?_ <;> (unfold State.handleDisconnect; split_ifs <;> rfl)
    | notify =>
      refine hk.of_eq ?_ ?_ <;> (unfold State.handleNotify; split <;> rfl)
  · cases hst with
    | establish => exact .inr ⟨c, _, Function.update_self _ _ _, rfl⟩
    | subscribe hc' | handedBack hc' | closed hc' =>
      rw [hc] at hc'
      cases hc'

/-- No call is running. -/
def State.Quiet (s : State) : Prop := ∀ c phase, s.calls c = some phase → ∃ r, phase = .finished r

/-- Whenever no call is running, every link that is up is the transport's own, and the next
disconnect closes it. -/
def State.LeaksNone (s : State) : Prop :=
  s.Quiet → ∀ k, s.isUp k = true → s.client = some k ∧
    ∀ c, s.calls c = none → ∃ s', s.step (.disconnect c) = some s' ∧ s'.calls c = some (.closing k)

/-- No link is leaked, in every run in which no call lets go of a link that is up. -/
theorem no_link_leaked {es : List Event} (h : BleRun GivesBack es s) : s.LeaksNone := by
  have hinit : State.init.Kept := fun k hu => by simp [State.init, State.isUp] at hu
  have hkept : s.Kept :=
    invariant_of_run (fun _ _ _ _ hu hP hst => hu.step hst hP) h .init hinit
  intro hq k hu
  rcases hkept k hu with hclient | ⟨c, phase, hc, hp⟩
  · refine ⟨hclient, fun c hc => ⟨s.asyncDisconnect c, by simp [State.step, hc], ?_⟩⟩
    simp [State.asyncDisconnect, hclient, State.setCall]
  · obtain ⟨r, rfl⟩ := hq c phase hc
    cases hp

/-- A connect whose subscription fails hands the link back, and the next connect succeeds. -/
def handedBackEvents : List Event :=
  [.connect 0, .returned 0, .raised 0 (.builtin .other "no such characteristic"), .shut 0,
    .returned 0, .connect 1, .returned 1, .returned 1]

theorem no_link_leaked_handed_back :
    ∃ s, BleRun GivesBack handedBackEvents s ∧ s.isUp 1 = true ∧ s.client = some 1 := by
  have h : BleRun GivesBack handedBackEvents _ := Run.of_exec rfl
  refine ⟨_, h, rfl, (no_link_leaked h ?_ 1 rfl).1⟩
  rintro (_ | _ | c) phase hc <;> cases hc <;> exact ⟨_, rfl⟩

/-- Where the connect is cancelled while it subscribes, its link stays up and nobody has it. -/
theorem cancelled_connect_leaks :
    ¬ ∀ (es : List Event) (s : State), BleRun Always es s → s.LeaksNone := by
  intro h
  have hrun : BleRun Always [.connect 0, .returned 0, .raised 0 .cancelledError] _ :=
    Run.of_exec rfl
  have hleak := (h _ _ hrun ?_ 0 rfl).1
  · cases hleak
  · rintro (_ | c) phase hc <;> cases hc
    exact ⟨_, rfl⟩

end SpinevBle.Ble
