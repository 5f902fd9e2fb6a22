import SpinevBle.Transports.Ble

/-!
# Reported drops

The handler of the disconnected callback is not told which link it is for, nor who closed it: it
calls `on_disconnect` whenever one is stored. That is right as long as none is stored when the
callback of an old link or of a requested close can still come, and one is whenever the callback of
the transport's own link can.
-/

namespace SpinevBle.Ble

open Transition

variable {s s' : State} {e : Event} {k : ℕ}

/-! ### Callbacks to come -/

/-- The disconnected callback can still come. -/
def Status.live : Status → Bool
  | .up => true
  | .down _ due => due

def State.isLive (s : State) (k : ℕ) : Bool := (s.links[k]?).any fun l => l.status.live

/-- The callback of the link can still come, and should not be reported: the link is no longer the
transport's own, or the transport has closed it. -/
def State.isStale (s : State) (k : ℕ) : Bool :=
  (s.links[k]?).any fun l =>
    l.hasBeenCurrent && s.client ≠ some k && l.status.live || l.status = .down true true

/-- No callbacks are stored while that of an old link can still come: none when the transport closes
a link, and no connect stores its own before the callbacks of all old links have come. A connect
that stores its link finds callbacks stored if that link can call them, and then no other link in
its place that could. -/
def OldLinksSettled (s : State) : Event → Prop
  | .connect _ =>
    s.isConnected = true ∨ ((List.range s.links.length).all fun k => !s.isStale k) = true
  | .returned c =>
    match s.calls c with
    | some (.subscribing k) => (s.isLive k = true → s.onDisconnect ≠ none) ∧
        (s.onDisconnect ≠ none → s.client.all (fun k' => k' = k || !s.isLive k') = true)
    | _ => True
  | .shut _ => s.onDisconnect = none
  | _ => True

instance (s : State) (e : Event) : Decidable (OldLinksSettled s e) :=
  match e with
  | .connect _ =>
    decidable_of_iff
      (s.isConnected = true ∨ ((List.range s.links.length).all fun k => !s.isStale k) = true)
      Iff.rfl
  | .returned c =>
    match hc : s.calls c with
    | some (.subscribing k) =>
      decidable_of_iff ((s.isLive k = true → s.onDisconnect ≠ none) ∧
          (s.onDisconnect ≠ none → s.client.all (fun k' => k' = k || !s.isLive k') = true))
        (by simp only [OldLinksSettled, hc])
    | none | some .establishing | some (.handingBack ..) | some (.closing _)
    | some (.finished _) => .isTrue (by simp only [OldLinksSettled, hc])
  | .shut _ => decidable_of_iff (s.onDisconnect = none) Iff.rfl
  | .disconnect _ | .raised .. | .drop _ | .callback _ | .notify .. => .isTrue trivial

lemma State.isLive_iff : s.isLive k = true ↔ ∃ l, s.links[k]? = some l ∧ l.status.live = true := by
  simp [State.isLive, Option.any_eq_true]

lemma State.isStale_iff :
    s.isStale k = true ↔ ∃ l, s.links[k]? = some l ∧
      (l.hasBeenCurrent = true ∧ s.client ≠ some k ∧ l.status.live = true ∨
        l.status = .down true true) := by
  simp [State.isStale, Option.any_eq_true, and_assoc]

lemma LinkChange.live_of_live {i : ℕ} {l l' : Link} (h : LinkChange s i l e l')
    (hl : l'.status.live = true) : l.status.live = true := by
  cases h with
  | same | current => exact hl
  | shut hu | drop hu => simp [hu, Status.live]
  | callback => cases hl

/-! ### The stored callback -/

/-- None is stored while a link is stale, and one is while the transport's own link can call it. -/
structure State.Settled (s : State) : Prop where
  stale : ∀ k, s.isStale k = true → s.onDisconnect = none
  current : ∀ k, s.client = some k → s.isLive k = true → s.onDisconnect ≠ none

/-- A link that is stale after a step was stale before it, unless the transport has just closed it
or taken another for its own. -/
lemma Step.stale_of_stale (h : Step s e s') (hclient : s'.client = s.client)
    (hshut : ∀ c, e ≠ .shut c)
    (hret : ∀ c, e = .returned c → ∀ k, s.calls c ≠ some (.subscribing k))
    (hk : s'.isStale k = true) : s.isStale k = true := by
  obtain ⟨l', hl', hstale⟩ := State.isStale_iff.1 hk
  rw [hclient] at hstale
  rcases h.link_cases hl' with ⟨l, hl, hchange⟩ | ⟨c, -, -, -, rfl⟩
  · refine State.isStale_iff.2 ⟨l, hl, ?_⟩
    cases hchange with
    | same => exact hstale
    | current hc => exact absurd hc (hret _ rfl _)
    | shut => exact absurd rfl (hshut _)
    | drop hu =>
      rcases hstale with ⟨hb, hne, -⟩ | hd
      · exact .inl ⟨hb, hne, by simp [hu, Status.live]⟩
      · cases hd
    | callback hd =>
      rcases hstale with ⟨-, -, hlive⟩ | hd
      · cases hlive
      · cases hd
  · simp at hstale

/-- A link whose callback can come after a step had it to come before, or is new. -/
lemma Step.live_of_live (h : Step s e s') {l : Link} (hl : s.links[k]? = some l)
    (hlive : s'.isLive k = true) : s.isLive k = true := by
  obtain ⟨l', hl', hchange⟩ := h.link_stays hl
  obtain ⟨l'', hl'', hlive⟩ := State.isLive_iff.1 hlive
  rw [hl'] at hl''
  cases hl''
  exact State.isLive_iff.2 ⟨l, hl, hchange.live_of_live hlive⟩

namespace State.Settled

lemma init : State.init.Settled where
  stale k hk := by simp [isStale, State.init] at hk
  current k hk := by cases hk

/-- Where a step leaves the transport's own fields alone, only a close can unsettle it. -/
lemma keep (h : s.Settled) (hs : s.Sound) (hst : Step s e s') (hclient : s'.client = s.client)
    (hstored : s'.onDisconnect = s.onDisconnect) (hshut : ∀ c, e ≠ .shut c)
    (hret : ∀ c, e = .returned c → ∀ k, s.calls c ≠ some (.subscribing k)) : s'.Settled where
  stale k hk := hstored.trans (h.stale k (hst.stale_of_stale hclient hshut hret hk))
  current k hk hlive := by
    rw [hstored]
    obtain ⟨l, hl, -⟩ := hs.current k (hclient ▸ hk)
    exact h.current k (hclient ▸ hk) (hst.live_of_live hl hlive)

/-- A connect takes its link for the transport's own. -/
lemma subscribe (h : s.Settled) (hs : s.Sound) {c : ℕ} (hc : s.calls c = some (.subscribing k))
    (hstored : s.isLive k = true → s.onDisconnect ≠ none)
    (hother : s.onDisconnect ≠ none → s.client.all (fun k' => k' = k || !s.isLive k') = true) :
    (s.subscribe c k).Settled where
  stale i hi := by
    change s.onDisconnect = none
    by_contra hn
    have hst : Step s (.returned c) (s.subscribe c k) := .subscribe hc
    obtain ⟨l', hl', hstale⟩ := State.isStale_iff.1 hi
    refine hn (h.stale i (State.isStale_iff.2 ?_))
    rcases hst.link_cases hl' with ⟨l, hl, hchange⟩ | ⟨c', he, hc', -⟩
    · refine ⟨l, hl, ?_⟩
      cases hchange with
      | same =>
        rcases hstale with ⟨hb, hne, hlive⟩ | hd
        · refine .inl ⟨hb, fun hclient => ?_, hlive⟩
          have hi : s.isLive i = true := State.isLive_iff.2 ⟨l', hl, hlive⟩
          have hik : i = k := by simpa [hclient, hi] using hother hn
          exact hne (congrArg some hik.symm)
        · exact .inr hd
      | current hc' =>
        rw [hc] at hc'
        cases hc'
        rcases hstale with ⟨-, hne, -⟩ | hd
        · exact absurd rfl hne
        · exact .inr hd
    · cases he
      rw [hc] at hc'
      cases hc'
  current i hi hlive := by
    cases hi
    have hst : Step s (.returned c) (s.subscribe c k) := .subscribe hc
    obtain ⟨l, hl, -⟩ := hs.opens c k hc
    exact hstored (hst.live_of_live hl hlive)

lemma step (h : s.Settled) (hs : s.Sound) (hst : Step s e s') (hP : OldLinksSettled s e) :
    s'.Settled := by
  have hst' := hst
  cases hst with
  | @connect c hc hu =>
    refine ⟨fun k hk => ?_, fun k _ _ hn => by cases hn⟩
    have hnone : ∀ k < s.links.length, s.isStale k = false := by
      simpa [OldLinksSettled, hu] using hP
    have hstale := hst'.stale_of_stale rfl (by simp) (by simp) hk
    obtain ⟨l, hl, -⟩ := State.isStale_iff.1 hstale
    simp [hnone k (List.getElem?_eq_some_iff.1 hl).1] at hstale
  | disconnect => exact ⟨fun _ _ => by simp, fun k hk => by simp at hk⟩
  | @subscribe c k hc =>
    obtain ⟨hstored, hother⟩ : (s.isLive k = true → s.onDisconnect ≠ none) ∧
        (s.onDisconnect ≠ none → s.client.all (fun k' => k' = k || !s.isLive k') = true) := by
      simpa only [OldLinksSettled, hc] using hP
    exact h.subscribe hs hc hstored hother
  | shut hc hp hu =>
    refine ⟨fun _ _ => hP, fun k hk hlive => ?_⟩
    obtain ⟨l, hl, -⟩ := hs.current k hk
    exact h.current k hk (hst'.live_of_live hl hlive)
  | @callback k =>
    obtain ⟨reports, heq⟩ := s.handleDisconnect_eq k
    refine h.keep hs hst' ?_ ?_ (by simp) (by simp) <;> simp [heq, State.setStatus]
  | @notify k payload =>
    obtain ⟨frames, heq⟩ := s.handleNotify_eq payload
    refine h.keep hs hst' ?_ ?_ (by simp) (by simp) <;> simp [heq]
  | already | unestablished | unsubscribed | abandoned | unclosed | drop =>
    exact h.keep hs hst' rfl rfl (by simp) (by simp)
  | establish hc | handedBack hc | closed hc =>
    exact h.keep hs hst' rfl rfl (by simp) fun _ he _ => by
      cases he
      simp [hc]

end State.Settled

/-! ### The callback of a link -/

/-- What the callback of link `k` is to do in `v`, and `w` is after it: a drop of the transport's
own link is reported once, and neither a close that the transport asked for nor the end of a link
that it has replaced or given up is. -/
def State.Tells (v : State) (k : ℕ) (w : State) : Prop :=
  ∃ l requested, v.links[k]? = some l ∧ l.status = .down requested true ∧
    (v.client = some k → requested = false → w.reports = k :: v.reports) ∧
    (w.reports = v.reports ∨ w.reports = k :: v.reports ∧ requested = false ∧
      (l.hasBeenCurrent = true → v.client = some k))

/-- Only the callback of a link can lead to a report. -/
lemma Step.reports_eq (h : Step s e s') (he : ∀ k, e ≠ .callback k) :
    s'.reports = s.reports := by
  cases h with
  | callback => exact absurd rfl (he _)
  | disconnect =>
    unfold State.asyncDisconnect
    split <;> rfl
  | @notify k payload =>
    obtain ⟨frames, heq⟩ := s.handleNotify_eq payload
    rw [heq]
  | _ => rfl

/-- A callback reports its link or nothing. -/
lemma Step.reports_cases (h : Step s (.callback k) s') :
    s'.reports = s.reports ∨ s'.reports = k :: s.reports := by
  cases h with
  | callback =>
    by_cases hn : s.onDisconnect.isSome = true
    · exact .inr (by simp [State.setStatus, State.handleDisconnect, hn])
    · exact .inl (by simp [State.setStatus, State.handleDisconnect, hn])

lemma State.Settled.tells (h : s.Settled) (hst : Step s (.callback k) s') : s.Tells k s' := by
  cases hst with
  | @callback k l requested hl hd =>
    have hlive : l.status.live = true := by simp [hd, Status.live]
    refine ⟨l, requested, hl, hd, ?_, ?_⟩
    · rintro hclient -
      have hne := h.current k hclient (State.isLive_iff.2 ⟨l, hl, hlive⟩)
      simp [State.setStatus, State.handleDisconnect, Option.isSome_iff_ne_none, hne]
    · by_cases hn : s.onDisconnect = none
      · exact .inl (by simp [State.setStatus, State.handleDisconnect, hn])
      · -- a callback is stored, so the link is not stale
        have hfresh : ¬ (l.hasBeenCurrent = true ∧ s.client ≠ some k ∧ l.status.live = true ∨
            l.status = .down true true) :=
          fun hstale => hn (h.stale k (State.isStale_iff.2 ⟨l, hl, hstale⟩))
        refine .inr ⟨?_, ?_, ?_⟩
        · simp [State.setStatus, State.handleDisconnect, Option.isSome_iff_ne_none, hn]
        · cases requested with
          | false => rfl
          | true => exact absurd (.inr hd) hfresh
        · intro hb
          by_contra hne
          exact hfresh (.inl ⟨hb, hne, hlive⟩)

/-- The callback of the link has come. -/
def State.Spent (s : State) (k : ℕ) : Prop :=
  ∃ l requested, s.links[k]? = some l ∧ l.status = .down requested false

lemma State.Spent.step (h : s.Spent k) (hst : Step s e s') : s'.Spent k := by
  obtain ⟨l, requested, hl, hd⟩ := h
  obtain ⟨l', hl', hchange⟩ := hst.link_stays hl
  refine ⟨l', requested, hl', ?_⟩
  cases hchange with
  | same | current => exact hd
  | shut hu | drop hu => simp [hd] at hu
  | callback hd' => simp [hd] at hd'

lemma Step.spent (h : Step s (.callback k) s') : s'.Spent k := by
  cases h with
  | @callback k l requested hl hd =>
    obtain ⟨reports, heq⟩ := s.handleDisconnect_eq k
    exact ⟨{ l with status := .down requested false }, requested,
      by simp [heq, State.setStatus, hl], rfl⟩

lemma State.Spent.not_callback (h : s.Spent k) : ¬ Step s (.callback k) s' := by
  intro hst
  obtain ⟨l, requested, hl, hd⟩ := h
  cases hst with
  | callback hl' hd' =>
    rw [hl] at hl'
    cases hl'
    simp [hd] at hd'

/-! ### Reports in a run -/

/-- No link has been reported twice, as each has its callback once. -/
structure State.ReportsOnce (s : State) : Prop where
  nodup : s.reports.Nodup
  spent : ∀ k ∈ s.reports, s.Spent k

lemma State.ReportsOnce.step (h : s.ReportsOnce) (hst : Step s e s') : s'.ReportsOnce := by
  have hspent : ∀ k ∈ s.reports, s'.Spent k := fun k hk => (h.spent k hk).step hst
  by_cases he : ∃ k, e = .callback k
  · obtain ⟨k, rfl⟩ := he
    have hnew : k ∉ s.reports := fun hk => (h.spent k hk).not_callback hst
    rcases hst.reports_cases with hr | hr
    · exact ⟨hr ▸ h.nodup, hr ▸ hspent⟩
    · exact ⟨hr ▸ List.nodup_cons.2 ⟨hnew, h.nodup⟩,
        hr ▸ List.forall_mem_cons.2 ⟨hst.spent, hspent⟩⟩
  · have hr := hst.reports_eq (not_exists.1 he)
    exact ⟨hr ▸ h.nodup, hr ▸ hspent⟩

/-- Every callback in the run tells what it is to tell, nothing else is reported, and no link is
reported twice. -/
def ReportsDrops (es : List Event) (s : State) : Prop :=
  (∀ es₁ e es₂ v w, es = es₁ ++ e :: es₂ → BleRun Always es₁ v → v.step e = some w →
    (∀ k, e = .callback k → v.Tells k w) ∧ ((∀ k, e ≠ .callback k) → w.reports = v.reports)) ∧
  s.reports.Nodup

lemma State.settled_of_run {es : List Event} (h : BleRun OldLinksSettled es s) : s.Settled :=
  invariant_of_run (fun _ _ _ hs hu hP hst => hu.step hs hst hP) h .init .init

lemma State.reportsOnce_of_run {P : State → Event → Prop} {es : List Event}
    (h : BleRun P es s) : s.ReportsOnce := by
  have hinit : State.init.ReportsOnce := ⟨List.nodup_nil, by simp [State.init]⟩
  exact invariant_of_run (fun _ _ _ _ hu _ hst => hu.step hst) h .init hinit

/-- Only drops of the transport's own link are reported, each of them once, in every run in which no
callbacks are stored while that of an old link can still come. -/
theorem reports_only_drops {es : List Event} (h : BleRun OldLinksSettled es s) :
    ReportsDrops es s := by
  refine ⟨?_, (State.reportsOnce_of_run h).nodup⟩
  rintro es₁ e es₂ v w rfl hv hst
  obtain ⟨v', hv', -⟩ := h.of_append
  obtain rfl := hv.unique hv'
  refine ⟨?_, (Step.of_step hst).reports_eq⟩
  rintro k rfl
  exact (State.settled_of_run hv').tells (Step.of_step hst)

/-- The link of a connect drops, and that is reported. -/
def droppedEvents : List Event := [.connect 0, .returned 0, .returned 0, .drop 0, .callback 0]

theorem reports_only_drops_dropped :
    ∃ s, BleRun OldLinksSettled droppedEvents s ∧ s.reports = [0] ∧
      ReportsDrops droppedEvents s := by
  have h : BleRun OldLinksSettled droppedEvents _ := Run.of_exec rfl
  exact ⟨_, h, rfl, reports_only_drops h⟩

/-- The subscription fails, and the close that hands the link back is reported as a drop. -/
theorem handed_back_is_reported :
    ¬ ∀ (es : List Event) (s : State), BleRun Always es s → ReportsDrops es s := by
  intro h
  have hrun : BleRun Always [.connect 0, .returned 0, .raised 0 (.builtin .other ""), .shut 0] _ :=
    Run.of_exec rfl
  have hcallback : BleRun Always
      [.connect 0, .returned 0, .raised 0 (.builtin .other ""), .shut 0, .callback 0] _ :=
    Run.of_exec rfl
  obtain ⟨l, requested, hl, hd, -, htold⟩ :=
    ((h _ _ hcallback).1 [.connect 0, .returned 0, .raised 0 (.builtin .other ""), .shut 0]
      (.callback 0) [] _ _ rfl hrun rfl).1 0 rfl
  rcases htold with hr | ⟨-, hr, -⟩
  · cases hr
  · cases hl
    subst hr
    cases hd

end SpinevBle.Ble
