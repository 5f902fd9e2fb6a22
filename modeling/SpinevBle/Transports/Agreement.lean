import SpinevBle.Transports.Ble
import SpinevBle.Transports.Ocpp

/-!
# One connection state machine

What the interface asks of every transport: it is closed, or open with the callbacks that it was
opened with, and a drop is reported to these. Connects, disconnects and drops come one after another
here. A Bluetooth connect always succeeds.
-/

namespace SpinevBle

open Transition

variable {κ δ : Type}

/-! ### The contract -/

/-- What can happen to a connection. A drop of a closed one is nothing. -/
inductive LinkOp (κ δ : Type)
  | connect (onFrame : κ) (onDisconnect : δ)
  | disconnect
  | drop

/-- What can be told of a transport: the callbacks that the next frame and the next drop would
reach, and the ones that earlier drops have reached, newest first. -/
structure Seen (κ δ : Type) where
  isConnected : Bool
  nextFrame : Option κ
  nextDrop : Option δ
  drops : List δ
  deriving DecidableEq

/-- The transport that the interface describes. -/
structure Contract (κ δ : Type) where
  link : Option (κ × δ)
  drops : List δ

namespace Contract

/-- Connecting an already connected transport does nothing. -/
def step (s : Contract κ δ) : LinkOp κ δ → Contract κ δ
  | .connect onFrame onDisconnect =>
    match s.link with
    | some _ => s
    | none => { s with link := some (onFrame, onDisconnect) }
  | .disconnect => { s with link := none }
  | .drop =>
    match s.link with
    | some (_, onDisconnect) => ⟨none, onDisconnect :: s.drops⟩
    | none => s

def run (ops : List (LinkOp κ δ)) : Contract κ δ := ops.foldl step ⟨none, []⟩

def seen (s : Contract κ δ) : Seen κ δ :=
  ⟨s.link.isSome, s.link.map Prod.fst, s.link.map Prod.snd, s.drops⟩

end Contract

/-! ### The tunnel -/

/-- The tunnel and the callbacks that its drops have reached. -/
structure OcppLink (κ δ : Type) where
  transport : Ocpp.Transport κ δ
  drops : List δ

namespace OcppLink

def step (s : OcppLink κ δ) : LinkOp κ δ → OcppLink κ δ
  | .connect onFrame onDisconnect =>
    { s with transport := s.transport.asyncConnect onFrame onDisconnect }
  | .disconnect => { s with transport := s.transport.asyncDisconnect }
  | .drop =>
    let (transport, called) := s.transport.notifyDisconnected
    ⟨transport, called.toList ++ s.drops⟩

def run (ops : List (LinkOp κ δ)) : OcppLink κ δ := ops.foldl step ⟨.init, []⟩

def seen (s : OcppLink κ δ) : Seen κ δ :=
  ⟨s.transport.isConnected, s.transport.onFrame, s.transport.onDisconnect, s.drops⟩

end OcppLink

/-! ### Bluetooth -/

/-- The Bluetooth transport, the callbacks that its connects were given, by the number of the call,
and the ones that its drops have reached. -/
structure BleLink (κ δ : Type) where
  transport : Ble.State
  next : ℕ
  callbacks : ℕ → Option (κ × δ)
  drops : List δ

namespace BleLink

/-- One event. The disconnected callback calls the `on_disconnect` that is stored. -/
def tick (s : BleLink κ δ) (e : Ble.Event) : Option (BleLink κ δ) := do
  let transport ← s.transport.step e
  let called := match e with
    | .callback _ => (s.transport.onDisconnect.bind s.callbacks).map Prod.snd
    | _ => none
  return { s with transport, drops := called.toList ++ s.drops }

/-- What happens in the course of an operation that is not disturbed, as call `c`. -/
def events (s : Ble.State) (c : ℕ) : LinkOp κ δ → List Ble.Event
  | .connect _ _ => if s.isConnected then [.connect c] else [.connect c, .returned c, .returned c]
  | .disconnect =>
    match s.client with
    | some k =>
      if s.isUp k then [.disconnect c, .shut c, .callback k, .returned c]
      else [.disconnect c, .returned c]
    | none => [.disconnect c]
  | .drop =>
    match s.client with
    | some k => if s.isUp k then [.drop k, .callback k] else []
    | none => []

/-- The operation begins, as the next call. -/
def begin (s : BleLink κ δ) : LinkOp κ δ → BleLink κ δ
  | .connect onFrame onDisconnect =>
    { s with
      next := s.next + 1
      callbacks := Function.update s.callbacks s.next (some (onFrame, onDisconnect)) }
  | _ => { s with next := s.next + 1 }

def step (s : BleLink κ δ) (op : LinkOp κ δ) : Option (BleLink κ δ) :=
  (events s.transport s.next op).foldlM tick (s.begin op)

def run (ops : List (LinkOp κ δ)) : Option (BleLink κ δ) :=
  ops.foldlM step ⟨.init, 0, fun _ => none, []⟩

/-- Frames and drops come from a link that is up. -/
def seen (s : BleLink κ δ) : Seen κ δ :=
  let reached (field : Option ℕ) : Option (κ × δ) :=
    if s.transport.isConnected then field.bind s.callbacks else none
  ⟨s.transport.isConnected, (reached s.transport.onFrame).map Prod.fst,
    (reached s.transport.onDisconnect).map Prod.snd, s.drops⟩

end BleLink

/-! ### Undisturbed operations -/

namespace Ble

variable {s : State} {c k : ℕ}

/-- No callback is called in this step. -/
def Silent (s : State) (e : Event) : Prop := (∃ k, e = .callback k) → s.onDisconnect = none

lemma State.setCall_of_ne (s : State) (phase : Phase) {c' : ℕ} (h : c' ≠ c) :
    (s.setCall c phase).calls c' = s.calls c' :=
  Function.update_of_ne h _ _

lemma State.isUp_setStatus_down (s : State) (k : ℕ) (requested due : Bool) :
    (s.setStatus k (.down requested due)).isUp k = false := by
  simp only [isUp, setStatus, List.getElem?_modify_eq, Option.any_eq_false]
  intro l hl
  rw [Option.map_eq_map, Option.map_eq_some_iff] at hl
  obtain ⟨l', -, rfl⟩ := hl
  simp

/-- A connect of a transport that is not connected. -/
lemma exists_connect (hc : s.calls c = none) (hu : s.isConnected = false) :
    ∃ t, Run machine Silent s [.connect c, .returned c, .returned c] t ∧ t.isConnected = true ∧
      t.onFrame = some c ∧ t.onDisconnect = some c ∧ ∀ c' ≠ c, t.calls c' = s.calls c' := by
  have h₁ : s.step (.connect c) = some (s.asyncConnect c) := by simp [State.step, hc]
  have hasync : s.asyncConnect c =
      { s.setCall c .establishing with onFrame := some c, onDisconnect := some c } := by
    simp [State.asyncConnect, hu]
  have h₂ : (s.asyncConnect c).step (.returned c) = some ((s.asyncConnect c).establish c) := by
    simp [hasync, State.step, State.resume, State.setCall]
  have h₃ : ((s.asyncConnect c).establish c).step (.returned c) =
      some (((s.asyncConnect c).establish c).subscribe c s.links.length) := by
    simp [hasync, State.step, State.resume, State.setCall, State.establish]
  refine ⟨_, .cons (by simp [Silent]) h₁ (.cons (by simp [Silent]) h₂ (.single (by simp [Silent]) h₃)),
    ?_, ?_, ?_, fun c' hc' => ?_⟩
  · simp [hasync, State.isConnected, State.isUp, State.subscribe, State.establish, State.finish,
      State.setCall]
  · simp [hasync, State.subscribe, State.establish, State.finish, State.setCall]
  · simp [hasync, State.subscribe, State.establish, State.finish, State.setCall]
  · simp [hasync, State.subscribe, State.establish, State.finish, State.setCall,
      Function.update_of_ne hc']

lemma State.asyncDisconnect_of_client (hk : s.client = some k) :
    s.asyncDisconnect c =
      { s with onFrame := none, onDisconnect := none, client := none }.setCall c (.closing k) := by
  simp [asyncDisconnect, hk]

/-- The disconnected callback of a link that has gone down. -/
lemma State.callback_of_down {requested : Bool} {l : Link} (hl : s.links[k]? = some l)
    (hd : l.status = .down requested true) :
    s.step (.callback k) = some ((s.handleDisconnect k).setStatus k (.down requested false)) := by
  simp [State.step, State.callback, hl, hd]

lemma State.getElem?_setStatus {l : Link} (hl : s.links[k]? = some l) (status : Status) :
    (s.setStatus k status).links[k]? = some { l with status := status } := by
  simp [setStatus, hl]

/-- A disconnect, in whatever state the link is. -/
lemma exists_disconnect {κ δ : Type} (hc : s.calls c = none) :
    ∃ t, Run machine Silent s (BleLink.events s c (.disconnect : LinkOp κ δ)) t ∧
      t.isConnected = false ∧ ∀ c' ≠ c, t.calls c' = s.calls c' := by
  have h₁ : s.step (.disconnect c) = some (s.asyncDisconnect c) := by simp [State.step, hc]
  cases hk : s.client with
  | none =>
    refine ⟨s.asyncDisconnect c, ?_, by simp [State.isConnected], fun c' hc' => ?_⟩
    · simp only [BleLink.events, hk]
      exact .single (by simp [Silent]) h₁
    · simp [State.asyncDisconnect, hk, State.finish, State.setCall_of_ne _ _ hc']
  | some k =>
    have heq := State.asyncDisconnect_of_client (c := c) hk
    have hreturned : ∀ u : State, u.calls c = some (.closing k) →
        u.step (.returned c) = some (u.finish c (.ok ())) := by
      intro u hu
      simp [State.step, State.resume, hu]
    by_cases hu : s.isUp k = true
    · obtain ⟨l, hl, -⟩ := State.isUp_iff.1 hu
      have hl' : (s.asyncDisconnect c).links[k]? = some l := by simpa using hl
      have hclosing : (s.asyncDisconnect c).calls c = some (.closing k) := by
        simp [heq, State.setCall]
      have hup : (s.asyncDisconnect c).isUp k = true := by simpa [State.isUp] using hu
      have h₂ : (s.asyncDisconnect c).step (.shut c) =
          some ((s.asyncDisconnect c).setStatus k (.down true true)) := by
        simp [State.step, State.shutLink, hclosing, hup]
      have h₃ := State.callback_of_down
        (State.getElem?_setStatus hl' (.down true true)) rfl
      have hsilent : ((s.asyncDisconnect c).setStatus k (.down true true)).onDisconnect = none :=
        s.asyncDisconnect_onDisconnect c
      have hquiet : ((s.asyncDisconnect c).setStatus k (.down true true)).handleDisconnect k =
          (s.asyncDisconnect c).setStatus k (.down true true) := by
        simp [State.handleDisconnect, hsilent]
      rw [hquiet] at h₃
      have hrun : Run machine Silent s [.disconnect c, .shut c, .callback k, .returned c] _ :=
        .cons (by simp [Silent]) h₁ (.cons (by simp [Silent]) h₂ (.cons (fun _ => hsilent) h₃
          (.single (by simp [Silent]) (hreturned _ hclosing))))
      refine ⟨_, by simpa only [BleLink.events, hk, hu, if_true] using hrun, ?_, fun c' hc' => ?_⟩
      · simp [State.isConnected, State.finish, State.setCall, State.setStatus]
      · rw [State.finish, State.setCall_of_ne _ _ hc']
        change (s.asyncDisconnect c).calls c' = s.calls c'
        rw [heq, State.setCall_of_ne _ _ hc']
    · have hclosing : (s.asyncDisconnect c).calls c = some (.closing k) := by
        simp [heq, State.setCall]
      have hrun : Run machine Silent s [.disconnect c, .returned c] _ :=
        .cons (by simp [Silent]) h₁ (.single (by simp [Silent]) (hreturned _ hclosing))
      refine ⟨_, by simpa [BleLink.events, hk, hu] using hrun, ?_, fun c' hc' => ?_⟩
      · simp [State.isConnected, State.finish, State.setCall]
      · rw [State.finish, State.setCall_of_ne _ _ hc', heq, State.setCall_of_ne _ _ hc']

/-- A drop of a link that is up. -/
lemma exists_drop (hk : s.client = some k) (hu : s.isUp k = true) :
    ∃ t u, s.step (.drop k) = some t ∧ t.step (.callback k) = some u ∧
      t.onDisconnect = s.onDisconnect ∧ u.isConnected = false ∧ u.calls = s.calls := by
  obtain ⟨l, hl, -⟩ := State.isUp_iff.1 hu
  have h₁ : s.step (.drop k) = some (s.setStatus k (.down false true)) := by
    simp [State.step, hu]
  have h₂ := State.callback_of_down (State.getElem?_setStatus hl (.down false true)) rfl
  obtain ⟨reports, heq⟩ := (s.setStatus k (.down false true)).handleDisconnect_eq k
  refine ⟨_, _, h₁, h₂, rfl, ?_, ?_⟩
  · have hclient : ((s.setStatus k (.down false true)).handleDisconnect k).client = some k := by
      rw [heq]
      exact hk
    rw [State.isConnected]
    change (((s.setStatus k (.down false true)).handleDisconnect k).client).any _ = false
    rw [hclient]
    exact State.isUp_setStatus_down _ _ _ _
  · rw [heq]
    rfl

end Ble

/-! ### Bluetooth follows the contract -/

section

variable {s : BleLink κ δ} {m : Contract κ δ}

lemma BleLink.tick_of_silent {e : Ble.Event} {t : Ble.State} (h : s.transport.step e = some t)
    (he : Ble.Silent s.transport e) : s.tick e = some { s with transport := t } := by
  cases e with
  | callback k =>
    simp only [tick, h, he ⟨k, rfl⟩]
    rfl
  | connect | disconnect | returned | raised | shut | drop | notify =>
    simp only [tick, h]
    rfl

/-- Events that call no callback change the transport only. -/
lemma BleLink.ticks_of_run {es : List Ble.Event} {t : Ble.State}
    (h : Run Ble.machine Ble.Silent s.transport es t) :
    es.foldlM tick s = some { s with transport := t } := by
  induction es generalizing s with
  | nil =>
    cases h
    rfl
  | cons e es ih =>
    cases h with
    | @cons _ u _ _ _ hP hst hrun =>
      rw [List.foldlM_cons, tick_of_silent hst hP, Option.bind_eq_bind, Option.bind_some]
      exact ih (s := { s with transport := u }) hrun

@[simp] lemma BleLink.begin_transport (s : BleLink κ δ) (op : LinkOp κ δ) :
    (s.begin op).transport = s.transport := by
  cases op <;> rfl

@[simp] lemma BleLink.begin_drops (s : BleLink κ δ) (op : LinkOp κ δ) :
    (s.begin op).drops = s.drops := by
  cases op <;> rfl

@[simp] lemma BleLink.begin_next (s : BleLink κ δ) (op : LinkOp κ δ) :
    (s.begin op).next = s.next + 1 := by
  cases op <;> rfl

/-- The callbacks of earlier connects stay as they are. -/
lemma BleLink.begin_callbacks (s : BleLink κ δ) (op : LinkOp κ δ) {c : ℕ} (hc : c < s.next) :
    (s.begin op).callbacks c = s.callbacks c := by
  cases op with
  | connect => exact Function.update_of_ne hc.ne _ _
  | disconnect | drop => rfl

/-- The stored callbacks are those of the connect that opened the link. -/
structure BleLink.Follows (s : BleLink κ δ) (m : Contract κ δ) : Prop where
  fresh : ∀ c, s.next ≤ c → s.transport.calls c = none
  connected : s.transport.isConnected = m.link.isSome
  callbacks : ∀ p, m.link = some p → ∃ c < s.next, s.transport.onFrame = some c ∧
    s.transport.onDisconnect = some c ∧ s.callbacks c = some p
  drops : s.drops = m.drops

lemma BleLink.Follows.seen_eq (h : s.Follows m) : s.seen = m.seen := by
  unfold BleLink.seen Contract.seen
  cases hl : m.link with
  | none => simp [h.connected, hl, h.drops]
  | some p =>
    obtain ⟨c, -, hf, hd, hc⟩ := h.callbacks p hl
    simp [h.connected, hl, h.drops, hf, hd, hc]

private lemma follows_of_silent {op : LinkOp κ δ} {t : Ble.State} (h : s.Follows m)
    (hrun : Run Ble.machine Ble.Silent s.transport (BleLink.events s.transport s.next op) t)
    (hcalls : ∀ c ≠ s.next, t.calls c = s.transport.calls c)
    (hu : t.isConnected = (m.step op).link.isSome)
    (hp : ∀ p, (m.step op).link = some p → ∃ c < s.next + 1, t.onFrame = some c ∧
      t.onDisconnect = some c ∧ (s.begin op).callbacks c = some p)
    (hd : (m.step op).drops = m.drops) :
    ∃ s', s.step op = some s' ∧ s'.Follows (m.step op) := by
  rw [← s.begin_transport op] at hrun
  refine ⟨_, s.begin_transport op ▸ BleLink.ticks_of_run hrun, fun c hc => ?_, hu, ?_, ?_⟩
  · have hc : s.next + 1 ≤ c := by simpa using hc
    exact (hcalls c (by omega)).trans (h.fresh c (by omega))
  · simpa using hp
  · simpa [hd] using h.drops

private lemma connect_follows (h : s.Follows m) (k : κ) (d : δ) :
    ∃ s', s.step (.connect k d) = some s' ∧ s'.Follows (m.step (.connect k d)) := by
  have hc := h.fresh s.next le_rfl
  cases hl : m.link with
  | some p =>
    have hm : m.step (.connect k d) = m := by simp [Contract.step, hl]
    have hu : s.transport.isConnected = true := by rw [h.connected, hl]; rfl
    have hst : s.transport.step (.connect s.next) = some (s.transport.finish s.next (.ok ())) := by
      simp [Ble.State.step, hc, Ble.State.asyncConnect, hu]
    refine follows_of_silent h (t := s.transport.finish s.next (.ok ())) ?_ ?_ ?_ ?_ (by rw [hm])
    · simp only [BleLink.events, hu, if_true]
      exact .single (by simp [Ble.Silent]) hst
    · exact fun c hc => Ble.State.setCall_of_ne _ _ hc
    · rw [hm]
      exact h.connected
    · intro q hq
      rw [hm] at hq
      obtain ⟨c, hcn, hf, hd, hcb⟩ := h.callbacks q hq
      exact ⟨c, by omega, hf, hd, (s.begin_callbacks _ hcn).trans hcb⟩
  | none =>
    have hu : s.transport.isConnected = false := by rw [h.connected, hl]; rfl
    have hm : m.step (.connect k d) = { m with link := some (k, d) } := by
      simp [Contract.step, hl]
    obtain ⟨t, hrun, hup, hf, hd, hcalls⟩ := Ble.exists_connect hc hu
    refine follows_of_silent h (t := t) ?_ hcalls (by simp [hup, hm]) ?_ (by rw [hm])
    · simpa [BleLink.events, hu] using hrun
    · intro q hq
      rw [hm] at hq
      cases hq
      exact ⟨s.next, by omega, hf, hd, Function.update_self _ _ _⟩

private lemma disconnect_follows (h : s.Follows m) :
    ∃ s', s.step .disconnect = some s' ∧ s'.Follows (m.step .disconnect) := by
  obtain ⟨t, hrun, hu, hcalls⟩ := Ble.exists_disconnect (h.fresh s.next le_rfl)
  exact follows_of_silent h hrun hcalls hu (fun _ h => by cases h) rfl

private lemma drop_follows (h : s.Follows m) :
    ∃ s', s.step .drop = some s' ∧ s'.Follows (m.step .drop) := by
  cases hl : m.link with
  | none =>
    have hm : m.step .drop = m := by simp [Contract.step, hl]
    have hnone : BleLink.events s.transport s.next (.drop : LinkOp κ δ) = [] := by
      have hu : s.transport.isConnected = false := by rw [h.connected, hl]; rfl
      unfold BleLink.events
      cases hk : s.transport.client with
      | none => rfl
      | some k =>
        have hdown : s.transport.isUp k = false := by simpa [Ble.State.isConnected, hk] using hu
        simp [hdown]
    refine follows_of_silent h (t := s.transport) ?_ (fun _ _ => rfl)
      (by rw [hm]; exact h.connected) ?_ (by rw [hm])
    · rw [hnone]
      exact .nil _
    · intro q hq
      rw [hm, hl] at hq
      cases hq
  | some p =>
    have hm : m.step .drop = ⟨none, p.2 :: m.drops⟩ := by simp [Contract.step, hl]
    have hu : s.transport.isConnected = true := by rw [h.connected, hl]; rfl
    obtain ⟨k, hk, hup⟩ := (Option.any_eq_true _ _).1 hu
    obtain ⟨t, u, h₁, h₂, hd, hdown, hcalls⟩ := Ble.exists_drop hk hup
    obtain ⟨c, -, -, hstored, hcb⟩ := h.callbacks p hl
    have hstep : s.step .drop =
        some { s.begin .drop with transport := u, drops := p.2 :: s.drops } := by
      have hevents : BleLink.events s.transport s.next (.drop : LinkOp κ δ) =
          [.drop k, .callback k] := by simp [BleLink.events, hk, hup]
      have htick : (s.begin .drop).tick (.drop k) = some { s.begin .drop with transport := t } :=
        BleLink.tick_of_silent h₁ (by simp [Ble.Silent])
      have hcall : ({ s.begin .drop with transport := t } : BleLink κ δ).tick (.callback k) =
          some { s.begin .drop with transport := u, drops := p.2 :: s.drops } := by
        have hreached : (s.begin .drop).callbacks c = some p := hcb
        simp [BleLink.tick, h₂, hd, hstored, hreached]
      rw [BleLink.step, hevents, List.foldlM_cons, htick, Option.bind_eq_bind, Option.bind_some,
        List.foldlM_cons, hcall, Option.bind_eq_bind, Option.bind_some, List.foldlM_nil]
      rfl
    refine ⟨_, hstep, fun c' hc' => ?_, ?_, ?_, ?_⟩
    · rw [hcalls]
      exact h.fresh c' (by simp at hc'; omega)
    · rw [hm]
      exact hdown
    · intro q hq
      rw [hm] at hq
      cases hq
    · rw [hm, h.drops]

end

/-- Bluetooth follows the contract in every step. -/
theorem ble_follows (ops : List (LinkOp κ δ)) :
    ∃ s, BleLink.run ops = some s ∧ s.seen = (Contract.run ops).seen := by
  have hall : ∀ (s : BleLink κ δ) m, s.Follows m →
      ∃ s', ops.foldlM BleLink.step s = some s' ∧ s'.Follows (ops.foldl Contract.step m) := by
    induction ops with
    | nil => exact fun s m h => ⟨s, rfl, h⟩
    | cons op ops ih =>
      intro s m h
      have hstep : ∃ s', s.step op = some s' ∧ s'.Follows (m.step op) := by
        cases op with
        | connect k d => exact connect_follows h k d
        | disconnect => exact disconnect_follows h
        | drop => exact drop_follows h
      obtain ⟨s', hs', h'⟩ := hstep
      obtain ⟨s'', hs'', h''⟩ := ih s' _ h'
      exact ⟨s'', by rw [List.foldlM_cons, hs']; exact hs'', h''⟩
  have hinit : (⟨.init, 0, fun _ => none, []⟩ : BleLink κ δ).Follows ⟨none, []⟩ :=
    ⟨fun _ _ => rfl, rfl, (fun _ h => by cases h), rfl⟩
  obtain ⟨s, hs, h⟩ := hall _ _ hinit
  exact ⟨s, hs, h.seen_eq⟩

/-! ### Agreement -/

/-- After every step, what can be seen of both transports is the same, and is what the contract
says. -/
def TransportsAgree (ops : List (LinkOp κ δ)) : Prop :=
  ∀ pre, pre <+: ops → ∃ s, BleLink.run pre = some s ∧ s.seen = (OcppLink.run pre).seen ∧
    s.seen = (Contract.run pre).seen

/-- Every connect of a connected transport passes the callbacks that are in place already. -/
def ConnectsKeepCallbacks (ops : List (LinkOp κ δ)) : Prop :=
  ∀ pre k d, pre ++ [.connect k d] <+: ops → ∀ p, (Contract.run pre).link = some p → p = (k, d)

private lemma ocpp_run_concat (pre : List (LinkOp κ δ)) (op : LinkOp κ δ) :
    OcppLink.run (pre ++ [op]) = (OcppLink.run pre).step op := by
  simp [OcppLink.run]

private lemma contract_run_concat (pre : List (LinkOp κ δ)) (op : LinkOp κ δ) :
    Contract.run (pre ++ [op]) = (Contract.run pre).step op := by
  simp [Contract.run]

private lemma ocpp_seen_step {s : OcppLink κ δ} {m : Contract κ δ} (h : s.seen = m.seen)
    {op : LinkOp κ δ} (hop : ∀ k d, op = .connect k d → ∀ p, m.link = some p → p = (k, d)) :
    (s.step op).seen = (m.step op).seen := by
  obtain ⟨⟨onFrame, onDisconnect⟩, drops⟩ := s
  obtain ⟨link, drops'⟩ := m
  simp only [OcppLink.seen, Contract.seen, Seen.mk.injEq] at h
  obtain ⟨-, rfl, rfl, rfl⟩ := h
  cases op with
  | connect k d =>
    cases link with
    | none => rfl
    | some p =>
      obtain rfl := hop k d rfl p rfl
      rfl
  | disconnect => rfl
  | drop => cases link <;> rfl

/-- The two transports agree in exactly the sequences in which every connect of a connected
transport passes the callbacks that are in place already. -/
theorem transports_agree (ops : List (LinkOp κ δ)) :
    TransportsAgree ops ↔ ConnectsKeepCallbacks ops := by
  constructor
  · intro h pre k d hpre p hp
    obtain ⟨s, -, hocpp, hcontract⟩ := h _ hpre
    have hseen := hocpp.symm.trans hcontract
    rw [ocpp_run_concat, contract_run_concat] at hseen
    simp only [OcppLink.step, OcppLink.seen, Contract.step, hp, Contract.seen, Seen.mk.injEq,
      Ocpp.Transport.asyncConnect, Option.map_some, Option.some.injEq] at hseen
    obtain ⟨-, hk, hd, -⟩ := hseen
    exact Prod.ext hk.symm hd.symm
  · intro h pre hpre
    have hseen : (OcppLink.run pre).seen = (Contract.run pre).seen := by
      induction pre using List.reverseRecOn with
      | nil => rfl
      | append_singleton pre op ih =>
        rw [ocpp_run_concat, contract_run_concat]
        refine ocpp_seen_step (ih ((List.prefix_append _ _).trans hpre)) ?_
        rintro k d rfl p hp
        exact h pre k d hpre p hp
    obtain ⟨s, hs, hble⟩ := ble_follows pre
    exact ⟨s, hs, hble.trans hseen.symm, hble⟩

/-- The second connect replaces the callbacks of the tunnel. -/
theorem second_connect_disagrees :
    ¬ TransportsAgree [LinkOp.connect 0 0, LinkOp.connect 1 1] := by
  intro h
  obtain ⟨s, -, hocpp, hcontract⟩ := h _ List.prefix_rfl
  exact absurd (hocpp.symm.trans hcontract) (by decide)

end SpinevBle
