import SpinevBle.Link.Station
import SpinevBle.Link.Transfers

/-!
# The charger behind the tunnel

`data_transfer` carries a frame to the charger and returns with the answer. If the answer is that of
the charger, and none is returned of a send that has been cancelled, a client over the tunnel and its
charger are a station. So whatever holds of every station holds over the tunnel.
-/

namespace SpinevBle

open Asyncio Interaction Transition

variable {σ β : Type}

/-! ### The system -/

/-- A client over the tunnel and its charger. -/
structure TunnelStation (σ β : Type) where
  tunnel : Tunnel β
  charger : σ
  heard : ℕ → Option (Option Bytes)

/-- `heard` is when the `DataTransfer` of a send reaches the charger. -/
inductive TunnelStationEvent (β : Type)
  | tunnel (e : TunnelEvent β)
  | heard (i : ℕ)

namespace TunnelStation

def init (β : Type) (password : Option ℤ) (s : σ) : TunnelStation σ β :=
  ⟨.init β password, s, fun _ => none⟩

/-- The client and the charger, without what is between them. -/
def toStation (s : TunnelStation σ β) : Station σ β := ⟨s.tunnel.client, s.charger, s.heard⟩

def step (charger : Firmware σ) (s : TunnelStation σ β) :
    TunnelStationEvent β → Option (TunnelStation σ β)
  | .tunnel e => do
    let tunnel ← s.tunnel.step e
    return { s with tunnel }
  | .heard i => do
    let t ← s.toStation.step charger (.heard i)
    return { s with charger := t.charger, heard := t.heard }

end TunnelStation

def tunnelStation (charger : Firmware σ) (password : Option ℤ) (s : σ) :
    System (TunnelStation σ β) (TunnelStationEvent β) :=
  ⟨.init β password s, TunnelStation.step charger⟩

/-- The runs of a new client over a new tunnel with a charger in state `s₀`. -/
abbrev TunnelStationRun (charger : Firmware σ) (password : Option ℤ) (s₀ : σ)
    (P : TunnelStation σ β → TunnelStationEvent β → Prop) (es : List (TunnelStationEvent β))
    (s : TunnelStation σ β) : Prop :=
  Run (tunnelStation charger password s₀) P (.init β password s₀) es s

/-- What a `data_transfer` comes to for its send is what the charger has answered, unless it is an
error, and it does not return once the send has been cancelled. -/
def TransfersAnswered (s : TunnelStation σ β) : TunnelStationEvent β → Prop
  | .tunnel (.transferEnd i r) => TransfersStop s.tunnel (.transferEnd i r) ∧
    ∀ task ∈ s.tunnel.client.sendTasks i, ∀ answer ∈ (Ocpp.reply task.frame.register r).toOption,
      s.heard i = some answer
  | _ => True

instance (s : TunnelStation σ β) (e : TunnelStationEvent β) : Decidable (TransfersAnswered s e) :=
  match e with
  | .tunnel (.transferEnd _ _) => inferInstanceAs (Decidable (_ ∧ ∀ _ ∈ _, ∀ _ ∈ _, _))
  | .tunnel (.call _) | .tunnel .connect | .tunnel .disconnect | .tunnel .notifyDisconnected
  | .tunnel (.sendStart _) | .tunnel (.sendUnwind _) | .heard _ => .isTrue trivial

/-! ### Steps -/

section

variable {charger : Firmware σ} {timeoutHint : Option String} {password : Option ℤ} {s₀ : σ}
  {s t : TunnelStation σ β} {i : ℕ} {r : Ocpp.TransferEnd}

/-- How a send ends with its `data_transfer`. -/
lemma Tunnel.clientEvents_transferEnd {s : Tunnel β} {es : List (Event β)}
    (h : s.clientEvents (.transferEnd i r) = some es) :
    ∃ task, s.client.sendTasks i = some task ∧
      ((∃ err, es = [.sendEnd i (raisedOutcome err)]) ∨
        ∃ answer, Ocpp.reply task.frame.register r = .ok answer ∧
          (es = [.sendEnd i .returned] ∨
            ∃ payload, answer = some payload ∧ es = [.notify payload, .sendEnd i .returned])) := by
  simp only [clientEvents, Option.bind_eq_bind, Option.bind_eq_some_iff] at h
  obtain ⟨task, ht, h⟩ := h
  refine ⟨task, ht, ?_⟩
  split at h
  · cases h
    exact .inl ⟨_, rfl⟩
  · next hr =>
    cases h
    exact .inr ⟨_, hr, .inl rfl⟩
  · next hr =>
    split at h <;> cases h
    · exact .inr ⟨_, hr, .inr ⟨_, rfl, rfl⟩⟩
    · exact .inr ⟨_, hr, .inl rfl⟩

/-- An outcome that no exception ends with. -/
lemma raisedOutcome_ne_returned (err : Exc) : raisedOutcome err ≠ .returned := by
  cases err <;> rintro ⟨⟩

/-- What the client goes through is relayed, unless it is a reply or the return of a send. -/
lemma relayed_of_ne {s : Station σ β} {e : Event β} (hn : ∀ payload, e ≠ .notify payload)
    (he : ∀ i, e ≠ .sendEnd i .returned) : Relayed s (.client e) := by
  cases e with
  | notify payload => exact absurd rfl (hn payload)
  | sendEnd i o =>
    cases o with
    | returned => exact absurd rfl (he i)
    | raised | cancelled => trivial
  | _ => trivial

/-- A reply reaches the request whose frame the charger has answered. -/
lemma relayed_of_handed {task : SendTask} {payload : Bytes}
    (hs : s.tunnel.client.Consistent ∧ s.tunnel.client.SendsOwned)
    (hP : TransfersAnswered s (.tunnel (.transferEnd i r)))
    (ht : s.tunnel.client.sendTasks i = some task)
    (hr : Ocpp.reply task.frame.register r = .ok (some payload)) :
    Relayed s.toStation (.client (.notify payload)) := by
  intro w hw ha
  obtain ⟨c, frame, k, n, fl, hl, hid⟩ := hs.1.lookup (AList.mem_lookup_iff.2 hw)
  have hflight : fl.id = i :=
    (State.delivers_iff hl).1 (hs.2 i task ht (.inr (hP.1.running ht hr)))
  have hheard : s.heard i = some (some payload) := hP.2 task ht _ (by rw [hr]; rfl)
  rw [hid, ← hheard, ← hflight]
  rfl

/-- The client goes through its events while the charger hears nothing. -/
lemma station_of_client {u : Station σ β} {es : List (Event β)} {v : State β}
    (h : es.foldlM State.step u.client = some v)
    (hP : ∀ e ∈ es, ∀ w : State β, Relayed { u with client := w } (.client e)) :
    Run (station charger timeoutHint password s₀) Relayed u (es.map .client)
      { u with client := v } := by
  induction es generalizing u with
  | nil =>
    cases h
    exact .nil _
  | cons e es ih =>
    rw [List.foldlM_cons, Option.bind_eq_bind, Option.bind_eq_some_iff] at h
    obtain ⟨w, hst, h⟩ := h
    obtain ⟨he, hP⟩ := List.forall_mem_cons.1 hP
    have hstep : (station charger timeoutHint password s₀).step u (.client e) =
        some { u with client := w } := by
      simp only [station, Station.step, hst, Option.bind_eq_bind, Option.bind_some, Option.pure_def]
    exact .cons (he u.client) hstep (@ih { u with client := w } h hP)

/-- A payload is handed over, and then its send returns. -/
lemma station_of_handed {u : Station σ β} {payload : Bytes} {v : State β}
    (h : [.notify payload, .sendEnd i .returned].foldlM State.step u.client = some v)
    (hnotify : Relayed u (.client (.notify payload))) (hheard : (u.heard i).isSome = true) :
    Run (station charger timeoutHint password s₀) Relayed u
      [.client (.notify payload), .client (.sendEnd i .returned)] { u with client := v } := by
  rw [List.foldlM_cons, Option.bind_eq_bind, Option.bind_eq_some_iff] at h
  obtain ⟨w, hst, h⟩ := h
  have hstep : (station charger timeoutHint password s₀).step u (.client (.notify payload)) =
      some { u with client := w } := by
    simp only [station, Station.step, hst, Option.bind_eq_bind, Option.bind_some, Option.pure_def]
  have hend : Run (station charger timeoutHint password s₀) Relayed { u with client := w }
      ([Event.sendEnd i .returned].map .client) { u with client := v } :=
    station_of_client h (List.forall_mem_singleton.2 fun _ => hheard)
  exact .cons hnotify hstep hend

/-- Everything else that the tunnel makes the client go through needs no charger. -/
lemma Tunnel.Causes.relayed {s : Tunnel β} {e : TunnelEvent β} {es : List (Event β)}
    (h : s.Causes e es) (he : ∀ i r, e ≠ .transferEnd i r) {u : Station σ β} :
    ∀ e' ∈ es, Relayed u (.client e') := by
  cases h with
  | @call e hcall =>
    refine List.forall_mem_singleton.2 (relayed_of_ne ?_ ?_)
    · rintro payload rfl
      cases hcall
    · rintro i rfl
      cases hcall
  | connect | disconnect | dropped | closed | sendStart | sendUnwind =>
    simp only [List.forall_mem_cons, List.not_mem_nil, false_implies, implies_true, and_true]
    repeat' constructor
  | @refused i err =>
    refine List.forall_mem_cons.2 ⟨trivial, List.forall_mem_singleton.2 ?_⟩
    exact relayed_of_ne (by rintro _ ⟨⟩) fun _ heq =>
      raisedOutcome_ne_returned err (Event.sendEnd.inj heq).2
  | failed | silent | handed => exact absurd rfl (he _ _)

/-- A call is made for a call. -/
lemma Tunnel.Causes.spawn_mem {s : Tunnel β} {e : TunnelEvent β} {es : List (Event β)}
    (h : s.Causes e es) {c n : ℕ} {p : Program (Except Exc β)} :
    .spawn c p n ∈ es ↔ e = .call (.spawn c p n) := by
  cases h with
  | call => rw [List.mem_singleton, TunnelEvent.call.injEq, eq_comm]
  | connect | disconnect | dropped | closed | sendStart | refused | sendUnwind | failed | silent
  | handed => simp

/-- A step over the tunnel is a few steps of the station. -/
lemma station_of_step {e : TunnelStationEvent β}
    (hs : s.tunnel.client.Consistent ∧ s.tunnel.client.SendsOwned) (hP : TransfersAnswered s e)
    (hst : s.step charger e = some t) :
    ∃ es, Run (station charger timeoutHint password s₀) Relayed s.toStation es t.toStation ∧
      ∀ c p n, .client (.spawn c p n) ∈ es ↔ e = .tunnel (.call (.spawn c p n)) := by
  cases e with
  | heard i =>
    simp only [TunnelStation.step, Option.bind_eq_bind, Option.bind_eq_some_iff, Option.pure_def,
      Option.some.injEq] at hst
    obtain ⟨u, hu, rfl⟩ := hst
    have hclient : u.client = s.tunnel.client := by
      simp only [Station.step, Option.bind_eq_bind, Option.bind_eq_some_iff, Option.pure_def,
        Option.some.injEq] at hu
      obtain ⟨task, -, -, -, rfl⟩ := hu
      rfl
    refine ⟨[.heard i], .single trivial (hu.trans ?_), by simp⟩
    rw [TunnelStation.toStation, ← hclient]
  | tunnel e =>
    simp only [TunnelStation.step, Option.bind_eq_bind, Option.bind_eq_some_iff, Option.pure_def,
      Option.some.injEq] at hst
    obtain ⟨tunnel, htunnel, rfl⟩ := hst
    obtain ⟨es, client, rfl, hes, hcauses, hrun⟩ := Tunnel.causes_of_step htunnel
    refine ⟨es.map .client, ?run, fun c p n => ?spawns⟩
    case run =>
      by_cases hend : ∃ i r, e = .transferEnd i r
      · obtain ⟨i, r, rfl⟩ := hend
        obtain ⟨task, ht, ⟨err, rfl⟩ | ⟨answer, hr, hreturned⟩⟩ :=
          Tunnel.clientEvents_transferEnd hes
        · refine station_of_client hrun (List.forall_mem_singleton.2 fun w => ?_)
          exact relayed_of_ne (by rintro _ ⟨⟩) fun _ heq =>
            raisedOutcome_ne_returned err (Event.sendEnd.inj heq).2
        · have hheard : s.heard i = some answer := hP.2 task ht _ (by rw [hr]; rfl)
          have hsome : (s.heard i).isSome = true := by rw [hheard]; rfl
          rcases hreturned with rfl | ⟨payload, rfl, rfl⟩
          · exact station_of_client hrun (List.forall_mem_singleton.2 fun _ => hsome)
          · exact station_of_handed hrun (relayed_of_handed hs hP ht hr) hsome
      · exact station_of_client hrun fun e' he' w =>
          hcauses.relayed (fun i r heq => hend ⟨i, r, heq⟩) e' he'
    case spawns =>
      simp only [List.mem_map, StationEvent.client.injEq, exists_eq_right,
        TunnelStationEvent.tunnel.injEq]
      exact hcauses.spawn_mem

/-- What the tunnel keeps is kept whatever the charger does. -/
lemma TunnelStation.owned_step {e : TunnelStationEvent β}
    (hs : s.tunnel.client.Consistent ∧ s.tunnel.client.SendsOwned)
    (hst : s.step charger e = some t) :
    t.tunnel.client.Consistent ∧ t.tunnel.client.SendsOwned := by
  cases e with
  | heard i =>
    simp only [step, Option.bind_eq_bind, Option.bind_eq_some_iff, Option.pure_def,
      Option.some.injEq] at hst
    obtain ⟨u, -, rfl⟩ := hst
    exact hs
  | tunnel e =>
    simp only [step, Option.bind_eq_bind, Option.bind_eq_some_iff, Option.pure_def,
      Option.some.injEq] at hst
    obtain ⟨tunnel, htunnel, rfl⟩ := hst
    exact SpinevBle.owned_step hs htunnel

/-! ### Every run -/

lemma station_of_run {es : List (TunnelStationEvent β)}
    (hs : s.tunnel.client.Consistent ∧ s.tunnel.client.SendsOwned)
    (h : Run (tunnelStation charger password s₀) TransfersAnswered s es t) :
    ∃ es', Run (station charger timeoutHint password s₀) Relayed s.toStation es' t.toStation ∧
      ∀ c p n, .client (.spawn c p n) ∈ es' ↔ .tunnel (.call (.spawn c p n)) ∈ es := by
  induction h with
  | nil s => exact ⟨[], .nil _, by simp⟩
  | @cons s u t e es hP hst _ ih =>
    have hst : s.step charger e = some u := hst
    obtain ⟨es₁, h₁, hspawn₁⟩ := station_of_step hs hP hst
    obtain ⟨es₂, h₂, hspawn₂⟩ := ih (TunnelStation.owned_step hs hst)
    refine ⟨es₁ ++ es₂, h₁.append h₂, fun c p n => ?_⟩
    rw [List.mem_append, hspawn₁, hspawn₂, List.mem_cons, eq_comm]

/-- A client over the tunnel with its charger is a station, with the same calls, if `data_transfer`
returns what the charger has answered and not once the send has been cancelled. So the jobs of all
calls come to what they come to one after another. -/
theorem tunnel_is_station {es : List (TunnelStationEvent β)}
    (h : TunnelStationRun charger password s₀ TransfersAnswered es s) :
    (∃ es', StationRun charger (some Ocpp.timeoutHint) password s₀ Relayed es' s.toStation ∧
      ∀ c p n, .client (.spawn c p n) ∈ es' ↔ .tunnel (.call (.spawn c p n)) ∈ es) ∧
    ∃ H t frames, H.map Stage.op = s.tunnel.client.blocks ∧ Serial charger.Serves s₀ H t ∧
      s.charger = charger.after t frames ∧ (s.tunnel.client.lock = none → frames = []) ∧
      ∀ hd, s.tunnel.client.lock = some hd → frames <+: hd.job.frames := by
  obtain ⟨es', hrun, hspawn⟩ := station_of_run ⟨.init _ _, .init _ _⟩ h
  have hrun : StationRun charger (some Ocpp.timeoutHint) password s₀ Relayed es' s.toStation := hrun
  obtain ⟨H, t, hH, ht, hm⟩ := (Station.inv_of_run hrun).served
  obtain ⟨frames, hframes⟩ := hm.exists_frames
  exact ⟨⟨es', hrun, hspawn⟩, H, t, frames, hH, ht, hframes⟩

end

/-- The state is asked for over the tunnel, and the charger hears it. -/
def askCharger : List (TunnelStationEvent ℕ) :=
  askOverTunnel.map .tunnel ++
    [.heard 0, .tunnel (.transferEnd 0 idleTransfer), .tunnel (.call (.run 0)),
      .tunnel (.call (.run 0))]

theorem tunnel_is_station_read :
    ∃ s : TunnelStation ℕ ℕ, TunnelStationRun countingCharger none 0 TransfersAnswered askCharger s ∧
      (∃ cn, s.tunnel.client.calls 0 = some ⟨.finished (.ok 0), cn⟩) ∧ s.charger = 1 ∧
      ∃ es', StationRun countingCharger (some Ocpp.timeoutHint) none 0 Relayed es' s.toStation := by
  have h : TunnelStationRun countingCharger none 0 TransfersAnswered askCharger _ := Run.of_exec rfl
  obtain ⟨⟨es', hes', -⟩, -⟩ := tunnel_is_station h
  exact ⟨_, h, ⟨_, rfl⟩, rfl, es', hes'⟩

end SpinevBle
