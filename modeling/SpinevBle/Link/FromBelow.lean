import SpinevBle.Charger.Failures
import SpinevBle.Link.Tunnel

/-!
# Cancellation from below

A `CancelledError` that `data_transfer` raises is no `Exception`, so it passes the handlers of the
transport and of the client. The client cannot tell it from one of its own.
-/

namespace SpinevBle

open Asyncio Interaction Transition

variable {β : Type}

section

variable {timeoutHint : Option String} {password : Option ℤ} {s t : Tunnel β} {e : TunnelEvent β}

/-! ### Sends that the central system cancels -/

/-- `data_transfer` does not end with `CancelledError` while the client has not cancelled the send
that awaits it. -/
def TransfersEnd (s : Tunnel β) : TunnelEvent β → Prop
  | .transferEnd i e =>
    e = .raised .cancelledError → (s.client.sendTasks i).map SendTask.state ≠ some .running
  | _ => True

instance (s : Tunnel β) (e : TunnelEvent β) : Decidable (TransfersEnd s e) :=
  match e with
  | .transferEnd _ e => inferInstanceAs (Decidable (e = .raised .cancelledError → _))
  | .call _ | .connect | .disconnect | .notifyDisconnected | .sendStart _ | .sendUnwind _ =>
    .isTrue trivial

/-- The event is not the cancellation of call `c`. -/
def TunnelEvent.sparesCall (e : TunnelEvent β) (c : ℕ) : Prop :=
  match e with
  | .call e => e.sparesCall c
  | _ => True

instance (e : TunnelEvent β) (c : ℕ) : Decidable (e.sparesCall c) :=
  match e with
  | .call e => inferInstanceAs (Decidable (e.sparesCall c))
  | .connect | .disconnect | .notifyDisconnected | .sendStart _ | .sendUnwind _ | .transferEnd .. =>
    .isTrue trivial

lemma sendsEnd_raisedOutcome (u : State β) {i : ℕ} {err : Exc} (h : err ≠ .cancelledError) :
    SendsEnd u (.sendEnd i (raisedOutcome err)) := by
  cases err with
  | cancelledError => exact absurd rfl h
  | spinEv | builtin => simp [SendsEnd, Event.cancelledSend, raisedOutcome]

/-- The client cancels no call but those that its callers cancel, and its sends end as they
should. -/
lemma sendsEnd_of_tunnel {c : ℕ} {es : List (Event β)} {v : State β}
    (hP : TransfersEnd s e ∧ e.sparesCall c) (h : s.clientEvents e = some es)
    (hrun : Run (machine β timeoutHint password) Always s.client es v) :
    Run (machine β timeoutHint password) (fun u e => SendsEnd u e ∧ e.sparesCall c) s.client es
      v := by
  have hall (hes : ∀ e' ∈ es, ∀ u, SendsEnd u e' ∧ e'.sparesCall c) :
      Run (machine β timeoutHint password) (fun u e => SendsEnd u e ∧ e.sparesCall c) s.client es
        v :=
    hrun.mem.mono fun u e' he' => hes e' he'.2 u
  cases Tunnel.causes_of_clientEvents h with
  | @call e he =>
    refine hall fun e' he' u => ?_
    obtain rfl := List.mem_singleton.1 he'
    refine ⟨?_, hP.2⟩
    cases e' with
    | sendEnd i o => cases he
    | _ => simp [SendsEnd, Event.cancelledSend]
  | connect | disconnect | dropped | closed | sendStart | sendUnwind | silent | handed =>
    exact hall (by simp [SendsEnd, Event.cancelledSend, Event.sparesCall])
  | @refused i err he =>
    refine hall fun e' he' u => ?_
    rcases List.mem_pair.1 he' with rfl | rfl
    · simp [SendsEnd, Event.cancelledSend, Event.sparesCall]
    · exact ⟨sendsEnd_raisedOutcome u he, by simp [Event.sparesCall]⟩
  | @failed i e err task ht hr =>
    by_cases he : err = .cancelledError
    · subst he
      cases hrun with
      | cons _ hst hrun =>
        have hspares := hP.1 (Ocpp.raised_of_reply hr)
        refine .cons ⟨?_, by simp [Event.sparesCall]⟩ hst (hrun.mem.mono ?_)
        · simpa [SendsEnd, Event.cancelledSend, raisedOutcome] using hspares
        · rintro u e' ⟨-, ⟨⟩⟩
    · refine hall fun e' he' u => ?_
      obtain rfl := List.mem_singleton.1 he'
      exact ⟨sendsEnd_raisedOutcome u he, by simp [Event.sparesCall]⟩

/-! ### Calls over the tunnel -/

/-- No request and no write of call `c` has raised anything but errors of the package. -/
def State.TidyBlocks (s : State β) (c : ℕ) : Prop :=
  ∀ b ∈ s.blocks, b.call = c → (∀ count, b.job ≠ .history count) → Tidy b.outcome

lemma State.TidyBlocks.step {u v : State β} {c : ℕ} {e : Event β} (h : u.TidyBlocks c)
    (hu : u.Consistent) (hcalm : u.Calm c) (hst : Step u e v) : v.TidyBlocks c := by
  rcases hst.blocks_cases hu with hb | ⟨b, hb, -⟩
  · intro b' hb'
    exact h b' (hb ▸ hb')
  · intro b' hb' hc hj
    rw [hb, List.mem_cons] at hb'
    rcases hb' with rfl | hb'
    · intro x hx
      have ha : Answered u v c e (.locked b'.job) (.error x) := .block (by rw [hb, ← hx, ← hc])
      rcases error_of_unasked hst hu hcalm.attributes hcalm.unasked ha with hspin | ⟨count, hcount, -⟩
      · exact hspin
      · exact absurd hcount (hj count)
    · exact h b' hb' hc hj

end

/-- Over the tunnel, a call that its caller does not cancel never sees a `CancelledError`, as long
as no `data_transfer` ends with one on its own. -/
theorem not_cancelled_from_below {password : Option ℤ} {c : ℕ} {es : List (TunnelEvent β)}
    {s : Tunnel β}
    (h : TunnelRun password (fun s e => TransfersEnd s e ∧ e.sparesCall c) es s) :
    s.client.TidyBlocks c ∧
    ∀ (m : Method) (f : m.Result → β) n r cn, m.Fits →
      .call (.spawn c (f <$> m.program).run n) ∈ es →
      s.client.calls c = some ⟨.finished r, cn⟩ → Tidy r := by
  obtain ⟨es', hrun, hmem⟩ :
      ∃ es', ClientRun (some Ocpp.timeoutHint) password
          (fun s e => SendsEnd s e ∧ e.sparesCall c) es' s.client ∧
        ∀ e, .call e ∈ es → e.call.isSome = true → e ∈ es' :=
    client_of_tunnel (fun _ _ _ _ hP hes hrun => sendsEnd_of_tunnel hP hes hrun) h
  constructor
  · have hstep : ∀ (u : State β) e v, u.Consistent → u.Calm c ∧ u.TidyBlocks c →
        (SendsEnd u e ∧ e.sparesCall c) → Step u e v → v.Calm c ∧ v.TidyBlocks c :=
      fun u e v hu hj hP hst => ⟨hj.1.step hu hP hst, hj.2.step hu hj.1 hst⟩
    have hinit : (State.init β (some Ocpp.timeoutHint) password).TidyBlocks c := fun b hb => by
      simp [State.init] at hb
    exact (invariant_of_run hstep hrun (.init _ _) ⟨.init _ _, hinit⟩).2
  · intro m f n r cn hm hspawn hc
    exact tidy_of_run hm hrun (hmem _ hspawn rfl) hc

/-- The state is read over the tunnel, and `data_transfer` ends with `e`. -/
def readOverTunnel (e : Ocpp.TransferEnd) : List (TunnelEvent ℕ) :=
  [.connect, .call (.spawn 0 (id <$> asyncGetStateValue).run 0), .call (.run 0), .call (.run 0),
    .call (.run 0), .sendStart 0, .transferEnd 0 e, .call (.run 0), .call (.run 0)]

/-- The central system fails, and the call reports that. -/
theorem not_cancelled_from_below_failed :
    ∃ s, TunnelRun none (fun s e => TransfersEnd s e ∧ e.sparesCall 0)
        (readOverTunnel (.raised (.builtin .other "websocket closed"))) s ∧
      ∃ r cn, s.client.calls 0 = some ⟨.finished r, cn⟩ ∧ Tidy r := by
  obtain ⟨s, h, r, cn, hc⟩ : ∃ s, TunnelRun none (fun s e => TransfersEnd s e ∧ e.sparesCall 0)
        (readOverTunnel (.raised (.builtin .other "websocket closed"))) s ∧
      ∃ r cn, s.client.calls 0 = some ⟨.finished r, cn⟩ :=
    ⟨_, Run.of_exec rfl, _, _, rfl⟩
  exact ⟨s, h, r, cn, hc,
    (not_cancelled_from_below h).2 .getStateValue id 0 r cn trivial (.tail _ (.head _)) hc⟩

/-- The central system cancels the call of `data_transfer`, and so the client's call. -/
theorem cancelled_from_below :
    ∃ s, TunnelRun none (fun _ e => e.sparesCall 0)
        (readOverTunnel (.raised .cancelledError)) s ∧
      ∃ cn, s.client.calls 0 = some ⟨.finished (.error .cancelledError), cn⟩ :=
  ⟨_, Run.of_exec rfl, _, rfl⟩

end SpinevBle
