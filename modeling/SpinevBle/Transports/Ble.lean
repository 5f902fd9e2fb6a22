import Mathlib.Logic.Function.Basic
import SpinevBle.Exceptions
import SpinevBle.Lib.Transition

/-!
# The Bluetooth transport and its links

The state of one `BleTransport`, of the links that `establish_connection` has returned to it and of
the calls of `async_connect` and `async_disconnect` made on it. A call runs until it awaits
something; what it awaits then returns or raises, and a cancellation raises `CancelledError` there.
The callbacks that a connect is given go by the number of that connect.
-/

namespace SpinevBle.Ble

open Transition

/-! ### State -/

/-- A link is up, or it is down, because the transport asked for that (`requested`) or on its own.
Its disconnected callback is `due` until it has come. -/
inductive Status
  | up
  | down (requested due : Bool)
  deriving DecidableEq

/-- A client that `establish_connection` has returned to the connect `opener`. Whether it has been
the transport's own client is a record that no step reads. -/
structure Link where
  opener : ℕ
  status : Status
  hasBeenCurrent : Bool
  deriving DecidableEq

/-- What a call awaits: in `async_connect` the link, its subscription or, after a subscription that
raised `err`, the end of `_async_close`, and in `async_disconnect` the end of `_async_close`. -/
inductive Phase
  | establishing
  | subscribing (k : ℕ)
  | handingBack (k : ℕ) (err : Exc)
  | closing (k : ℕ)
  | finished (r : Except Exc Unit)

/-- The link that a call has in hand. -/
def Phase.link : Phase → Option ℕ
  | .subscribing k | .handingBack k _ | .closing k => some k
  | _ => none

/-- `client`, `onFrame` and `onDisconnect` are the fields of the transport. `reports` are the links
whose end led to a call of `on_disconnect`, newest first, and `frames` the payloads that were handed
to an `on_frame`. -/
structure State where
  client : Option ℕ
  onFrame : Option ℕ
  onDisconnect : Option ℕ
  calls : ℕ → Option Phase
  links : List Link
  reports : List ℕ
  frames : List (ℕ × Bytes)

def State.init : State := ⟨none, none, none, fun _ => none, [], [], []⟩

/-- What can happen next. `returned` and `raised` are the two ways in which what call `c` awaits can
end. `shut` is the end of a link that a call has asked for, `drop` the end of a link on its own, and
`callback` the disconnected callback of a link. -/
inductive Event
  | connect (c : ℕ)
  | disconnect (c : ℕ)
  | returned (c : ℕ)
  | raised (c : ℕ) (err : Exc)
  | shut (c : ℕ)
  | drop (k : ℕ)
  | callback (k : ℕ)
  | notify (k : ℕ) (payload : Bytes)

namespace State

def isUp (s : State) (k : ℕ) : Bool := (s.links[k]?).any fun l => l.status = .up

/-- `is_connected`. -/
def isConnected (s : State) : Bool := s.client.any s.isUp

def setCall (s : State) (c : ℕ) (phase : Phase) : State :=
  { s with calls := Function.update s.calls c (some phase) }

def finish (s : State) (c : ℕ) (r : Except Exc Unit) : State := s.setCall c (.finished r)

def setStatus (s : State) (k : ℕ) (status : Status) : State :=
  { s with links := s.links.modify k fun l => { l with status := status } }

/-! ### Calls -/

def couldNotConnect (err : Exc) : Exc :=
  .spinEv .connection s!"could not connect: {err.message}"

/-- What `except Exception` makes of an exception: `CancelledError` passes it. -/
def wrapped (err : Exc) : Exc :=
  match err with
  | .cancelledError => .cancelledError
  | err => couldNotConnect err

/-- `async_connect`, up to its first await. -/
def asyncConnect (s : State) (c : ℕ) : State :=
  if s.isConnected then s.finish c (.ok ())
  else { s.setCall c .establishing with onFrame := some c, onDisconnect := some c }

/-- `async_disconnect`, up to its only await. -/
def asyncDisconnect (s : State) (c : ℕ) : State :=
  let cleared := { s with onFrame := none, onDisconnect := none, client := none }
  match s.client with
  | some k => cleared.setCall c (.closing k)
  | none => cleared.finish c (.ok ())

/-- `establish_connection` has returned a client. -/
def establish (s : State) (c : ℕ) : State :=
  { s.setCall c (.subscribing s.links.length) with links := s.links ++ [⟨c, .up, false⟩] }

/-- `start_notify` has returned. -/
def subscribe (s : State) (c k : ℕ) : State :=
  { s.finish c (.ok ()) with
    client := some k
    links := s.links.modify k fun l => { l with hasBeenCurrent := true } }

/-- What call `c` awaits has returned. -/
def resume (s : State) (c : ℕ) : Option State := do
  match ← s.calls c with
  | .establishing => some (s.establish c)
  | .subscribing k => some (s.subscribe c k)
  | .handingBack _ err => some (s.finish c (.error (couldNotConnect err)))
  | .closing _ => some (s.finish c (.ok ()))
  | .finished _ => none

/-- What call `c` awaits has raised `err`. `_async_close` ignores an `Exception`. -/
def throwInto (s : State) (c : ℕ) (err : Exc) : Option State := do
  match ← s.calls c with
  | .establishing => some (s.finish c (.error (wrapped err)))
  | .subscribing k =>
    if err = .cancelledError then some (s.finish c (.error err))
    else some (s.setCall c (.handingBack k err))
  | .handingBack _ err' =>
    if err = .cancelledError then some (s.finish c (.error err))
    else some (s.finish c (.error (couldNotConnect err')))
  | .closing _ =>
    if err = .cancelledError then some (s.finish c (.error err)) else some (s.finish c (.ok ()))
  | .finished _ => none

/-- The link that call `c` closes goes down. -/
def shutLink (s : State) (c : ℕ) : Option State := do
  match ← s.calls c with
  | .handingBack k _ | .closing k =>
    if s.isUp k then some (s.setStatus k (.down true true)) else none
  | _ => none

/-! ### Callbacks -/

/-- `_handle_disconnect`, which is not told the link apart. -/
def handleDisconnect (s : State) (k : ℕ) : State :=
  if s.onDisconnect.isSome then { s with reports := k :: s.reports } else s

/-- `_handle_notify`. -/
def handleNotify (s : State) (payload : Bytes) : State :=
  match s.onFrame with
  | some c => { s with frames := s.frames ++ [(c, payload)] }
  | none => s

section

variable (s : State) (k c : ℕ) (payload : Bytes)

@[simp] lemma asyncDisconnect_client : (s.asyncDisconnect c).client = none := by
  unfold asyncDisconnect
  split <;> rfl

@[simp] lemma asyncDisconnect_onFrame : (s.asyncDisconnect c).onFrame = none := by
  unfold asyncDisconnect
  split <;> rfl

@[simp] lemma asyncDisconnect_onDisconnect : (s.asyncDisconnect c).onDisconnect = none := by
  unfold asyncDisconnect
  split <;> rfl

@[simp] lemma asyncDisconnect_links : (s.asyncDisconnect c).links = s.links := by
  unfold asyncDisconnect
  split <;> rfl

/-- A call of `on_disconnect` or `on_frame` is all that the callbacks do. -/
lemma handleDisconnect_eq : ∃ reports, s.handleDisconnect k = { s with reports := reports } := by
  unfold handleDisconnect
  split_ifs <;> exact ⟨_, rfl⟩

lemma handleNotify_eq : ∃ frames, s.handleNotify payload = { s with frames := frames } := by
  unfold handleNotify
  split <;> exact ⟨_, rfl⟩

end

def callback (s : State) (k : ℕ) : Option State := do
  match (← s.links[k]?).status with
  | .down requested true => some ((s.handleDisconnect k).setStatus k (.down requested false))
  | _ => none

/-! ### The machine -/

def step (s : State) : Event → Option State
  | .connect c => if (s.calls c).isNone then some (s.asyncConnect c) else none
  | .disconnect c => if (s.calls c).isNone then some (s.asyncDisconnect c) else none
  | .returned c => s.resume c
  | .raised c err => s.throwInto c err
  | .shut c => s.shutLink c
  | .drop k => if s.isUp k then some (s.setStatus k (.down false true)) else none
  | .callback k => s.callback k
  | .notify k payload => if s.isUp k then some (s.handleNotify payload) else none

end State

def machine : System State Event := ⟨State.init, State.step⟩

/-- The runs of a new transport. -/
abbrev BleRun (P : State → Event → Prop) (es : List Event) (s : State) : Prop :=
  Run machine P State.init es s

/-! ### Transitions -/

/-- The transitions of one transport. -/
inductive Step (s : State) : Event → State → Prop
  | already {c} (hc : s.calls c = none) (hu : s.isConnected = true) :
      Step s (.connect c) (s.finish c (.ok ()))
  | connect {c} (hc : s.calls c = none) (hu : s.isConnected = false) :
      Step s (.connect c)
        { s.setCall c .establishing with onFrame := some c, onDisconnect := some c }
  | disconnect {c} (hc : s.calls c = none) : Step s (.disconnect c) (s.asyncDisconnect c)
  | establish {c} (hc : s.calls c = some .establishing) : Step s (.returned c) (s.establish c)
  | subscribe {c k} (hc : s.calls c = some (.subscribing k)) :
      Step s (.returned c) (s.subscribe c k)
  | handedBack {c k err} (hc : s.calls c = some (.handingBack k err)) :
      Step s (.returned c) (s.finish c (.error (State.couldNotConnect err)))
  | closed {c k} (hc : s.calls c = some (.closing k)) :
      Step s (.returned c) (s.finish c (.ok ()))
  | unestablished {c err} (hc : s.calls c = some .establishing) :
      Step s (.raised c err) (s.finish c (.error (State.wrapped err)))
  | unsubscribed {c k err} (hc : s.calls c = some (.subscribing k)) (he : err ≠ .cancelledError) :
      Step s (.raised c err) (s.setCall c (.handingBack k err))
  | abandoned {c k} (hc : s.calls c = some (.subscribing k)) :
      Step s (.raised c .cancelledError) (s.finish c (.error .cancelledError))
  | unclosed {c phase k err r} (hc : s.calls c = some phase)
      (hp : (∃ err', phase = .handingBack k err') ∨ phase = .closing k) :
      Step s (.raised c err) (s.finish c r)
  | shut {c phase k} (hc : s.calls c = some phase)
      (hp : (∃ err, phase = .handingBack k err) ∨ phase = .closing k) (hu : s.isUp k = true) :
      Step s (.shut c) (s.setStatus k (.down true true))
  | drop {k} (hu : s.isUp k = true) : Step s (.drop k) (s.setStatus k (.down false true))
  | callback {k l requested} (hl : s.links[k]? = some l) (hd : l.status = .down requested true) :
      Step s (.callback k) ((s.handleDisconnect k).setStatus k (.down requested false))
  | notify {k payload} (hu : s.isUp k = true) : Step s (.notify k payload) (s.handleNotify payload)

namespace Step

variable {s s' : State}

private lemma of_connect {c : ℕ} (hc : s.calls c = none) :
    Step s (.connect c) (s.asyncConnect c) := by
  unfold State.asyncConnect
  split_ifs with hu
  · exact .already hc hu
  · exact .connect hc (by simpa using hu)

private lemma of_resume {c : ℕ} (h : s.resume c = some s') : Step s (.returned c) s' := by
  simp only [State.resume, Option.bind_eq_bind, Option.bind_eq_some_iff] at h
  obtain ⟨phase, hc, h⟩ := h
  cases phase with
  | establishing =>
    cases h
    exact .establish hc
  | subscribing k =>
    cases h
    exact .subscribe hc
  | handingBack k err =>
    cases h
    exact .handedBack hc
  | closing k =>
    cases h
    exact .closed hc
  | finished r => cases h

private lemma of_throwInto {c : ℕ} {err : Exc} (h : s.throwInto c err = some s') :
    Step s (.raised c err) s' := by
  simp only [State.throwInto, Option.bind_eq_bind, Option.bind_eq_some_iff] at h
  obtain ⟨phase, hc, h⟩ := h
  cases phase with
  | establishing =>
    cases h
    exact .unestablished hc
  | subscribing k =>
    simp only at h
    split_ifs at h with he
    · subst he
      cases h
      exact .abandoned hc
    · cases h
      exact .unsubscribed hc he
  | handingBack k err' =>
    simp only at h
    split_ifs at h <;> cases h <;> exact .unclosed hc (.inl ⟨err', rfl⟩)
  | closing k =>
    simp only at h
    split_ifs at h <;> cases h <;> exact .unclosed hc (.inr rfl)
  | finished r => cases h

private lemma of_shutLink {c : ℕ} (h : s.shutLink c = some s') : Step s (.shut c) s' := by
  simp only [State.shutLink, Option.bind_eq_bind, Option.bind_eq_some_iff] at h
  obtain ⟨phase, hc, h⟩ := h
  cases phase with
  | handingBack k err =>
    simp only [Option.ite_none_right_eq_some] at h
    obtain ⟨hu, h⟩ := h
    cases h
    exact .shut hc (.inl ⟨err, rfl⟩) hu
  | closing k =>
    simp only [Option.ite_none_right_eq_some] at h
    obtain ⟨hu, h⟩ := h
    cases h
    exact .shut hc (.inr rfl) hu
  | establishing | subscribing k | finished r => cases h

private lemma of_callback {k : ℕ} (h : s.callback k = some s') : Step s (.callback k) s' := by
  simp only [State.callback, Option.bind_eq_bind, Option.bind_eq_some_iff] at h
  obtain ⟨l, hl, h⟩ := h
  split at h
  · next requested hd =>
    cases h
    exact .callback hl hd
  · cases h

/-- Every step of the machine is one of the transitions. -/
theorem of_step {e : Event} (h : s.step e = some s') : Step s e s' := by
  cases e with
  | connect c =>
    simp only [State.step, Option.ite_none_right_eq_some, Option.some.injEq] at h
    obtain ⟨hc, rfl⟩ := h
    exact of_connect (Option.isNone_iff_eq_none.1 hc)
  | disconnect c =>
    simp only [State.step, Option.ite_none_right_eq_some, Option.some.injEq] at h
    obtain ⟨hc, rfl⟩ := h
    exact .disconnect (Option.isNone_iff_eq_none.1 hc)
  | returned c => exact of_resume h
  | raised c err => exact of_throwInto h
  | shut c => exact of_shutLink h
  | drop k =>
    simp only [State.step, Option.ite_none_right_eq_some, Option.some.injEq] at h
    obtain ⟨hu, rfl⟩ := h
    exact .drop hu
  | callback k => exact of_callback h
  | notify k payload =>
    simp only [State.step, Option.ite_none_right_eq_some, Option.some.injEq] at h
    obtain ⟨hu, rfl⟩ := h
    exact .notify hu

end Step

/-! ### What a step does to a link -/

/-- What a step can make of link `i`. -/
inductive LinkChange (s : State) (i : ℕ) (l : Link) : Event → Link → Prop
  | same {e} : LinkChange s i l e l
  | current {c} (hc : s.calls c = some (.subscribing i)) :
      LinkChange s i l (.returned c) { l with hasBeenCurrent := true }
  | shut {c} (hu : l.status = .up) : LinkChange s i l (.shut c) { l with status := .down true true }
  | drop (hu : l.status = .up) : LinkChange s i l (.drop i) { l with status := .down false true }
  | callback {requested} (hd : l.status = .down requested true) :
      LinkChange s i l (.callback i) { l with status := .down requested false }

namespace LinkChange

variable {s : State} {i : ℕ} {l l' : Link} {e : Event}

/-- A link that is down stays down. -/
lemma up_of_up (h : LinkChange s i l e l') (hu : l'.status = .up) : l.status = .up := by
  cases h with
  | same | current => exact hu
  | shut | drop | callback => cases hu

lemma opener_eq (h : LinkChange s i l e l') : l'.opener = l.opener := by
  cases h <;> rfl

end LinkChange

/-- The link has just been established. -/
def State.Opened (s : State) (i : ℕ) (l : Link) (e : Event) : Prop :=
  ∃ c, e = .returned c ∧ s.calls c = some .establishing ∧ i = s.links.length ∧ l = ⟨c, .up, false⟩

private lemma getElem?_modify {links : List Link} {k i : ℕ} {f : Link → Link} {l' : Link}
    (h : (links.modify k f)[i]? = some l') :
    ∃ l, links[i]? = some l ∧ (k ≠ i ∧ l' = l ∨ k = i ∧ l' = f l) := by
  rw [List.getElem?_modify] at h
  by_cases hk : k = i
  · simp only [hk, if_true, Option.map_eq_map, Option.map_eq_some_iff] at h
    obtain ⟨l, hl, rfl⟩ := h
    exact ⟨l, hl, .inr ⟨hk, rfl⟩⟩
  · simp only [hk, if_false, Option.map_eq_map, Option.map_eq_some_iff] at h
    obtain ⟨l, hl, rfl⟩ := h
    exact ⟨l, hl, .inl ⟨hk, rfl⟩⟩

lemma State.isUp_iff {s : State} {k : ℕ} :
    s.isUp k = true ↔ ∃ l, s.links[k]? = some l ∧ l.status = .up := by
  simp [State.isUp, Option.any_eq_true]

/-- A link after a step was there before it, or it is new. -/
lemma Step.link_cases {s s' : State} {e : Event} (h : Step s e s') {i : ℕ} {l' : Link}
    (hl : s'.links[i]? = some l') :
    (∃ l, s.links[i]? = some l ∧ LinkChange s i l e l') ∨ s.Opened i l' e := by
  cases h with
  | @establish c hc =>
    change (s.links ++ [_])[i]? = some l' at hl
    rw [List.getElem?_append] at hl
    split_ifs at hl with hi
    · exact .inl ⟨l', hl, .same⟩
    · rw [List.getElem?_singleton, Option.ite_none_right_eq_some] at hl
      obtain ⟨hi', hl⟩ := hl
      cases hl
      exact .inr ⟨c, rfl, hc, by omega, rfl⟩
  | subscribe hc =>
    obtain ⟨l, h₀, ⟨-, rfl⟩ | ⟨rfl, rfl⟩⟩ := getElem?_modify hl
    · exact .inl ⟨_, h₀, .same⟩
    · exact .inl ⟨_, h₀, .current hc⟩
  | shut hc hp hu =>
    obtain ⟨l, h₀, ⟨-, rfl⟩ | ⟨rfl, rfl⟩⟩ := getElem?_modify hl
    · exact .inl ⟨_, h₀, .same⟩
    · obtain ⟨l', hl', hup⟩ := State.isUp_iff.1 hu
      rw [h₀] at hl'
      cases hl'
      exact .inl ⟨_, h₀, .shut hup⟩
  | drop hu =>
    obtain ⟨l, h₀, ⟨-, rfl⟩ | ⟨rfl, rfl⟩⟩ := getElem?_modify hl
    · exact .inl ⟨_, h₀, .same⟩
    · obtain ⟨l', hl', hup⟩ := State.isUp_iff.1 hu
      rw [h₀] at hl'
      cases hl'
      exact .inl ⟨_, h₀, .drop hup⟩
  | @callback k l₀ requested hl₀ hd =>
    obtain ⟨reports, heq⟩ := s.handleDisconnect_eq k
    rw [heq] at hl
    obtain ⟨l, h₀, ⟨-, rfl⟩ | ⟨rfl, rfl⟩⟩ := getElem?_modify hl
    · exact .inl ⟨_, h₀, .same⟩
    · rw [hl₀] at h₀
      cases h₀
      exact .inl ⟨_, hl₀, .callback hd⟩
  | notify =>
    obtain ⟨frames, heq⟩ := s.handleNotify_eq _
    rw [heq] at hl
    exact .inl ⟨_, hl, .same⟩
  | disconnect hc =>
    rw [State.asyncDisconnect_links] at hl
    exact .inl ⟨_, hl, .same⟩
  | _ => exact .inl ⟨_, hl, .same⟩

lemma Step.length_le {s s' : State} {e : Event} (h : Step s e s') :
    s.links.length ≤ s'.links.length := by
  cases h with
  | establish => simp [State.establish]
  | subscribe => simp [State.subscribe]
  | shut | drop => simp [State.setStatus]
  | @callback k =>
    obtain ⟨reports, heq⟩ := s.handleDisconnect_eq k
    simp [heq, State.setStatus]
  | @notify k payload =>
    obtain ⟨frames, heq⟩ := s.handleNotify_eq payload
    simp [heq]
  | disconnect => simp
  | _ => exact le_rfl

/-- No link is forgotten. -/
lemma Step.link_stays {s s' : State} {e : Event} (h : Step s e s') {i : ℕ} {l : Link}
    (hl : s.links[i]? = some l) : ∃ l', s'.links[i]? = some l' ∧ LinkChange s i l e l' := by
  have hlt : i < s.links.length := (List.getElem?_eq_some_iff.1 hl).1
  have hl' := List.getElem?_eq_getElem (hlt.trans_le h.length_le)
  rcases h.link_cases hl' with ⟨l₀, h₀, hc⟩ | ⟨c, -, -, hi, -⟩
  · rw [hl] at h₀
    cases h₀
    exact ⟨_, hl', hc⟩
  · omega

/-- A link that was there and is up has been up. -/
lemma Step.isUp_of_isUp {s s' : State} {e : Event} (h : Step s e s') {i : ℕ} {l : Link}
    (hl : s.links[i]? = some l) (hu : s'.isUp i = true) : s.isUp i = true := by
  obtain ⟨l', hl', hc⟩ := h.link_stays hl
  obtain ⟨l'', hl'', hup⟩ := State.isUp_iff.1 hu
  rw [hl'] at hl''
  cases hl''
  exact State.isUp_iff.2 ⟨l, hl, hc.up_of_up hup⟩

/-! ### Calls and their links -/

/-- A connect subscribes to the link that it has opened. -/
lemma Step.subscribing_cases {s s' : State} {e : Event} (h : Step s e s') {c k : ℕ}
    (hc : s'.calls c = some (.subscribing k)) :
    s.calls c = some (.subscribing k) ∨
      k = s.links.length ∧ s'.links = s.links ++ [⟨c, .up, false⟩] := by
  have hframe : ∀ {c' : ℕ} {phase : Phase}, phase ≠ .subscribing k →
      Function.update s.calls c' (some phase) c = some (.subscribing k) →
      s.calls c = some (.subscribing k) := by
    intro c' phase hp hc
    by_cases hcc : c = c'
    · subst hcc
      rw [Function.update_self] at hc
      exact absurd (Option.some.inj hc) hp
    · rwa [Function.update_of_ne hcc] at hc
  cases h with
  | @establish c' hc' =>
    by_cases hcc : c = c'
    · subst hcc
      have := (Function.update_self c _ s.calls).symm.trans hc
      cases this
      exact .inr ⟨rfl, rfl⟩
    · exact .inl ((Function.update_of_ne hcc _ _).symm.trans hc)
  | disconnect hc' =>
    unfold State.asyncDisconnect at hc
    split at hc <;> exact .inl (hframe (by simp) hc)
  | @callback k' =>
    obtain ⟨reports, heq⟩ := s.handleDisconnect_eq k'
    rw [heq] at hc
    exact .inl hc
  | @notify k' payload =>
    obtain ⟨frames, heq⟩ := s.handleNotify_eq payload
    rw [heq] at hc
    exact .inl hc
  | shut | drop => exact .inl hc
  | already | connect | subscribe | handedBack | closed | unestablished | unsubscribed | abandoned
  | unclosed => exact .inl (hframe (by simp) hc)

/-- The links that the calls and the transport have in hand are there, and belong to them. -/
structure State.Sound (s : State) : Prop where
  opens : ∀ c k, s.calls c = some (.subscribing k) → ∃ l, s.links[k]? = some l ∧ l.opener = c
  current : ∀ k, s.client = some k → ∃ l, s.links[k]? = some l ∧ l.hasBeenCurrent = true

namespace State.Sound

variable {s s' : State} {e : Event}

lemma init : State.init.Sound where
  opens _ _ h := by cases h
  current _ h := by cases h

lemma step (h : s.Sound) (hst : Step s e s') : s'.Sound := by
  have hkeep : ∀ k, s.client = some k → ∃ l, s'.links[k]? = some l ∧ l.hasBeenCurrent = true := by
    intro k hk
    obtain ⟨l, hl, hb⟩ := h.current k hk
    obtain ⟨l', hl', hc⟩ := hst.link_stays hl
    refine ⟨l', hl', ?_⟩
    cases hc with
    | current => rfl
    | same | shut | drop | callback => exact hb
  refine ⟨fun c k hc => ?_, fun k hk => ?_⟩
  · rcases hst.subscribing_cases hc with hc | ⟨rfl, hlinks⟩
    · obtain ⟨l, hl, ho⟩ := h.opens c k hc
      obtain ⟨l', hl', hchange⟩ := hst.link_stays hl
      exact ⟨l', hl', hchange.opener_eq.trans ho⟩
    · exact ⟨_, by rw [hlinks]; exact List.getElem?_concat_length, rfl⟩
  · cases hst with
    | @subscribe c k' hc =>
      cases hk
      obtain ⟨l, hl, -⟩ := h.opens c _ hc
      refine ⟨{ l with hasBeenCurrent := true }, ?_, rfl⟩
      simp [State.subscribe, hl]
    | disconnect => simp at hk
    | @callback k' =>
      obtain ⟨reports, heq⟩ := s.handleDisconnect_eq k'
      exact hkeep k (by simpa [heq, State.setStatus] using hk)
    | @notify k' payload =>
      obtain ⟨frames, heq⟩ := s.handleNotify_eq payload
      exact hkeep k (by simpa [heq] using hk)
    | _ => exact hkeep k hk

end State.Sound

theorem State.sound_of_run {P : State → Event → Prop} {es : List Event} {s : State}
    (h : BleRun P es s) : s.Sound := by
  have hstep : ∀ u e v, u.Sound → P u e → u.step e = some v → v.Sound :=
    fun u e v hu _ hst => hu.step (Step.of_step hst)
  exact h.invariant hstep .init

/-- The transport's invariant rule: every step is a transition from a sound state. -/
theorem invariant_of_run {P : State → Event → Prop} {J : State → Prop} {es : List Event}
    {s t : State} (hJ : ∀ u e v, u.Sound → J u → P u e → Step u e v → J v)
    (h : Run machine P s es t) (hs : s.Sound) (hj : J s) : J t :=
  h.invariant_from (fun _ _ _ hu hst => hu.step (Step.of_step hst))
    (fun u e v hu hju hP hst => hJ u e v hu hju hP (Step.of_step hst)) hs hj

end SpinevBle.Ble
