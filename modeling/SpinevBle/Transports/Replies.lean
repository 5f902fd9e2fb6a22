import SpinevBle.Lib.Transition
import SpinevBle.Transports.Ocpp

/-!
# The replies of the tunnel

The connections of one `OcppTunnelTransport` and the calls of `async_send` made on it. A connection
begins with a connect of a transport that is not connected, and has the callback of that connect.
The callback that a reply goes to is looked up when the reply comes.
-/

namespace SpinevBle.Ocpp

open Transition

variable {κ δ : Type}

/-! ### State -/

/-- A call of `async_send`, with the connection that was open when it started. -/
structure Send where
  frame : Bytes
  connection : Option ℕ
  ended : Bool

def Send.register (send : Send) : UInt8 := send.frame.getD 2 0

/-- A payload that call `send` has handed to `callback`, while `connection` was open. -/
structure Handed (κ : Type) where
  send : ℕ
  callback : κ
  connection : Option ℕ
  payload : Bytes

/-- `current` is the connection that is open, and `opened` has the `on_frame` of each connection. No
step of the transport reads them, nor `handed`. -/
structure State (κ δ : Type) where
  transport : Transport κ δ
  current : Option ℕ
  opened : List κ
  sends : ℕ → Option Send
  handed : List (Handed κ)

def State.init : State κ δ := ⟨.init, none, [], fun _ => none, []⟩

inductive Event (κ δ : Type)
  | connect (onFrame : κ) (onDisconnect : δ)
  | disconnect
  | notifyDisconnected
  | sendStart (i : ℕ) (frame : Bytes)
  | sendEnd (i : ℕ) (e : TransferEnd)

namespace State

/-- A connect of a connected transport opens no connection. -/
def connect (s : State κ δ) (onFrame : κ) (onDisconnect : δ) : State κ δ :=
  let transport := s.transport.asyncConnect onFrame onDisconnect
  match s.current with
  | some _ => { s with transport }
  | none =>
    { s with transport, current := some s.opened.length, opened := s.opened ++ [onFrame] }

/-- What call `i` hands over when its `data_transfer` ends with `e`. -/
def handing (s : State κ δ) (i : ℕ) (e : TransferEnd) : Option (Handed κ) := do
  let send ← s.sends i
  match reply send.register e with
  | .ok (some payload) => s.transport.onFrame.map fun k => ⟨i, k, s.current, payload⟩
  | _ => none

def step (s : State κ δ) : Event κ δ → Option (State κ δ)
  | .connect onFrame onDisconnect => some (s.connect onFrame onDisconnect)
  | .disconnect => some { s with transport := s.transport.asyncDisconnect, current := none }
  | .notifyDisconnected =>
    some { s with transport := s.transport.notifyDisconnected.1, current := none }
  | .sendStart i frame =>
    if (s.sends i).isNone then
      let ended := match s.transport.request frame with
        | .ok _ => false
        | .error _ => true
      some { s with sends := Function.update s.sends i (some ⟨frame, s.current, ended⟩) }
    else none
  | .sendEnd i e => do
    let send ← s.sends i
    if send.ended then none
    else some { s with
      sends := Function.update s.sends i (some { send with ended := true })
      handed := s.handed ++ (s.handing i e).toList }

end State

def machine (κ δ : Type) : System (State κ δ) (Event κ δ) := ⟨State.init, State.step⟩

/-- The runs of a new transport. -/
abbrev TunnelRun (P : State κ δ → Event κ δ → Prop) (es : List (Event κ δ)) (s : State κ δ) : Prop :=
  Run (machine κ δ) P State.init es s

/-! ### Replies in time -/

/-- The payload was handed to the callback of the connection that its frame was sent in, while that
connection was open. -/
def State.Within (s : State κ δ) (h : Handed κ) : Prop :=
  ∃ send n, s.sends h.send = some send ∧ send.connection = some n ∧ h.connection = some n ∧
    s.opened[n]? = some h.callback

/-- Replies stay within their connection, and none is handed over twice. -/
def State.RepliesWithin (s : State κ δ) : Prop :=
  (s.handed.map Handed.send).Nodup ∧ ∀ h ∈ s.handed, s.Within h

/-- The frame of call `i` was sent in the connection that is open, and the callback of this
connection is in place. -/
def State.InTime (s : State κ δ) (i : ℕ) : Prop :=
  (s.sends i).bind Send.connection = s.current ∧
    (s.current.bind fun n => s.opened[n]?) = s.transport.onFrame

/-- Nothing is handed over but in time. -/
def RepliesInTime (s : State κ δ) : Event κ δ → Prop
  | .sendEnd i e => (s.handing i e).isSome = true → s.InTime i
  | _ => True

instance [DecidableEq κ] (s : State κ δ) (e : Event κ δ) : Decidable (RepliesInTime s e) :=
  match e with
  | .sendEnd i e => decidable_of_iff ((s.handing i e).isSome = true →
      (s.sends i).bind Send.connection = s.current ∧
        (s.current.bind fun n => s.opened[n]?) = s.transport.onFrame) Iff.rfl
  | .connect .. | .disconnect | .notifyDisconnected | .sendStart .. => .isTrue trivial

/-! ### What a step keeps -/

section

variable {s t : State κ δ} {e : Event κ δ} {i : ℕ}

/-- The transitions of the transport. -/
inductive Moves (s : State κ δ) : Event κ δ → State κ δ → Prop
  | connect {k d} : Moves s (.connect k d) (s.connect k d)
  | disconnect :
      Moves s .disconnect { s with transport := s.transport.asyncDisconnect, current := none }
  | notifyDisconnected :
      Moves s .notifyDisconnected
        { s with transport := s.transport.notifyDisconnected.1, current := none }
  | sendStart {i frame ended} (hi : s.sends i = none) :
      Moves s (.sendStart i frame)
        { s with sends := Function.update s.sends i (some ⟨frame, s.current, ended⟩) }
  | sendEnd {i e send} (hi : s.sends i = some send) (hended : send.ended = false) :
      Moves s (.sendEnd i e)
        { s with sends := Function.update s.sends i (some { send with ended := true }),
                 handed := s.handed ++ (s.handing i e).toList }

lemma Moves.of_step (h : s.step e = some t) : Moves s e t := by
  cases e with
  | connect k d =>
    cases h
    exact .connect
  | disconnect =>
    cases h
    exact .disconnect
  | notifyDisconnected =>
    cases h
    exact .notifyDisconnected
  | sendStart i frame =>
    simp only [State.step, Option.ite_none_right_eq_some, Option.isNone_iff_eq_none,
      Option.some.injEq] at h
    obtain ⟨hi, rfl⟩ := h
    exact .sendStart hi
  | sendEnd i e =>
    simp only [State.step, Option.bind_eq_bind, Option.bind_eq_some_iff,
      Option.ite_none_left_eq_some, Option.some.injEq] at h
    obtain ⟨send, hi, hended, rfl⟩ := h
    exact .sendEnd hi (by simpa using hended)

/-- The connections are those of the transport, and what was handed over was handed over by a call
that has ended. -/
structure State.Recorded (s : State κ δ) : Prop where
  connected : s.transport.onFrame.isSome = s.current.isSome
  current : ∀ n, s.current = some n → n < s.opened.length
  ended : ∀ h ∈ s.handed, ∃ send, s.sends h.send = some send ∧ send.ended = true
  handed : ∀ h ∈ s.handed, ∀ n, h.connection = some n → n < s.opened.length
  nodup : (s.handed.map Handed.send).Nodup

/-- What later states keep of earlier ones. -/
structure State.Extends (s t : State κ δ) : Prop where
  sends : ∀ i send, s.sends i = some send →
    ∃ ended, t.sends i = some { send with ended } ∧ (send.ended = true → ended = true)
  opened : s.opened <+: t.opened

lemma State.Extends.of_sends (h : t.sends = s.sends) (ho : s.opened <+: t.opened) :
    s.Extends t where
  sends _ send hi := ⟨send.ended, h ▸ hi, id⟩
  opened := ho

lemma State.connect_opened (s : State κ δ) (k : κ) (d : δ) : s.opened <+: (s.connect k d).opened := by
  unfold connect
  cases s.current with
  | some n => exact List.prefix_rfl
  | none => exact List.prefix_append _ _

lemma State.connect_sends (s : State κ δ) (k : κ) (d : δ) : (s.connect k d).sends = s.sends := by
  unfold connect
  cases s.current <;> rfl

lemma State.connect_handed (s : State κ δ) (k : κ) (d : δ) :
    (s.connect k d).handed = s.handed := by
  unfold connect
  cases s.current <;> rfl

lemma extends_of_step (hst : s.step e = some t) : s.Extends t := by
  cases Moves.of_step hst with
  | @connect k d => exact .of_sends (s.connect_sends k d) (s.connect_opened k d)
  | disconnect | notifyDisconnected => exact .of_sends rfl List.prefix_rfl
  | @sendStart i frame ended hi =>
    refine ⟨fun i' send hi' => ⟨send.ended, ?_, id⟩, List.prefix_rfl⟩
    have hne : i' ≠ i := by
      rintro rfl
      simp [hi] at hi'
    exact (Function.update_of_ne hne _ _).trans hi'
  | @sendEnd i e send hi hended =>
    refine ⟨fun i' send' hi' => ?_, List.prefix_rfl⟩
    by_cases hne : i' = i
    · subst hne
      rw [hi] at hi'
      cases hi'
      exact ⟨true, Function.update_self _ _ _, fun _ => rfl⟩
    · exact ⟨send'.ended, (Function.update_of_ne hne _ _).trans hi', id⟩

/-- A step hands over what it hands over, and nothing else. -/
lemma handed_of_step (hst : s.step e = some t) :
    t.handed = s.handed ∧ (∀ i e', e ≠ .sendEnd i e') ∨
      ∃ i e' send, e = .sendEnd i e' ∧ s.sends i = some send ∧ send.ended = false ∧
        t.sends i = some { send with ended := true } ∧ t.opened = s.opened ∧
        t.handed = s.handed ++ (s.handing i e').toList := by
  cases Moves.of_step hst with
  | @connect k d => exact .inl ⟨s.connect_handed k d, by simp⟩
  | disconnect | notifyDisconnected | sendStart => exact .inl ⟨rfl, by simp⟩
  | @sendEnd i e send hi hended =>
    exact .inr ⟨i, e, send, rfl, hi, hended, Function.update_self _ _ _, rfl, rfl⟩

lemma State.mem_handing {e' : TransferEnd} {h : Handed κ} (hh : h ∈ s.handing i e') :
    h.send = i ∧ h.connection = s.current ∧ s.transport.onFrame = some h.callback := by
  simp only [handing, Option.bind_eq_bind, Option.mem_def, Option.bind_eq_some_iff] at hh
  obtain ⟨send, -, hh⟩ := hh
  split at hh
  · rw [Option.map_eq_some_iff] at hh
    obtain ⟨k, hk, rfl⟩ := hh
    exact ⟨rfl, rfl, hk⟩
  · cases hh

private lemma connected_of_step (h : s.Recorded) (hst : s.step e = some t) :
    t.transport.onFrame.isSome = t.current.isSome ∧
      ∀ n, t.current = some n → n < t.opened.length := by
  cases Moves.of_step hst with
  | connect =>
    unfold State.connect
    cases hc : s.current with
    | some n => exact ⟨by simp [Transport.asyncConnect], fun m hm => h.current m (hc.trans hm)⟩
    | none => exact ⟨rfl, by simp⟩
  | disconnect | notifyDisconnected => exact ⟨rfl, by simp⟩
  | sendStart | sendEnd => exact ⟨h.connected, h.current⟩

lemma State.Recorded.step (h : s.Recorded) (hst : s.step e = some t) : t.Recorded := by
  obtain ⟨hconnected, hcurrent⟩ := connected_of_step h hst
  have hext := extends_of_step hst
  have hended : ∀ g ∈ s.handed, ∃ send, t.sends g.send = some send ∧ send.ended = true := by
    intro g hg
    obtain ⟨send, hsend, he⟩ := h.ended g hg
    obtain ⟨ended, hsend', he'⟩ := hext.sends _ _ hsend
    exact ⟨_, hsend', he' he⟩
  have hhanded : ∀ g ∈ s.handed, ∀ n, g.connection = some n → n < t.opened.length :=
    fun g hg n hn => (h.handed g hg n hn).trans_le hext.opened.length_le
  rcases handed_of_step hst with ⟨heq, -⟩ | ⟨i, e', send, -, hi, hne, hi', ho, heq⟩
  · exact ⟨hconnected, hcurrent, heq ▸ hended, heq ▸ hhanded, heq ▸ h.nodup⟩
  · have hnew : i ∉ s.handed.map Handed.send := by
      intro hmem
      obtain ⟨g, hg, rfl⟩ := List.mem_map.1 hmem
      obtain ⟨send', hsend', he⟩ := h.ended g hg
      rw [hi] at hsend'
      cases hsend'
      simp [hne] at he
    refine ⟨hconnected, hcurrent, fun g hg => ?_, fun g hg n hn => ?_, ?_⟩
    · rw [heq, List.mem_append, Option.mem_toList] at hg
      rcases hg with hg | hg
      · exact hended g hg
      · exact ⟨_, (State.mem_handing hg).1 ▸ hi', rfl⟩
    · rw [heq, List.mem_append, Option.mem_toList] at hg
      rcases hg with hg | hg
      · exact hhanded g hg n hn
      · rw [ho]
        exact h.current n ((State.mem_handing hg).2.1.symm.trans hn)
    · rw [heq]
      cases hh : s.handing i e' with
      | none => simpa using h.nodup
      | some g =>
        have hg := (State.mem_handing hh).1
        rw [Option.toList_some, List.map_append, List.nodup_append]
        refine ⟨h.nodup, by simp, ?_⟩
        rintro a ha b hb rfl
        simp only [List.map_cons, List.map_nil, List.mem_singleton] at hb
        exact hnew (hg ▸ hb ▸ ha)

/-- Whether a payload was handed over within its connection is settled when it is handed over. -/
lemma within_of_step (h : s.Recorded) (hst : s.step e = some t) {g : Handed κ}
    (hg : g ∈ s.handed) : t.Within g ↔ s.Within g := by
  have hext := extends_of_step hst
  obtain ⟨send, hsend, -⟩ := h.ended g hg
  obtain ⟨ended, hsend', -⟩ := hext.sends _ _ hsend
  have hopened : ∀ n, g.connection = some n → t.opened[n]? = s.opened[n]? := by
    intro n hn
    obtain ⟨rest, hrest⟩ := hext.opened
    rw [← hrest, List.getElem?_append_left (h.handed g hg n hn)]
  constructor
  · rintro ⟨send', n, hs, hc, hn, ho⟩
    rw [hsend'] at hs
    cases hs
    exact ⟨send, n, hsend, hc, hn, hopened n hn ▸ ho⟩
  · rintro ⟨send', n, hs, hc, hn, ho⟩
    rw [hsend] at hs
    cases hs
    exact ⟨_, n, hsend', hc, hn, (hopened n hn).trans ho⟩

/-- A payload is handed over within its connection if and only if it comes in time. -/
lemma within_iff_inTime (h : s.Recorded) {send : Send} (hi : s.sends i = some send)
    (hi' : t.sends i = some { send with ended := true }) (ho : t.opened = s.opened)
    {e' : TransferEnd} {g : Handed κ} (hg : g ∈ s.handing i e') : t.Within g ↔ s.InTime i := by
  obtain ⟨rfl, hc, hk⟩ := State.mem_handing hg
  have hsome : s.current.isSome = true := by rw [← h.connected, hk]; rfl
  obtain ⟨n, hn⟩ := Option.isSome_iff_exists.1 hsome
  constructor
  · rintro ⟨send', n', hs, hconn, hn', hopen⟩
    rw [hi'] at hs
    cases hs
    have hcur : s.current = some n' := hc.symm.trans hn'
    refine ⟨?_, ?_⟩
    · rw [hi, hcur]
      exact hconn
    · rw [hcur, hk, ← hopen, ho]
      rfl
  · rintro ⟨hconn, hopen⟩
    rw [hi, hn] at hconn
    rw [hn, hk] at hopen
    exact ⟨_, n, hi', hconn, hc.trans hn, ho ▸ hopen⟩

/-- The replies stay within their connections with a step if and only if the step hands over in
time. -/
lemma repliesWithin_of_step (h : s.Recorded) (hst : s.step e = some t) :
    t.RepliesWithin ↔ s.RepliesWithin ∧ RepliesInTime s e := by
  have hold : (∀ g ∈ s.handed, t.Within g) ↔ ∀ g ∈ s.handed, s.Within g :=
    forall₂_congr fun g hg => within_of_step h hst hg
  have hnodup := (h.step hst).nodup
  rcases handed_of_step hst with ⟨heq, hne⟩ | ⟨i, e', send, rfl, hi, -, hi', ho, heq⟩
  · have hP : RepliesInTime s e := by
      cases e with
      | sendEnd i e' => exact absurd rfl (hne i e')
      | connect | disconnect | notifyDisconnected | sendStart => trivial
    simp [State.RepliesWithin, heq, hold, h.nodup, hP]
  · have hnew : (∀ g ∈ s.handing i e', t.Within g) ↔ RepliesInTime s (.sendEnd i e') := by
      cases hh : s.handing i e' with
      | none => simp [RepliesInTime, hh]
      | some g => simp [RepliesInTime, hh, within_iff_inTime h hi hi' ho hh]
    have hall : (∀ g ∈ t.handed, t.Within g) ↔
        (∀ g ∈ s.handed, t.Within g) ∧ ∀ g ∈ s.handing i e', t.Within g := by
      simp [heq, or_imp, forall_and]
    rw [State.RepliesWithin, State.RepliesWithin, and_iff_right hnodup, and_iff_right h.nodup, hall,
      hold, hnew]

end

/-- The replies stay within their connections in exactly the runs in which each of them is handed
over in time. -/
theorem replies_within {P : State κ δ → Event κ δ → Prop} {es : List (Event κ δ)} {s : State κ δ}
    (h : TunnelRun P es s) : s.RepliesWithin ↔ TunnelRun RepliesInTime es s := by
  have hinit : (State.init : State κ δ).Recorded :=
    ⟨rfl, by simp [State.init], by simp [State.init], by simp [State.init], by simp [State.init]⟩
  have hstep : ∀ (u : State κ δ) e v, u.Recorded → (machine κ δ).step u e = some v → v.Recorded :=
    fun _ _ _ hu hst => hu.step hst
  have hiff := h.invariant_iff hstep (fun _ _ _ hu hst => repliesWithin_of_step hu hst) hinit
  rw [hiff, and_iff_right]
  exact ⟨by simp [State.init], by simp [State.init]⟩

/-- The frame that reads the power, and its answer. -/
def powerRead : Bytes := [0x10, 0xAC, 0x84, 0x00, 0x00, 0x00, 0x00, 0x00]

def powerReply : TransferEnd :=
  .returned accepted (.text (underscored .upper [0x10, 0xAC, 0x84, 0x00, 0x45, 0x71, 0x3D, 0x71]))

/-- The connection drops while the frame is on its way. -/
def droppedEvents : List (Event ℕ ℕ) :=
  [.connect 0 0, .sendStart 0 powerRead, .notifyDisconnected, .sendEnd 0 powerReply]

theorem replies_within_dropped : ∃ s, TunnelRun Always droppedEvents s ∧ s.RepliesWithin := by
  have h : TunnelRun RepliesInTime droppedEvents _ := Run.of_exec rfl
  exact ⟨_, h.always, (replies_within h).2 h⟩

/-- The connection drops while the frame is on its way, and the next one gets the reply. -/
def reconnectEvents : List (Event ℕ ℕ) :=
  [.connect 0 0, .sendStart 0 powerRead, .notifyDisconnected, .connect 1 1, .sendEnd 0 powerReply]

theorem reply_in_next_connection :
    ∃ s, TunnelRun Always reconnectEvents s ∧ ¬ s.RepliesWithin := by
  have h : TunnelRun Always reconnectEvents _ := Run.of_exec rfl
  refine ⟨_, h, fun hw => ?_⟩
  obtain ⟨send, n, hs, hc, hn, -⟩ := hw.2 _ (.head _)
  cases hs
  cases hc
  cases hn

end SpinevBle.Ocpp
