import SpinevBle.Charger.History
import SpinevBle.Charger.Passwords
import SpinevBle.Charger.Traces
import SpinevBle.Protocol.Codec

/-!
# Control commands

A command is eight bytes, of which the last three are the password. The first payload that answers
it decides how the call ends: it returns if the payload is the frame that was sent, byte for byte,
raises `SpinEvCommandRejectedError` if it is the refusal, and `SpinEvProtocolError` if it is
anything else.
-/

namespace SpinevBle

open Asyncio Interaction Transition

/-! ### The frame of a command -/

/-- The password with these three bytes. -/
def passwordValue (b₁ b₂ b₃ : UInt8) : ℤ := (b₁.toNat * 65536 + b₂.toNat * 256 + b₃.toNat : ℕ)

lemma passwordValue_mem (b₁ b₂ b₃ : UInt8) :
    0 ≤ passwordValue b₁ b₂ b₃ ∧ passwordValue b₁ b₂ b₃ ≤ passwordMax := by
  have h₁ := b₁.toNat_lt
  have h₂ := b₂.toNat_lt
  have h₃ := b₃.toNat_lt
  simp only [passwordValue, passwordMax]
  omega

lemma passwordValue_injective {b₁ b₂ b₃ b₁' b₂' b₃' : UInt8}
    (h : passwordValue b₁ b₂ b₃ = passwordValue b₁' b₂' b₃') : b₁ = b₁' ∧ b₂ = b₂' ∧ b₃ = b₃' := by
  have := b₁.toNat_lt
  have := b₂.toNat_lt
  have := b₃.toNat_lt
  have := b₁'.toNat_lt
  have := b₂'.toNat_lt
  have := b₃'.toNat_lt
  simp only [passwordValue] at h
  simp only [← UInt8.toNat_inj]
  omega

/-- The frame that carries the command and the password. -/
def controlFrame (command : Command) (b₁ b₂ b₃ : UInt8) : Frame :=
  ⟨Register.control.value, Operation.write.value, ⟨UInt8.ofNat command.value, b₁, b₂, b₃⟩⟩

lemma toNat_controlFrame (command : Command) (b₁ b₂ b₃ : UInt8) :
    (controlFrame command b₁ b₂ b₃).raw.toNat =
      command.value <<< 24 ||| (passwordValue b₁ b₂ b₃).toNat := by
  have h₁ := b₁.toNat_lt
  have h₂ := b₂.toNat_lt
  have h₃ := b₃.toNat_lt
  have hlt : (passwordValue b₁ b₂ b₃).toNat < 2 ^ 24 := by
    simp only [passwordValue, Int.toNat_natCast]
    omega
  have hc : command.value < 2 ^ 8 := by cases command <;> decide
  rw [← Nat.shiftLeft_add_eq_or_of_lt hlt, Nat.shiftLeft_eq]
  simp only [controlFrame, Word.toNat, passwordValue, Int.toNat_natCast, UInt8.toNat_ofNat',
    Nat.mod_eq_of_lt hc]
  omega

/-- A command is built for every password of three bytes and for no other. -/
lemma buildControl_iff {command : Command} {n : ℤ} {frame : Frame} :
    buildControl command n = .ok frame ↔
      ∃ b₁ b₂ b₃, n = passwordValue b₁ b₂ b₃ ∧ frame = controlFrame command b₁ b₂ b₃ := by
  have hframe : ∀ b₁ b₂ b₃, (⟨Register.control.value, Operation.write.value,
      Word.ofNat (command.value <<< 24 ||| (passwordValue b₁ b₂ b₃).toNat)⟩ : Frame) =
        controlFrame command b₁ b₂ b₃ := by
    intro b₁ b₂ b₃
    rw [← toNat_controlFrame, Word.ofNat_toNat]
    rfl
  rw [buildControl_eq_ok]
  constructor
  · rintro ⟨hn, rfl⟩
    obtain ⟨b₁, b₂, b₃, rfl⟩ : ∃ b₁ b₂ b₃, n = passwordValue b₁ b₂ b₃ := by
      refine ⟨.ofNat (n.toNat / 65536), .ofNat (n.toNat / 256), .ofNat n.toNat, ?_⟩
      simp only [passwordMax] at hn
      simp only [passwordValue, UInt8.toNat_ofNat']
      omega
    exact ⟨b₁, b₂, b₃, rfl, hframe b₁ b₂ b₃⟩
  · rintro ⟨b₁, b₂, b₃, rfl, rfl⟩
    exact ⟨passwordValue_mem b₁ b₂ b₃, (hframe b₁ b₂ b₃).symm⟩

/-- Different commands and passwords have different frames. -/
lemma buildControl_injective {command command' : Command} {n n' : ℤ} {frame : Frame}
    (h : buildControl command n = .ok frame) (h' : buildControl command' n' = .ok frame) :
    command = command' ∧ n = n' := by
  obtain ⟨b₁, b₂, b₃, rfl, rfl⟩ := buildControl_iff.1 h
  obtain ⟨b₁', b₂', b₃', rfl, he⟩ := buildControl_iff.1 h'
  simp only [controlFrame, Frame.mk.injEq, Word.mk.injEq, true_and] at he
  obtain ⟨hc, rfl, rfl, rfl⟩ := he
  refine ⟨?_, rfl⟩
  cases command <;> cases command' <;> first | rfl | exact absurd hc (by decide)

/-- The password in a reply is the last three of its value bytes. -/
lemma passwordOf_iff {payload : Bytes} {n : ℤ} :
    passwordOf payload = .ok n ↔ ∃ b₀ b₁ b₂ b₃, (payload.drop 4).take 4 = [b₀, b₁, b₂, b₃] ∧
      n = passwordValue b₁ b₂ b₃ := by
  have hvalue : ∀ b₀ b₁ b₂ b₃ : UInt8, decodeUInt [b₀, b₁, b₂, b₃] =
      .ok (Word.toNat ⟨b₀, b₁, b₂, b₃⟩) := fun b₀ b₁ b₂ b₃ => decodeUInt_bytes ⟨b₀, b₁, b₂, b₃⟩
  have hmask : ∀ b₀ b₁ b₂ b₃ : UInt8, ((Word.toNat ⟨b₀, b₁, b₂, b₃⟩ &&& 0xFFFFFF : ℕ) : ℤ) =
      passwordValue b₁ b₂ b₃ := by
    intro b₀ b₁ b₂ b₃
    have h₁ := b₁.toNat_lt
    have h₂ := b₂.toNat_lt
    have h₃ := b₃.toNat_lt
    rw [show (0xFFFFFF : ℕ) = 2 ^ 24 - 1 from rfl, Nat.and_two_pow_sub_one_eq_mod]
    simp only [Word.toNat, passwordValue]
    omega
  unfold passwordOf valueBytes
  by_cases hlen : ((payload.drop 4).take 4).length = 4
  · obtain ⟨b₀, b₁, b₂, b₃, hraw⟩ := List.length_eq_four.1 hlen
    simp [hraw, hvalue, hmask, eq_comm]
  · rw [if_pos hlen]
    constructor
    · intro h
      cases h
    · rintro ⟨b₀, b₁, b₂, b₃, hraw, -⟩
      simp [hraw] at hlen

/-! ### The verdict on a reply -/

/-- The reply of a charger that refuses a command. -/
def refusalBytes : Bytes := [0x10, 0xAC, 0x3C, 0x01, 0xFF, 0xFF, 0xFF, 0xFF]

/-- What the call makes of the payload that answers the command `frame`. -/
inductive Verdict (frame : Frame) (payload : Bytes) : Except Exc Unit → Prop
  | echoed (h : payload = frame.bytes) : Verdict frame payload (.ok ())
  | refused {m} (h : payload = refusalBytes) : Verdict frame payload (.error (.spinEv .commandRejected m))
  | altered {m} (hne : payload ≠ frame.bytes) (hn : payload ≠ refusalBytes) :
      Verdict frame payload (.error (.spinEv .protocol m))

lemma verdict_checkControlReply {command : Command} {n : ℤ} {frame : Frame} {payload : Bytes}
    (hf : buildControl command n = .ok frame)
    (ha : Answers payload Register.control.value Operation.write.value) :
    Verdict frame payload (checkControlReply frame payload) := by
  have hreg := register_buildControl hf
  have hflag : frame.flag = Operation.write.value := by
    obtain ⟨b₁, b₂, b₃, -, rfl⟩ := buildControl_iff.1 hf
    rfl
  unfold checkControlReply
  cases hp : parseFrame payload with
  | none =>
    refine .altered ?_ ?_ <;> rintro rfl
    · rw [parseFrame_bytes] at hp
      cases hp
    · cases hp
  | some reply =>
    obtain rfl := parseFrame_eq_some_iff.1 hp
    obtain ⟨hr, hfl⟩ := reply.answers.unique ha
    obtain ⟨register, flag, raw⟩ := reply
    obtain ⟨register', flag', raw'⟩ := frame
    dsimp only at hr hfl hreg hflag ⊢
    subst hr hfl hreg hflag
    rw [if_neg (by simp)]
    split_ifs with hraw hsent
    · subst hraw
      exact .refused rfl
    · refine .altered (fun h => hsent ?_) fun h => hraw ?_
      · exact (Frame.mk.inj (Frame.bytes_injective h)).2.2
      · have h : (⟨Register.control.value, Operation.write.value, raw⟩ : Frame) =
            ⟨Register.control.value, Operation.write.value, ⟨0xFF, 0xFF, 0xFF, 0xFF⟩⟩ :=
          Frame.bytes_injective h
        exact (Frame.mk.inj h).2.2
    · exact .echoed (by rw [not_not.1 hsent])

/-- The outcomes of a command, if its frame is not the refusal. -/
lemma Verdict.iff {β : Type} {f : Unit → β} {frame : Frame} {payload : Bytes} {x : Except Exc Unit}
    (h : Verdict frame payload x) (hne : frame.bytes ≠ refusalBytes) :
    (x.map f = .ok (f ()) ↔ payload = frame.bytes) ∧
      ((∃ m, x.map f = .error (.spinEv .commandRejected m)) ↔ payload = refusalBytes) ∧
      ((∃ m, x.map f = .error (.spinEv .protocol m)) ↔
        payload ≠ frame.bytes ∧ payload ≠ refusalBytes) := by
  cases h with
  | echoed h =>
    subst h
    simp [Except.map, hne]
  | refused h =>
    subst h
    simp [Except.map, hne.symm]
  | altered hframe hrefusal => simp [Except.map, hframe, hrefusal]

/-- The refusal is not the frame of a command. -/
lemma bytes_ne_refusalBytes {command : Command} {n : ℤ} {frame : Frame}
    (hf : buildControl command n = .ok frame) : frame.bytes ≠ refusalBytes := by
  obtain ⟨b₁, b₂, b₃, -, rfl⟩ := buildControl_iff.1 hf
  intro h
  have hc : UInt8.ofNat command.value = 0xFF := Option.some.inj (congrArg (fun bs => bs[4]?) h)
  cases command <;> exact absurd hc (by decide)

/-! ### A frame on its way -/

section

variable {β : Type} {s s' t : State β} {e : Event β} {c i : ℕ} {frame : Frame} {register : UInt8}
  {k : Except Exc Bytes → Program (Except Exc β)}

/-- An event that neither cancels call `c` nor is its deadline, nor lets the send of flight `i`
fail. -/
def Uninterrupted (c i : ℕ) (e : Event β) : Prop :=
  e ≠ .cancel c ∧ e ≠ .expire c ∧ ∀ o, e = .sendEnd i o → o = .returned

/-- Call `c` exchanges `frame` as flight `i`, and nothing has interrupted it. -/
structure State.Unharmed (s : State β) (c i : ℕ) (frame : Frame) (register : UInt8)
    (k : Except Exc Bytes → Program (Except Exc β)) : Prop where
  lock : ∃ n fl, s.lock = some (.delivering c (.request frame register) k n fl) ∧ fl.id = i
  call : ∃ cn, s.calls c = some ⟨.inside, cn⟩ ∧ cn.mustCancel = false
  send : ∃ task, s.sendTasks i = some task ∧ (Live task.state ∨ task.state = .done .returned)
  future : s.futures i = .pending ∨ ∃ payload, s.futures i = .result payload

namespace State.Unharmed

lemma requesting (h : s.Unharmed c i frame register k) : s.Requesting c frame register i := by
  obtain ⟨n, fl, hl, hi⟩ := h.lock
  exact ⟨k, n, fl, hl, hi⟩

/-- A delivery that is not interrupted raises nothing. -/
lemma not_raised (h : s.Unharmed c i frame register k) {n : ℕ} {fl : Flight} {cn : Cancellation}
    {task : SendTask} {x : Exc}
    (hl : s.lock = some (.delivering c (.request frame register) k n fl))
    (hc : s.calls c = some ⟨.inside, cn⟩) (ht : s.sendTasks fl.id = some task) :
    Delivery.resume fl.point cn.mustCancel task.state (s.futures fl.id) ≠ .raised x := by
  obtain ⟨n', fl', hl', rfl⟩ := h.lock
  obtain ⟨cn', hc', hm⟩ := h.call
  obtain ⟨task', ht', hs⟩ := h.send
  rw [hl] at hl'
  cases hl'
  rw [hc] at hc'
  cases hc'
  rw [ht] at ht'
  cases ht'
  intro hx
  rcases Delivery.raised_cases hx with ⟨hm', -⟩ | ⟨o, ho, hout⟩ | ⟨-, -, hf⟩
  · rw [hm] at hm'
    cases hm'
  · rw [ho] at hs
    rcases hs with (hs | hs) | hs
    · cases hs
    · cases hs
    · cases hs
      cases hout
  · rcases h.future with hp | ⟨payload, hp⟩ <;> rw [hp] at hf <;> obtain hf | ⟨hf, -⟩ := hf <;>
      cases hf

/-- The steps of others. -/
private lemma step_of_frame (h : s.Unharmed c i frame register k) (hst : Step s e s')
    (he : Uninterrupted c i e) (hcall : e.call ≠ some c)
    (hdrop : e = .disconnect → s.futures i ≠ .pending) : s'.Unharmed c i frame register k := by
  obtain ⟨n, fl, hl, hi⟩ := h.lock
  obtain ⟨cn, hc, hm⟩ := h.call
  obtain ⟨task, ht, hs⟩ := h.send
  refine ⟨⟨n, fl, hst.lock_frame hl hcall, hi⟩, ⟨cn, (hst.calls_frame hcall).trans hc, hm⟩, ?_, ?_⟩
  · have hchange := hst.sendTasks_cases i
    generalize s'.sendTasks i = t at hchange
    cases hchange with
    | same ht' => exact ⟨task, ht'.trans ht, hs⟩
    | create => exact ⟨_, rfl, .inl (.inl rfl)⟩
    | start => exact ⟨_, rfl, .inl (.inr rfl)⟩
    | finish =>
      obtain rfl := he.2.2 _ rfl
      exact ⟨_, rfl, .inr rfl⟩
    | unwind ht' hu =>
      rw [ht] at ht'
      cases ht'
      rw [hu] at hs
      rcases hs with (hs | hs) | hs <;> cases hs
    | cancel hl' _ _ he' =>
      rw [hl] at hl'
      cases hl'
      obtain rfl | rfl | rfl := he' <;> exact absurd rfl hcall
  · have hchange := hst.futures_cases i
    generalize s'.futures i = f at hchange
    cases hchange with
    | same hf => exact hf ▸ h.future
    | answer => exact .inr ⟨_, rfl⟩
    | drop hf => exact absurd hf (hdrop rfl)
    | cancel hl' _ _ _ he' =>
      rw [hl] at hl'
      cases hl'
      obtain rfl | rfl := he' <;> exact absurd rfl hcall

/-- An exchange that is not interrupted goes on, or its call leaves it with the payload that its
future was resolved with. -/
lemma step (h : s.Unharmed c i frame register k) (hst : Step s e s') (he : Uninterrupted c i e)
    (hdrop : e = .disconnect → s.futures i ≠ .pending) :
    s'.Unharmed c i frame register k ∨
      ∃ payload cn, s.futures i = .result payload ∧
        s'.calls c = some ⟨.running (k (.ok payload)), cn⟩ := by
  by_cases hcall : e.call = some c
  · obtain ⟨n, fl, hl, rfl⟩ := h.lock
    obtain ⟨cn, hc, hm⟩ := h.call
    obtain ⟨task, ht, -⟩ := h.send
    cases hst.delivering hcall hc hl ht with
    | awaitSend | awaitReply => exact .inl ⟨⟨n, _, rfl, rfl⟩, ⟨cn, hc, hm⟩, h.send, h.future⟩
    | reply _ hf => exact .inr ⟨_, _, hf, Function.update_self _ _ _⟩
    | failed _ hf =>
      rcases h.future with hp | ⟨payload, hp⟩ <;> rw [hp] at hf <;> obtain hf | ⟨hf, -⟩ := hf <;>
        cases hf
    | raised hd => exact absurd hd (h.not_raised hl hc ht)
    | cancel => exact absurd rfl he.1
    | expire => exact absurd rfl he.2.1
  · exact .inl (h.step_of_frame hst he hcall hdrop)

/-- Until its answer comes, a call waits for it. -/
theorem of_unanswered {timeoutHint : Option String} {password : Option ℤ} {es : List (Event β)}
    (h : s.Unharmed c i frame register k) (hs : s.Consistent) (hf : s.futures i = .pending)
    (hrun : Run (machine β timeoutHint password) (fun _ e => Uninterrupted c i e ∧ e ≠ .disconnect ∧
      ∀ payload, e = .notify payload → ¬ Answers payload register frame.flag) s es t) :
    t.Unharmed c i frame register k ∧ t.futures i = .pending := by
  have hstep : ∀ (u : State β) e v, u.Consistent →
      u.Unharmed c i frame register k ∧ u.futures i = .pending →
      Uninterrupted c i e ∧ e ≠ .disconnect ∧
        (∀ payload, e = .notify payload → ¬ Answers payload register frame.flag) →
      Step u e v → v.Unharmed c i frame register k ∧ v.futures i = .pending := by
    rintro u e v hu ⟨hun, hf⟩ ⟨he, hd, hn⟩ hst
    have hkeep : v.futures i = .pending := by
      have hchange := hst.futures_cases i
      generalize v.futures i = f at hchange
      cases hchange with
      | same hf' => exact hf'.trans hf
      | @answer payload register' w ha hw hi =>
        have hlookup := hun.requesting.lookup hu hf
        obtain ⟨n, fl, hl, rfl⟩ := hun.lock
        obtain ⟨rfl, rfl⟩ := Waiters.lookup_singleton.1
          ((hu.flying _ _ _ _ _ hl).waiters_of_pending hf ▸ hw)
        exact absurd ha (hn payload rfl)
      | drop => exact absurd rfl hd
      | cancel hl' hi hp _ he' =>
        obtain ⟨n, fl, hl, -⟩ := hun.lock
        rw [hl] at hl'
        cases hl'
        obtain rfl | rfl := he'
        · exact absurd rfl he.1
        · exact absurd rfl he.2.1
    refine ⟨?_, hkeep⟩
    rcases hun.step hst he fun h => absurd h hd with h | ⟨payload, -, hf', -⟩
    · exact h
    · rw [hf] at hf'
      cases hf'
  exact invariant_of_run hstep hrun hs ⟨h, hf⟩

/-- Once its answer has come, a call waits for its send only, and then goes on with the answer. -/
theorem of_answered {timeoutHint : Option String} {password : Option ℤ} {es : List (Event β)}
    {payload : Bytes} {r : Except Exc β} (h : s.Unharmed c i frame register k) (hs : s.Consistent)
    (hf : s.futures i = .result payload) (hk : k (.ok payload) = .pure r)
    (hrun : Run (machine β timeoutHint password) (fun _ e => Uninterrupted c i e) s es t) :
    t.Unharmed c i frame register k ∧ t.futures i = .result payload ∨ t.EndsWith c r := by
  have hstep : ∀ (u : State β) e v, u.Consistent →
      u.Unharmed c i frame register k ∧ u.futures i = .result payload ∨ u.EndsWith c r →
      Uninterrupted c i e → Step u e v →
      v.Unharmed c i frame register k ∧ v.futures i = .result payload ∨ v.EndsWith c r := by
    rintro u e v hu (⟨hun, hf⟩ | hend) he hst
    · rcases hun.step hst he fun _ => by simp [hf] with h | ⟨payload', cn, hf', hc⟩
      · exact .inl ⟨h, (hst.future_done (by simp [hf])).trans hf⟩
      · rw [hf] at hf'
        cases hf'
        rw [hk] at hc
        exact .inr ⟨_, cn, hc, .inl rfl⟩
    · exact .inr (hend.step hu hst)
  exact invariant_of_run hstep hrun hs (.inl ⟨h, hf⟩)

/-- A call that has its answer and whose send has returned goes on. -/
lemma exists_run (h : s.Unharmed c i frame register k) {payload : Bytes} {task : SendTask}
    (hf : s.futures i = .result payload) (ht : s.sendTasks i = some task)
    (hd : task.state = .done .returned) :
    ∃ s' cn, s.step (.run c) = some s' ∧ s'.calls c = some ⟨.running (k (.ok payload)), cn⟩ := by
  obtain ⟨n, fl, hl, rfl⟩ := h.lock
  obtain ⟨cn, hc, hm⟩ := h.call
  have hres : Delivery.resume fl.point cn.mustCancel task.state (.result payload) = .delivered := by
    rw [hm, hd]
    cases fl.point <;> rfl
  simp only [State.step, State.runCall, hc, Option.bind_eq_bind, Option.bind_some, hl, if_true,
    State.runDelivering, ht, hf, hres]
  exact ⟨_, _, rfl, Function.update_self _ _ _⟩

end State.Unharmed

/-- A frame that has just been launched is on its way. -/
lemma unharmed_of_launch (hst : Step s (.run c) s') (hs : s.Consistent)
    (hn : ¬ s.Requesting c frame register i) (hr : s'.Requesting c frame register i) :
    ∃ k, s'.Unharmed c i frame register k ∧ s'.futures i = .pending := by
  obtain ⟨k, n, fl, hl, rfl⟩ := hr
  have hsame : ∀ fl' : Flight, fl'.id = fl.id →
      s.lock ≠ some (.delivering c (.request frame register) k n fl') := fun fl' hid hl' =>
    hn ⟨k, n, fl', hl', hid⟩
  refine ⟨k, ?_⟩
  cases hst with
  | @enter _ j k' cn hc hm hl' =>
    have hg := s.goesOn_enter c cn j k'
    generalize s.enter c cn j k' = t at hg hl ⊢
    cases hg with
    | release => cases hl
    | launch hj =>
      cases hl
      have hf := (hs.unborn _ le_rfl).2
      exact ⟨⟨⟨0, _, rfl, rfl⟩, ⟨cn, Function.update_self _ _ _, hm⟩,
        ⟨⟨c, _, .created⟩, Function.update_self _ _ _, .inl (.inl rfl)⟩, .inl hf⟩, hf⟩
  | awaitSend _ hl' | awaitReply _ hl' =>
    cases hl
    exact absurd hl' (hsame _ rfl)
  | next =>
    obtain ⟨fl', hd, -⟩ := (State.goesOn_nextFrame _ _ _ _ _ _).lock hl
    cases hd
  | reply | failed | raised | collect | stop => cases hl
  | _ => exact absurd hl (hsame _ rfl)

/-! ### The program of a command -/

/-- A command once its password is known. -/
def sendControl (f : Unit → β) (command : Command) (n : ℤ) : Program (Except Exc β) :=
  match buildControl command n with
  | .error x => .pure (.error x)
  | .ok frame => .op (.locked (.request frame Register.control.value)) fun r =>
      .pure ((r.bind (checkControlReply frame)).map f)

lemma run_asyncSendControl (f : Unit → β) (command : Command) :
    (f <$> asyncSendControl command).run = .op .getPassword fun
      | some n => sendControl f command n
      | none => .op (.locked (.request passwordFrame Register.password.value)) fun r =>
          match r.bind passwordOf with
          | .error x => .pure (.error x)
          | .ok n => .op (.setPassword n) fun _ => sendControl f command n := by
  have hsend : ∀ n, (f <$> (do
      let frame ← raising (buildControl command n)
      let reply ← request frame Register.control.value
      raising (checkControlReply frame reply) : Client Unit)).run = sendControl f command n := by
    intro n
    unfold sendControl
    cases buildControl command n with
    | error x => rfl
    | ok frame =>
      refine congrArg (Prog.op (Op.locked (.request frame Register.control.value))) (funext fun r => ?_)
      cases r with
      | error x => rfl
      | ok reply =>
        change (f <$> raising (checkControlReply frame reply)).run = _
        rw [Except.bind]
        cases checkControlReply frame reply <;> rfl
  unfold asyncSendControl asyncRequirePassword
  refine congrArg (Prog.op Op.getPassword) (funext fun r => ?_)
  cases r with
  | some n => exact hsend n
  | none =>
    rw [asyncGetPassword_eq]
    refine congrArg (Prog.op (Op.locked (.request passwordFrame Register.password.value)))
      (funext fun r => ?_)
    cases r with
    | error x => rfl
    | ok payload =>
      change ((raising (passwordOf payload)).run >>= _ >>= _ >>= _) = _
      rw [Except.bind]
      cases passwordOf payload with
      | error x => rfl
      | ok n => exact congrArg (Prog.op (Op.setPassword n)) (funext fun _ => hsend n)

/-- The request of a command goes on to the verdict. -/
private lemma eq_of_sendControl {f : Unit → β} {command : Command} {n : ℤ}
    {tr : List (Σ o : Op, Op.Result o)}
    (h : (sendControl f command n).Residual tr
      (.op (.locked (.request frame Register.control.value)) k)) :
    k = fun r => .pure ((r.bind (checkControlReply frame)).map f) := by
  unfold sendControl at h
  split at h
  · obtain ⟨-, h⟩ := h.of_pure
    cases h
  · rcases h.of_op with ⟨-, h⟩ | ⟨r, tr', -, h⟩
    · cases h
      rfl
    · obtain ⟨-, h⟩ := h.of_pure
      cases h

lemma eq_of_residual {f : Unit → β} {command : Command} {tr : List (Σ o : Op, Op.Result o)}
    (h : (f <$> asyncSendControl command).run.Residual tr
      (.op (.locked (.request frame Register.control.value)) k)) :
    k = fun r => .pure ((r.bind (checkControlReply frame)).map f) := by
  rw [run_asyncSendControl] at h
  rcases h.of_op with ⟨-, h⟩ | ⟨r, tr', -, h⟩
  · cases h
  cases r with
  | some n => exact eq_of_sendControl h
  | none =>
    rcases h.of_op with ⟨-, h⟩ | ⟨r, tr'', -, h⟩
    · have hr := (Job.request.inj (Op.locked.inj (Prog.op.inj h).1)).2
      exact absurd hr (by decide)
    · cases hp : r.bind passwordOf with
      | error x =>
        simp only [hp] at h
        obtain ⟨-, h⟩ := h.of_pure
        cases h
      | ok n =>
        simp only [hp] at h
        rcases h.of_op with ⟨-, h⟩ | ⟨_, tr₃, -, h⟩
        · cases h
        · exact eq_of_sendControl h

/-! ### Runs -/

/-- A call that has nothing left to do but end needs only to be resumed. -/
lemma finishes_of_endsWith {timeoutHint : Option String} {password : Option ℤ} {r : Except Exc β}
    (h : s.EndsWith c r) : ∃ n t, Run (machine β timeoutHint password) Always s
      (List.replicate n (.run c)) t ∧ ∃ cn, t.calls c = some ⟨.finished r, cn⟩ := by
  obtain ⟨phase, cn, hc, rfl | rfl⟩ := h
  · have hst : s.step (.run c) = some (s.setPhase c (.finished r) cn) := by
      simp only [State.step, State.runCall, hc, Option.bind_eq_bind, Option.bind_some]
    exact ⟨1, _, .single trivial hst, cn, Function.update_self _ _ _⟩
  · exact ⟨0, s, .nil s, cn, hc⟩

/-- From its launch to its end, a command that is not interrupted has one answer that counts. -/
private lemma decided {timeoutHint : Option String} {password : Option ℤ} {es₁ es₂ : List (Event β)}
    {u v : State β} {payload : Bytes} {r : Except Exc β}
    (h : u.Unharmed c i frame register k) (hu : u.Consistent) (hf : u.futures i = .pending)
    (hk : k (.ok payload) = .pure r)
    (h₁ : Run (machine β timeoutHint password) (fun _ e => Uninterrupted c i e ∧ e ≠ .disconnect ∧
      ∀ payload, e = .notify payload → ¬ Answers payload register frame.flag) u es₁ v)
    (ha : Answers payload register frame.flag)
    (h₂ : Run (machine β timeoutHint password) (fun _ e => Uninterrupted c i e) v
      (.notify payload :: es₂) s) :
    s.Unharmed c i frame register k ∧ s.futures i = .result payload ∨ s.EndsWith c r := by
  obtain ⟨hv, hf⟩ := h.of_unanswered hu hf h₁
  have hvs : v.Consistent := invariant_of_run (fun _ _ _ hu _ _ hst => hu.step hst) h₁ hu hu
  obtain ⟨w, hw, -, hres⟩ := resolved_of_answers hv.requesting hvs hf ha
  cases h₂ with
  | cons he hst h₂ =>
    cases hst.symm.trans hw
    have hst := Step.of_step hw
    rcases hv.step hst he nofun with hw | ⟨payload', -, hf', -⟩
    · exact hw.of_answered (hvs.step hst) hres hk h₂
    · rw [hf] at hf'
      cases hf'

/-- The password of a command, if it was configured and if it was not. -/
lemma bytes_of_sourced {es : List (Event β)} {password : Option ℤ} {command : Command} {n : ℤ}
    (hn : Sourced password es n) (hf : buildControl command n = .ok frame) :
    (∀ n, password = some n → ∃ b₁ b₂ b₃, n = passwordValue b₁ b₂ b₃ ∧
      frame.bytes = [0x10, 0xAC, 0x3C, 0x01, UInt8.ofNat command.value, b₁, b₂, b₃]) ∧
    (password = none → ∃ reply b₀ b₁ b₂ b₃, .notify reply ∈ es ∧
      Answers reply Register.password.value Operation.read.value ∧
      (reply.drop 4).take 4 = [b₀, b₁, b₂, b₃] ∧
      frame.bytes = [0x10, 0xAC, 0x3C, 0x01, UInt8.ofNat command.value, b₁, b₂, b₃]) := by
  obtain ⟨b₁, b₂, b₃, rfl, rfl⟩ := buildControl_iff.1 hf
  cases hn with
  | configured hp =>
    subst hp
    refine ⟨fun n hn => ?_, nofun⟩
    cases hn
    exact ⟨b₁, b₂, b₃, rfl, rfl⟩
  | @read reply hp hmem ha hr =>
    subst hp
    obtain ⟨b₀, b₁', b₂', b₃', hvalue, he⟩ := passwordOf_iff.1 hr
    obtain ⟨rfl, rfl, rfl⟩ := passwordValue_injective he
    exact ⟨nofun, fun _ => ⟨reply, b₀, b₁, b₂, b₃, hmem, ha, hvalue, rfl⟩⟩

/-- An event while the answer to a command is yet to come: the link does not drop, and no payload
answers it. -/
def Awaits (c i : ℕ) (_ : State β) (e : Event β) : Prop :=
  Uninterrupted c i e ∧ e ≠ .disconnect ∧ ∀ payload, e = .notify payload →
    ¬ Answers payload Register.control.value Operation.write.value

end

lemma eval_asyncGetPassword (answer : (o : Op) → Op.Result o) : asyncGetPassword.run.eval answer =
    (answer (.locked (.request passwordFrame Register.password.value))).bind passwordOf := by
  rw [asyncGetPassword_eq]
  change Prog.eval answer ((Prog.pure (answer (.locked (.request passwordFrame
    Register.password.value))) : Program _) >>= ExceptT.bindCont _) = _
  cases answer (.locked (.request passwordFrame Register.password.value)) <;> rfl

/-- Every password of three bytes makes a frame with each command, no two of them the same and none
of them the refusal. In every run of methods, a command goes out with the password that was
configured, or with the last three bytes of one that was read. The first payload that answers it
decides the call, if neither the caller nor the deadline interrupts it. -/
theorem control_commands :
    (∀ command n, 0 ≤ n → n ≤ 0xFFFFFF → ∃ frame, buildControl command n = .ok frame) ∧
    (∀ command n frame, buildControl command n = .ok frame → frame.bytes ≠ refusalBytes) ∧
    (∀ command n command' n' frame, buildControl command n = .ok frame →
      buildControl command' n' = .ok frame → command = command' ∧ n = n') ∧
    (∀ (answer : (o : Op) → Op.Result o) n, asyncGetPassword.run.eval answer = .ok n →
      ∀ command, ∃ frame, buildControl command n = .ok frame) ∧
    ∀ (β : Type) (timeoutHint : Option String) (password : Option ℤ) (es₀ es₁ es₂ : List (Event β))
      (t u v s : State β) (c i m : ℕ) (command : Command) (f : Unit → β) (frame : Frame)
      (payload : Bytes),
      ClientRun timeoutHint password OnlyMethods es₀ t →
      .spawn c (f <$> asyncSendControl command).run m ∈ es₀ →
      t.step (.run c) = some u → ¬ t.Requesting c frame Register.control.value i →
      u.Requesting c frame Register.control.value i →
      Run (machine β timeoutHint password) (Awaits c i) u es₁ v →
      Answers payload Register.control.value Operation.write.value →
      Run (machine β timeoutHint password) (fun _ e => Uninterrupted c i e) v
        (.notify payload :: es₂) s →
      (∃ state, s.sendTasks i = some ⟨c, frame, state⟩) ∧
      (∀ n, password = some n → ∃ b₁ b₂ b₃, n = passwordValue b₁ b₂ b₃ ∧
        frame.bytes = [0x10, 0xAC, 0x3C, 0x01, UInt8.ofNat command.value, b₁, b₂, b₃]) ∧
      (password = none → ∃ reply b₀ b₁ b₂ b₃, .notify reply ∈ es₀ ∧
        Answers reply Register.password.value Operation.read.value ∧
        (reply.drop 4).take 4 = [b₀, b₁, b₂, b₃] ∧
        frame.bytes = [0x10, 0xAC, 0x3C, 0x01, UInt8.ofNat command.value, b₁, b₂, b₃]) ∧
      (∀ r cn, s.calls c = some ⟨.finished r, cn⟩ →
        (r = .ok (f ()) ↔ payload = frame.bytes) ∧
        ((∃ m, r = .error (.spinEv .commandRejected m)) ↔ payload = refusalBytes) ∧
        ((∃ m, r = .error (.spinEv .protocol m)) ↔
          payload ≠ frame.bytes ∧ payload ≠ refusalBytes)) ∧
      ∀ task, s.sendTasks i = some task → task.state = .done .returned →
        ∃ n t', Run (machine β timeoutHint password) Always s (List.replicate n (.run c)) t' ∧
          ∃ r cn, t'.calls c = some ⟨.finished r, cn⟩ := by
  refine ⟨fun command n h h' => ⟨_, buildControl_eq_ok.2 ⟨⟨h, h'⟩, rfl⟩⟩,
    fun command n frame => bytes_ne_refusalBytes,
    fun command n command' n' frame => buildControl_injective, fun answer n h command => ?_, ?_⟩
  · rw [eval_asyncGetPassword] at h
    cases hr : answer (.locked (.request passwordFrame Register.password.value)) with
    | error x =>
      rw [hr] at h
      cases h
    | ok payload =>
      rw [hr] at h
      obtain ⟨b₀, b₁, b₂, b₃, -, rfl⟩ := passwordOf_iff.1 h
      exact ⟨_, buildControl_iff.2 ⟨b₁, b₂, b₃, rfl, rfl⟩⟩
  · intro β timeoutHint password es₀ es₁ es₂ t u v s c i m command f frame payload h₀ hspawn hlaunch hn
      hr h₁ ha h₂
    have hu : ClientRun timeoutHint password OnlyMethods (es₀ ++ [.run c]) u :=
      h₀.append (.single trivial hlaunch)
    have hspawn' : .spawn c (f <$> asyncSendControl command).run m ∈ es₀ ++ [.run c] :=
      List.mem_append_left _ hspawn
    obtain ⟨n, hsrc, hf⟩ := sourced_of_requesting hu hspawn' hr
    obtain ⟨hconf, hread⟩ := bytes_of_sourced hsrc hf
    obtain ⟨k, hun, hpending⟩ :=
      unharmed_of_launch (Step.of_step hlaunch) (State.consistent_of_run h₀) hn hr
    obtain ⟨n', fl, hl, -⟩ := hun.lock
    have hk : k (.ok payload) = .pure ((checkControlReply frame payload).map f) := by
      cases traced_of_run hu hspawn' (.delivering hl) with
      | went hres => rw [eq_of_residual hres]; rfl
      | cancelled hp => cases hp
    have hus := State.consistent_of_run hu
    have hflag : frame.flag = Operation.write.value := by
      obtain ⟨b₁, b₂, b₃, -, rfl⟩ := buildControl_iff.1 hf
      rfl
    unfold Awaits at h₁
    rw [← hflag] at h₁ ha
    have hdone := decided hun hus hpending hk h₁ ha h₂
    rw [hflag] at ha
    refine ⟨?_, hconf, fun hp => ?_, fun r cn hc => ?_, fun task ht hd => ?_⟩
    · obtain ⟨n, fl, hl, rfl⟩ := hun.lock
      obtain ⟨frame', state, hj, ht⟩ := (hus.flying _ _ _ _ _ hl).task
      obtain ⟨-, rfl⟩ := Job.frames_request hj
      have hstep : ∀ (w : State β) e w', w.Consistent → w.Carries c fl.id frame' →
          Always w e → Step w e w' → w'.Carries c fl.id frame' := fun _ _ _ hw hc _ hst =>
        hc.step hw hst
      exact invariant_of_run hstep (h₁.always.append h₂.always) hus ⟨state, ht⟩
    · obtain ⟨reply, b₀, b₁, b₂, b₃, hmem, hreply⟩ := hread hp
      exact ⟨reply, b₀, b₁, b₂, b₃, by simpa using hmem, hreply⟩
    · rcases hdone with ⟨hs, -⟩ | ⟨phase, cn', hc', hp⟩
      · obtain ⟨cn', hc', -⟩ := hs.call
        rw [hc] at hc'
        cases hc'
      · rw [hc] at hc'
        cases hc'
        obtain hp | hp := hp <;> cases hp
        exact (verdict_checkControlReply hf ha).iff (bytes_ne_refusalBytes hf)
    · rcases hdone with ⟨hs, hres⟩ | hend
      · obtain ⟨s', cn, hst, hc⟩ := hs.exists_run hres ht hd
        rw [hk] at hc
        obtain ⟨n, t', hrun, cn', hc'⟩ := finishes_of_endsWith (s := s') ⟨_, cn, hc, .inl rfl⟩
        exact ⟨n + 1, t', .cons trivial hst hrun, _, cn', hc'⟩
      · obtain ⟨n, t', hrun, cn, hc⟩ := finishes_of_endsWith hend
        exact ⟨n, t', hrun, _, cn, hc⟩

/-- A client without a password starts a session, and the charger has answered the read of the
password. -/
def readPasswordEvents : List (Event Unit) :=
  [.link true, .spawn 0 (id <$> asyncSendControl .start).run 0, .run 0, .run 0, .run 0, .run 0,
    .sendStart 0, .notify [0x10, 0xAC, 0x32, 0x00, 0xFF, 0xAB, 0xCD, 0xEF], .sendEnd 0 .returned,
    .run 0, .run 0, .run 0]

/-- The high byte of the password is not sent, and the echo of the command confirms it. -/
theorem control_commands_high_byte :
    ∃ t u v s, ClientRun none none Always readPasswordEvents t ∧ t.step (.run 0) = some u ∧
      Run (machine Unit none none) Always u [.sendStart 1, .sendEnd 1 .returned] v ∧
      Run (machine Unit none none) Always v
        [.notify [0x10, 0xAC, 0x3C, 0x01, 0x01, 0xAB, 0xCD, 0xEF], .run 0, .run 0] s ∧
      s.Carries 0 1 (controlFrame .start 0xAB 0xCD 0xEF) ∧
      ∃ r cn, s.calls 0 = some ⟨.finished r, cn⟩ ∧ (r = .ok () ↔
        [0x10, 0xAC, 0x3C, 0x01, 0x01, 0xAB, 0xCD, 0xEF] =
          (controlFrame .start 0xAB 0xCD 0xEF).bytes) := by
  have hall : ∃ t u v s, ClientRun none none Always readPasswordEvents t ∧
      t.step (.run 0) = some u ∧
      Run (machine Unit none none) Always u [.sendStart 1, .sendEnd 1 .returned] v ∧
      Run (machine Unit none none) Always v
        [.notify [0x10, 0xAC, 0x3C, 0x01, 0x01, 0xAB, 0xCD, 0xEF], .run 0, .run 0] s ∧
      t.lock = none ∧
      u.Requesting 0 (controlFrame .start 0xAB 0xCD 0xEF) Register.control.value 1 ∧
      ∃ r cn, s.calls 0 = some ⟨.finished r, cn⟩ :=
    ⟨_, _, _, _, Run.of_exec rfl, rfl, Run.of_exec rfl, Run.of_exec rfl, rfl, ⟨_, _, _, rfl, rfl⟩,
      _, _, rfl⟩
  obtain ⟨t, u, v, s, hrun, hlaunch, h₁, h₂, hfree, hr, r, cn, hc⟩ := hall
  have h₀ : ClientRun none none OnlyMethods readPasswordEvents t := onlyMethods_of_mem hrun <| by
    simp only [readPasswordEvents, List.forall_mem_cons]
    simp only [OnlyMethods, implies_true, true_and, List.not_mem_nil, false_implies, and_true]
    exact fun _ => ⟨.control .start, id, rfl⟩
  have hn : ¬ t.Requesting 0 (controlFrame .start 0xAB 0xCD 0xEF) Register.control.value 1 := by
    rintro ⟨k, n, fl, hl, -⟩
    cases hfree.symm.trans hl
  have h₁' : Run (machine Unit none none) (Awaits 0 1) u _ v := h₁.mem.mono fun _ e he => by
    obtain ⟨-, he⟩ := he
    simp only [List.mem_cons, List.not_mem_nil, or_false] at he
    rcases he with rfl | rfl <;> simp [Awaits, Uninterrupted]
  have h₂' : Run (machine Unit none none) (fun _ e => Uninterrupted 0 1 e) v _ s :=
    h₂.mem.mono fun _ e he => by
      obtain ⟨-, he⟩ := he
      simp only [List.mem_cons, List.not_mem_nil, or_false] at he
      rcases he with rfl | rfl | rfl <;> simp [Uninterrupted]
  have hend := control_commands.2.2.2.2 Unit none none readPasswordEvents _ _ t u v s 0 1 0 .start id
    _ _ h₀ (.tail _ (.head _)) hlaunch hn hr h₁' (by decide) h₂'
  exact ⟨t, u, v, s, hrun, hlaunch, h₁, h₂, hend.1, r, cn, hc, (hend.2.2.2.1 r cn hc).1⟩

/-- A client with the password 5 starts a session. -/
def startSessionEvents : List (Event Unit) :=
  [.link true, .spawn 0 (id <$> asyncSendControl .start).run 0, .run 0, .run 0, .run 0]

/-- An echo that comes before any drop or deadline decides how its command ends, whatever steps
allowed by `P` come after it. -/
def EchoDecides (P : ℕ → Event Unit → Prop) : Prop :=
  ∀ (password : Option ℤ) (es₀ es₁ es₂ : List (Event Unit)) (t u v s : State Unit)
    (c i m : ℕ) (command : Command) (frame : Frame) (payload : Bytes),
    ClientRun none password OnlyMethods es₀ t →
    .spawn c (id <$> asyncSendControl command).run m ∈ es₀ →
    t.step (.run c) = some u → ¬ t.Requesting c frame Register.control.value i →
    u.Requesting c frame Register.control.value i →
    Run (machine Unit none password) (Awaits c i) u es₁ v →
    Answers payload Register.control.value Operation.write.value →
    Run (machine Unit none password) (fun _ e => P c e) v (.notify payload :: es₂) s →
    s.Delivered c i frame →
    ∀ r cn, s.calls c = some ⟨.finished r, cn⟩ → (r = .ok () ↔ payload = frame.bytes)

/-- The frame is delivered and its echo comes first, but `e` makes the call that has not yet resumed
raise. -/
private lemma not_echoDecides {P : ℕ → Event Unit → Prop} {e : Event Unit}
    (hall : ∃ t u v s, ClientRun none (some 5) Always startSessionEvents t ∧
      t.step (.run 0) = some u ∧
      Run (machine Unit none (some 5)) Always u [.sendStart 0, .sendEnd 0 .returned, .run 0] v ∧
      Run (machine Unit none (some 5)) Always v
        [.notify (controlFrame .start 0 0 5).bytes, e, .run 0, .run 0] s ∧
      t.lock = none ∧
      u.Requesting 0 (controlFrame .start 0 0 5) Register.control.value 0 ∧
      s.Delivered 0 0 (controlFrame .start 0 0 5) ∧
      ∃ x cn, s.calls 0 = some ⟨.finished (.error x), cn⟩)
    (hn : ∀ payload, P 0 (.notify payload)) (he : P 0 e) (hr : P 0 (.run 0)) :
    ¬ EchoDecides P := by
  intro h
  obtain ⟨t, u, v, s, hrun, hlaunch, h₁, h₂, hfree, hu, hd, x, cn, hc⟩ := hall
  have h₀ : ClientRun none (some 5) OnlyMethods startSessionEvents t :=
    onlyMethods_of_mem hrun <| by
      simp only [startSessionEvents, List.forall_mem_cons]
      simp only [OnlyMethods, implies_true, true_and, List.not_mem_nil, false_implies, and_true]
      exact fun _ => ⟨.control .start, id, rfl⟩
  have ht : ¬ t.Requesting 0 (controlFrame .start 0 0 5) Register.control.value 0 := by
    rintro ⟨k, n, fl, hl, -⟩
    cases hfree.symm.trans hl
  have h₁' : Run (machine Unit none (some 5)) (Awaits 0 0) u _ v := h₁.mem.mono fun _ e' he' => by
    obtain ⟨-, he'⟩ := he'
    simp only [List.mem_cons, List.not_mem_nil, or_false] at he'
    rcases he' with rfl | rfl | rfl <;> simp [Awaits, Uninterrupted]
  have h₂' : Run (machine Unit none (some 5)) (fun _ e' => P 0 e') v _ s :=
    h₂.mem.mono fun _ e' he' => by
      obtain ⟨-, he'⟩ := he'
      simp only [List.mem_cons, List.not_mem_nil, or_false] at he'
      rcases he' with rfl | rfl | rfl | rfl
      exacts [hn _, he, hr, hr]
  have hok := (h (some 5) _ _ _ t u v s 0 0 0 .start _ _ h₀ (.tail _ (.head _)) hlaunch ht hu h₁'
    (by decide) h₂' hd _ _ hc).2 rfl
  cases hok

/-- The echo is not enough if the deadline passes before the call has ended, or if the call is
cancelled before that. -/
theorem expired_after_echo :
    ¬ EchoDecides (fun c e => e ≠ .cancel c) ∧ ¬ EchoDecides (fun c e => e ≠ .expire c) := by
  constructor
  · refine not_echoDecides (e := .expire 0) ?_ (by simp) (by simp) (by simp)
    exact ⟨_, _, _, _, Run.of_exec rfl, rfl, Run.of_exec rfl, Run.of_exec rfl, rfl,
      ⟨_, _, _, rfl, rfl⟩, rfl, _, _, rfl⟩
  · refine not_echoDecides (e := .cancel 0) ?_ (by simp) (by simp) (by simp)
    exact ⟨_, _, _, _, Run.of_exec rfl, rfl, Run.of_exec rfl, Run.of_exec rfl, rfl,
      ⟨_, _, _, rfl, rfl⟩, rfl, _, _, rfl⟩

end SpinevBle
