import SpinevBle.Charger.Order
import SpinevBle.Charger.Promises
import SpinevBle.Charger.Traces

/-!
# What the reads of several registers return

A method that reads several registers takes the lock for each of them anew, so other calls may come
between. What it returns is nevertheless put together from its own replies: one for each register,
asked for one after the other, each decoded as its register is.
-/

namespace SpinevBle

open Interaction Transition

variable {α β γ : Type} {c : ℕ} {bs : List Block}

/-! ### What code has done when it ends -/

/-- The code can end with `r` when the jobs of call `c` come to this. -/
def Client.Ends (c : ℕ) (x : Client α) (bs : List Block) (r : Except Exc α) : Prop :=
  ∃ tr, x.run.Residual tr (.pure r) ∧ Logged c tr bs

/-- The jobs of a trace in two parts. -/
lemma Logged.of_append {tr₁ tr₂ : List (Σ o : Op, Op.Result o)} (h : Logged c (tr₁ ++ tr₂) bs) :
    ∃ bs₁ bs₂, bs = bs₁ ++ bs₂ ∧ Logged c tr₁ bs₁ ∧ Logged c tr₂ bs₂ := by
  induction tr₁ generalizing bs with
  | nil => exact ⟨[], bs, rfl, .nil, h⟩
  | cons _ tr₁ ih =>
    cases h with
    | quiet ho h =>
      obtain ⟨bs₁, bs₂, rfl, h₁, h₂⟩ := ih h
      exact ⟨bs₁, bs₂, rfl, .quiet ho h₁, h₂⟩
    | passed hx h =>
      obtain ⟨bs₁, bs₂, rfl, h₁, h₂⟩ := ih h
      exact ⟨bs₁, bs₂, rfl, .passed hx h₁, h₂⟩
    | block h =>
      obtain ⟨bs₁, bs₂, rfl, h₁, h₂⟩ := ih h
      exact ⟨_ :: bs₁, bs₂, rfl, .block h₁, h₂⟩

namespace Client.Ends

lemma of_pure {a : α} {r : Except Exc α} (h : Client.Ends c (pure a) bs r) :
    bs = [] ∧ r = .ok a := by
  obtain ⟨tr, hres, hl⟩ := h
  obtain ⟨rfl, hr⟩ := Prog.Residual.of_pure hres
  cases hl
  cases hr
  exact ⟨rfl, rfl⟩

lemma of_raising {x r : Except Exc α} (h : Client.Ends c (raising x) bs r) : bs = [] ∧ r = x := by
  obtain ⟨tr, hres, hl⟩ := h
  obtain ⟨rfl, hr⟩ := Prog.Residual.of_pure hres
  cases hl
  cases hr
  exact ⟨rfl, rfl⟩

lemma not_throw {err : Exc} {a : α} : ¬ Client.Ends c (throw err : Client α) bs (.ok a) := by
  intro h
  cases (of_raising (x := .error err) h).2

lemma of_bind {x : Client α} {f : α → Client γ} {r : Except Exc γ}
    (h : Client.Ends c (x >>= f) bs r) :
    (∃ err, r = .error err ∧ Client.Ends c x bs (.error err)) ∨
      ∃ bs₁ bs₂ a, bs = bs₁ ++ bs₂ ∧ Client.Ends c x bs₁ (.ok a) ∧ Client.Ends c (f a) bs₂ r := by
  obtain ⟨tr, hres, hl⟩ := h
  obtain ⟨tr₁, tr₂, a, rfl, h₁, h₂⟩ := Prog.Residual.of_bind (p := x.run) hres
  obtain ⟨bs₁, bs₂, rfl, hl₁, hl₂⟩ := hl.of_append
  cases a with
  | error err =>
    obtain ⟨hbs, hr⟩ := of_raising (x := .error err) ⟨tr₂, h₂, hl₂⟩
    subst hbs hr
    exact .inl ⟨err, rfl, tr₁, h₁, by simpa using hl₁⟩
  | ok a => exact .inr ⟨bs₁, bs₂, a, rfl, ⟨tr₁, h₁, hl₁⟩, tr₂, h₂, hl₂⟩

lemma of_bind_ok {x : Client α} {f : α → Client γ} {b : γ} (h : Client.Ends c (x >>= f) bs (.ok b)) :
    ∃ bs₁ bs₂ a, bs = bs₁ ++ bs₂ ∧ Client.Ends c x bs₁ (.ok a) ∧
      Client.Ends c (f a) bs₂ (.ok b) := by
  rcases h.of_bind with ⟨err, hr, -⟩ | h
  · cases hr
  · exact h

lemma of_map {x : Client α} {f : α → γ} {b : γ} (h : Client.Ends c (f <$> x) bs (.ok b)) :
    ∃ a, Client.Ends c x bs (.ok a) ∧ b = f a := by
  rw [← bind_pure_comp] at h
  obtain ⟨bs₁, bs₂, a, rfl, hx, hf⟩ := h.of_bind_ok
  obtain ⟨rfl, hb⟩ := hf.of_pure
  cases hb
  exact ⟨a, by rwa [List.append_nil], rfl⟩

lemma of_map_error {x : Client α} {f : α → γ} {err : Exc}
    (h : Client.Ends c (f <$> x) bs (.error err)) : Client.Ends c x bs (.error err) := by
  rw [← bind_pure_comp] at h
  rcases h.of_bind with ⟨err', herr, hx⟩ | ⟨bs₁, bs₂, a, rfl, -, hf⟩
  · cases herr
    exact hx
  · cases hf.of_pure.2

lemma of_tryCatch {x : Client α} {handle : Exc → Client α} {r : Except Exc α}
    (h : Client.Ends c (tryCatch x handle) bs r) :
    (∃ a, r = .ok a ∧ Client.Ends c x bs (.ok a)) ∨
      ∃ bs₁ bs₂ err, bs = bs₁ ++ bs₂ ∧ Client.Ends c x bs₁ (.error err) ∧
        Client.Ends c (handle err) bs₂ r := by
  obtain ⟨tr, hres, hl⟩ := h
  obtain ⟨tr₁, tr₂, a, rfl, h₁, h₂⟩ := Prog.Residual.of_bind (p := x.run) hres
  obtain ⟨bs₁, bs₂, rfl, hl₁, hl₂⟩ := hl.of_append
  cases a with
  | error err => exact .inr ⟨bs₁, bs₂, err, rfl, ⟨tr₁, h₁, hl₁⟩, tr₂, h₂, hl₂⟩
  | ok a =>
    obtain ⟨hbs, hr⟩ := of_pure (a := a) ⟨tr₂, h₂, hl₂⟩
    subst hbs hr
    exact .inl ⟨a, rfl, tr₁, h₁, by simpa using hl₁⟩

/-- A job that ends has had the lock, unless it raises the error of one that never had it. -/
lemma of_locked {j : Job} {r : Except Exc j.Value} (h : Client.Ends c (locked j) bs r)
    (hr : ∀ err, r = .error err → ¬ NotEntered err) : bs = [⟨c, j, r⟩] := by
  obtain ⟨tr, hres, hl⟩ := h
  rcases Prog.Residual.of_op hres with ⟨-, hp⟩ | ⟨r', tr, rfl, hk⟩
  · cases hp
  obtain ⟨rfl, hp⟩ := Prog.Residual.of_pure hk
  cases hp
  cases hl with
  | quiet ho => exact absurd rfl (ho j)
  | passed hx => exact absurd hx (hr _ rfl)
  | block hl =>
    cases hl
    rfl

lemma of_request {frame : Frame} {register : UInt8} {payload : Bytes}
    (h : Client.Ends c (request frame register) bs (.ok payload)) :
    bs = [⟨c, .request frame register, .ok payload⟩] :=
  of_locked h fun err hr => by cases hr

end Client.Ends

/-! ### Reads of one register -/

/-- The request that reads a register. -/
def readJob (register : Register) : Job :=
  .request ⟨register.value, Operation.read.value, Word.ofNat 0⟩ register.value

/-- The four bytes of a reply that carry its value. -/
def valueOf (payload : Bytes) : Bytes := (payload.drop 4).take 4

lemma valueBytes_eq_ok {payload value : Bytes} {label : String}
    (h : valueBytes payload label = .ok value) : value = valueOf payload := by
  simp only [valueBytes] at h
  split_ifs at h
  cases h
  rfl

/-- The value in the reply to the read of the register decodes to this. -/
def Told (c : ℕ) (register : Register) (decode : Bytes → Except Exc α) (a : α) (b : Block) : Prop :=
  ∃ payload, b = ⟨c, readJob register, .ok payload⟩ ∧ decode (valueOf payload) = .ok a

/-- The reply to the read of the text register has this text. -/
def ToldText (c : ℕ) (register : Register) (text : String) (b : Block) : Prop :=
  ∃ payload, b = ⟨c, readJob register, .ok payload⟩ ∧ decodeString (payload.drop 4) = text

namespace Client.Ends

lemma of_readRaw {register parameter : ℤ} {raw : Bytes}
    (h : Client.Ends c (asyncReadRaw register parameter) bs (.ok raw)) :
    ∃ frame payload, buildRead register parameter = .ok frame ∧
      bs = [⟨c, .request frame frame.register, .ok payload⟩] ∧ raw = valueOf payload := by
  unfold asyncReadRaw at h
  obtain ⟨bs₁, bs₂, frame, rfl, hbuild, hrest⟩ := h.of_bind_ok
  obtain ⟨rfl, hframe⟩ := hbuild.of_raising
  obtain ⟨bs₁, bs₂, payload, rfl, hrequest, hvalue⟩ := hrest.of_bind_ok
  obtain rfl := hrequest.of_request
  obtain ⟨rfl, hraw⟩ := hvalue.of_raising
  exact ⟨frame, payload, hframe.symm, rfl, valueBytes_eq_ok hraw.symm⟩

lemma of_readValue {register : Register} {decode : Bytes → Except Exc α} {a : α}
    (h : Client.Ends c (readValue register decode) bs (.ok a)) :
    ∃ b, bs = [b] ∧ Told c register decode a b := by
  unfold readValue at h
  obtain ⟨bs₁, bs₂, raw, rfl, hread, hdecode⟩ := h.of_bind_ok
  obtain ⟨rfl, ha⟩ := hdecode.of_raising
  obtain ⟨frame, payload, hframe, rfl, rfl⟩ := hread.of_readRaw
  rw [buildRead_zero] at hframe
  cases hframe
  exact ⟨_, rfl, payload, rfl, ha.symm⟩

/-- A register is read, and then the rest. -/
lemma of_readValue_bind {register : Register} {decode : Bytes → Except Exc α}
    {f : α → Client γ} {r : γ} (h : Client.Ends c (readValue register decode >>= f) bs (.ok r)) :
    ∃ b bs' a, bs = b :: bs' ∧ Told c register decode a b ∧ Client.Ends c (f a) bs' (.ok r) := by
  obtain ⟨bs₁, bs₂, a, rfl, hread, hrest⟩ := h.of_bind_ok
  obtain ⟨b, rfl, hb⟩ := hread.of_readValue
  exact ⟨b, bs₂, a, rfl, hb, hrest⟩

lemma of_readString {register : ℤ} {text : String}
    (h : Client.Ends c (asyncReadString register) bs (.ok text)) :
    ∃ frame payload, buildRead register = .ok frame ∧
      bs = [⟨c, .request frame frame.register, .ok payload⟩] ∧
      text = decodeString (payload.drop 4) := by
  unfold asyncReadString at h
  obtain ⟨bs₁, bs₂, frame, rfl, hbuild, hrest⟩ := h.of_bind_ok
  obtain ⟨rfl, hframe⟩ := hbuild.of_raising
  obtain ⟨bs₁, bs₂, payload, rfl, hrequest, hpure⟩ := hrest.of_bind_ok
  obtain rfl := hrequest.of_request
  obtain ⟨rfl, htext⟩ := hpure.of_pure
  cases htext
  exact ⟨frame, payload, hframe.symm, rfl, rfl⟩

lemma of_readText {register : Register} {text : String}
    (h : Client.Ends c (asyncReadString register.id) bs (.ok text)) :
    ∃ b, bs = [b] ∧ ToldText c register text b := by
  obtain ⟨frame, payload, hframe, rfl, rfl⟩ := h.of_readString
  rw [buildRead_zero] at hframe
  cases hframe
  exact ⟨_, rfl, payload, rfl, rfl⟩

lemma of_readText_bind {register : Register} {f : String → Client γ} {r : γ}
    (h : Client.Ends c (asyncReadString register.id >>= f) bs (.ok r)) :
    ∃ b bs' text, bs = b :: bs' ∧ ToldText c register text b ∧
      Client.Ends c (f text) bs' (.ok r) := by
  obtain ⟨bs₁, bs₂, text, rfl, hread, hrest⟩ := h.of_bind_ok
  obtain ⟨b, rfl, hb⟩ := hread.of_readText
  exact ⟨b, bs₂, text, rfl, hb, hrest⟩

end Client.Ends

/-! ### Reads of the alarms -/

/-- The reply to the read of an alarm bank shows these alarms. A second bank whose read has timed out
shows none. -/
inductive BankTold (c bank : ℕ) : List AlarmDef → Block → Prop
  | replied {frame payload word defs} (hf : buildAlarmRead bank = .ok frame)
      (hw : decodeUInt (valueOf payload) = .ok word) (hd : decodeAlarmDefs word bank = .ok defs) :
      BankTold c bank defs ⟨c, .request frame Register.alarms.value, .ok payload⟩
  | silent {frame m} (hb : bank ≠ 1) (hf : buildAlarmRead bank = .ok frame) :
      BankTold c bank [] ⟨c, .request frame Register.alarms.value, .error (.spinEv .timeout m)⟩

lemma buildAlarmRead_ne_timeout (bank : ℕ) (m : String) :
    buildAlarmRead bank ≠ .error (.spinEv .timeout m) := by
  intro h
  unfold buildAlarmRead checkBank at h
  split_ifs at h
  · rw [bind_ok, buildRead_zero] at h
    cases h
  · rw [bind_ok, buildRead_zero] at h
    cases h
  all_goals cases h

/-- A reply without a word in it is no timeout. -/
lemma word_ne_timeout (payload : Bytes) (label m : String) :
    (valueBytes payload label >>= decodeUInt) ≠ .error (.spinEv .timeout m) := by
  intro h
  simp only [valueBytes] at h
  split_ifs at h
  · cases h
  · rw [bind_ok, decodeUInt] at h
    split_ifs at h
    cases h

lemma word_of_reply {payload : Bytes} {label : String} {word : ℕ}
    (h : (valueBytes payload label >>= decodeUInt) = .ok word) :
    decodeUInt (valueOf payload) = .ok word := by
  obtain ⟨value, hvalue, hword⟩ := bind_eq_ok.1 h
  rwa [valueBytes_eq_ok hvalue] at hword

/-- One alarm word is one request. -/
lemma asyncReadAlarmWord_eq (bank : ℕ) :
    asyncReadAlarmWord bank = (do
      let frame ← raising (buildAlarmRead bank)
      let payload ← request frame Register.alarms.value
      raising (valueBytes payload s!"alarm bank {bank}" >>= decodeUInt)) := by
  simp only [asyncReadAlarmWord, raising_bind_raising]

namespace Client.Ends

lemma of_readAlarmWord {bank word : ℕ}
    (h : Client.Ends c (asyncReadAlarmWord bank) bs (.ok word)) :
    ∃ frame payload, buildAlarmRead bank = .ok frame ∧
      decodeUInt (valueOf payload) = .ok word ∧
      bs = [⟨c, .request frame Register.alarms.value, .ok payload⟩] := by
  rw [asyncReadAlarmWord_eq] at h
  obtain ⟨bs₁, bs₂, frame, rfl, hbuild, hrest⟩ := h.of_bind_ok
  obtain ⟨rfl, hframe⟩ := hbuild.of_raising
  obtain ⟨bs₁, bs₂, payload, rfl, hrequest, hdecode⟩ := hrest.of_bind_ok
  obtain rfl := hrequest.of_request
  obtain ⟨rfl, hword⟩ := hdecode.of_raising
  exact ⟨frame, payload, hframe.symm, word_of_reply hword.symm, rfl⟩

/-- Only the request of an alarm word can time out. -/
lemma of_readAlarmWord_timeout {bank : ℕ} {m : String}
    (h : Client.Ends c (asyncReadAlarmWord bank) bs (.error (.spinEv .timeout m))) :
    ∃ frame, buildAlarmRead bank = .ok frame ∧
      bs = [⟨c, .request frame Register.alarms.value, .error (.spinEv .timeout m)⟩] := by
  rw [asyncReadAlarmWord_eq] at h
  rcases h.of_bind with ⟨err, herr, hbuild⟩ | ⟨bs₁, bs₂, frame, rfl, hbuild, hrest⟩
  · cases herr
    exact absurd hbuild.of_raising.2.symm (buildAlarmRead_ne_timeout bank m)
  obtain ⟨rfl, hframe⟩ := hbuild.of_raising
  refine ⟨frame, hframe.symm, ?_⟩
  rcases hrest.of_bind with ⟨err, herr, hrequest⟩ | ⟨bs₁, bs₂, payload, rfl, hrequest, hdecode⟩
  · cases herr
    refine hrequest.of_locked ?_
    rintro err ⟨⟩ (hn | hn) <;> cases hn
  · exact absurd hdecode.of_raising.2.symm (word_ne_timeout _ _ m)

lemma of_addAlarmDefs {active defs : List AlarmDef} {bank : ℕ}
    (h : Client.Ends c (addAlarmDefs active bank) bs (.ok defs)) :
    ∃ b defs', bs = [b] ∧ defs = active ++ defs' ∧ BankTold c bank defs' b := by
  unfold addAlarmDefs at h
  obtain ⟨bs₁, bs₂, word, rfl, hcatch, hrest⟩ := h.of_bind_ok
  rcases hcatch.of_tryCatch with ⟨_, hw, hread⟩ | ⟨bs₁, bs₃, err, rfl, hread, hhandle⟩
  · cases hw
    obtain ⟨word, hread', rfl⟩ := hread.of_map
    obtain ⟨frame, payload, hframe, hword, rfl⟩ := hread'.of_readAlarmWord
    obtain ⟨bs₁, bs₂, defs', rfl, hdecode, hpure⟩ := hrest.of_bind_ok
    obtain ⟨rfl, hdefs⟩ := hdecode.of_raising
    obtain ⟨rfl, hd⟩ := hpure.of_pure
    cases hd
    exact ⟨_, defs', rfl, rfl, .replied hframe hword hdefs.symm⟩
  · have hfails : Client.Ends c (asyncReadAlarmWord bank) bs₁ (.error err) := hread.of_map_error
    split at hhandle
    · next m =>
      split_ifs at hhandle with hb
      · exact absurd hhandle not_throw
      · obtain ⟨frame, hframe, rfl⟩ := hfails.of_readAlarmWord_timeout
        obtain ⟨rfl, hnone⟩ := hhandle.of_pure
        cases hnone
        obtain ⟨rfl, hd⟩ := hrest.of_pure
        cases hd
        exact ⟨_, [], rfl, (List.append_nil _).symm, .silent hb hframe⟩
    · exact absurd hhandle not_throw

/-- The alarms are two requests, one for each bank. -/
lemma of_getAlarmDefs {defs : List AlarmDef} (h : Client.Ends c asyncGetAlarmDefs bs (.ok defs)) :
    ∃ b₁ b₂ defs₁ defs₂, bs = [b₁, b₂] ∧ defs = defs₁ ++ defs₂ ∧
      BankTold c 1 defs₁ b₁ ∧ BankTold c 2 defs₂ b₂ := by
  have hbanks : alarmBanks = [1, 2] := rfl
  simp only [asyncGetAlarmDefs, hbanks, List.foldlM_cons, List.foldlM_nil] at h
  obtain ⟨bs₁, bs₂, first, rfl, hfirst, hrest⟩ := h.of_bind_ok
  obtain ⟨b₁, defs₁, rfl, rfl, h₁⟩ := hfirst.of_addAlarmDefs
  obtain ⟨bs₂, bs₃, second, rfl, hsecond, hpure⟩ := hrest.of_bind_ok
  obtain ⟨b₂, defs₂, rfl, rfl, h₂⟩ := hsecond.of_addAlarmDefs
  obtain ⟨rfl, hd⟩ := hpure.of_pure
  cases hd
  exact ⟨b₁, b₂, _, defs₂, rfl, rfl, h₁, h₂⟩

lemma of_getAlarms {names : List String} (h : Client.Ends c asyncGetAlarms bs (.ok names)) :
    ∃ defs, names = defs.map AlarmDef.name ∧ Client.Ends c asyncGetAlarmDefs bs (.ok defs) := by
  unfold asyncGetAlarms at h
  obtain ⟨bs₁, bs₂, defs, rfl, hdefs, hpure⟩ := h.of_bind_ok
  obtain ⟨rfl, hn⟩ := hpure.of_pure
  cases hn
  exact ⟨defs, rfl, by rwa [List.append_nil]⟩

end Client.Ends

/-! ### Getters -/

/-- What a getter returns by the replies to its requests. -/
inductive Reads (c : ℕ) : (m : Method) → m.Result → List Block → Prop
  | readRaw {register parameter frame payload} (hf : buildRead register parameter = .ok frame) :
      Reads c (.readRaw register parameter) (valueOf payload)
        [⟨c, .request frame frame.register, .ok payload⟩]
  | readString {register frame payload} (hf : buildRead register = .ok frame) :
      Reads c (.readString register) (decodeString (payload.drop 4))
        [⟨c, .request frame frame.register, .ok payload⟩]
  | state {value state b} (h : Told c .state decodeUInt value b)
      (hs : ChargerState.ofValue? value = some state) : Reads c .getState state [b]
  | stateValue {value b} (h : Told c .state decodeUInt value b) : Reads c .getStateValue value [b]
  | power {a b} (h : Told c .power decodeFloat a b) : Reads c .getPower a [b]
  | voltage {a b} (h : Told c .voltage decodeFloat a b) : Reads c .getVoltage a [b]
  | current {a b} (h : Told c .current decodeFloat a b) : Reads c .getCurrent a [b]
  | currentLimit {a b} (h : Told c .currentLimit decodeFloat a b) : Reads c .getCurrentLimit a [b]
  | alarmDefs {defs₁ defs₂ b₁ b₂} (h₁ : BankTold c 1 defs₁ b₁) (h₂ : BankTold c 2 defs₂ b₂) :
      Reads c .getAlarmDefs (defs₁ ++ defs₂) [b₁, b₂]
  | alarms {defs₁ defs₂ b₁ b₂} (h₁ : BankTold c 1 defs₁ b₁) (h₂ : BankTold c 2 defs₂ b₂) :
      Reads c .getAlarms ((defs₁ ++ defs₂).map AlarmDef.name) [b₁, b₂]
  | status {status : ChargerStatus} {defs₁ defs₂ b₁ b₂ b₃ b₄ b₅ b₆ b₇ b₈ b₉ b₁₀ b₁₁ b₁₂}
      (hstate : status.state = ChargerState.ofValue? status.stateValue)
      (h₁ : Told c .state decodeUInt status.stateValue b₁)
      (h₂ : Told c .power decodeFloat status.powerW b₂)
      (h₃ : Told c .voltage decodeFloat status.voltageV b₃)
      (h₄ : Told c .current decodeFloat status.currentA b₄)
      (h₅ : Told c .currentLimit decodeFloat status.currentLimitA b₅)
      (h₆ : Told c .sessionEnergy decodeEnergy status.sessionEnergyKwh b₆)
      (h₇ : Told c .sessionSeconds decodeUInt status.sessionSeconds b₇)
      (h₈ : Told c .lifetimeEnergy decodeEnergy status.lifetimeEnergyKwh b₈)
      (h₉ : Told c .lifetimeSeconds decodeUInt status.lifetimeSeconds b₉)
      (h₁₀ : Told c .firmwareVersion decodeFirmwareVersion status.firmwareVersion b₁₀)
      (h₁₁ : BankTold c 1 defs₁ b₁₁) (h₁₂ : BankTold c 2 defs₂ b₁₂)
      (halarms : status.alarms = (defs₁ ++ defs₂).map AlarmDef.name) :
      Reads c .getStatus status [b₁, b₂, b₃, b₄, b₅, b₆, b₇, b₈, b₉, b₁₀, b₁₁, b₁₂]
  | password {value : ℕ} {b} (h : Told c .password decodeUInt value b) :
      Reads c .getPassword ((value &&& 0xFFFFFF : ℕ) : ℤ) [b]
  | wifiSsid {text b} (h : ToldText c .wifiSsid text b) : Reads c .getWifiSsid text [b]
  | wifiPassword {text b} (h : ToldText c .wifiPassword text b) : Reads c .getWifiPassword text [b]
  | loadBalancing {config : LoadBalancingConfig} {enabled b₁ b₂ b₃ b₄ b₅ b₆ b₇}
      (henabled : config.enabled = decide (enabled ≠ 0))
      (h₁ : Told c .loadBalancingEnabled decodeUInt enabled b₁)
      (h₂ : Told c .gridCurrentLimit decodeFloat config.gridCurrentLimitA b₂)
      (h₃ : Told c .safeCurrentOffset decodeFloat config.safeCurrentOffsetA b₃)
      (h₄ : Told c .reduceCurrentOffset decodeFloat config.reduceCurrentOffsetA b₄)
      (h₅ : Told c .maxGridPower decodeFloat config.maxGridPowerW b₅)
      (h₆ : Told c .loadBalancingSource decodeUInt config.source b₆)
      (h₇ : Told c .loadBalancingPriority decodeUInt config.priority b₇) :
      Reads c .getLoadBalancing config [b₁, b₂, b₃, b₄, b₅, b₆, b₇]
  | ocppConfig {config : OcppConfig} {port : ℕ} {b₁ b₂ b₃ b₄} (hport : config.port = port)
      (h₁ : ToldText c .ocppHost config.host b₁) (h₂ : Told c .ocppPort decodeUInt port b₂)
      (h₃ : ToldText c .ocppPath config.path b₃)
      (h₄ : ToldText c .ocppChargePointId config.chargePointId b₄) :
      Reads c .getOcppConfig config [b₁, b₂, b₃, b₄]
  | timezone {value b} (h : Told c .timezone decodeUInt value b) :
      Reads c .getTimezone (value >>> 8 &&& 0xFF, value &&& 0xFF) [b]
  | randomDelay {value b} (h : Told c .randomDelay decodeUInt value b) :
      Reads c .getRandomDelay value [b]

/-- The methods that only read registers. -/
def Method.isGetter : Method → Bool
  | .control _ | .set .. | .commit | .getHistory _ => false
  | _ => true

namespace Client.Ends

lemma of_getStatus {status : ChargerStatus}
    (h : Client.Ends c asyncGetStatus bs (.ok status)) : Reads c .getStatus status bs := by
  have hstate : asyncGetStateValue = readValue .state decodeUInt := rfl
  unfold asyncGetStatus at h
  rw [hstate] at h
  obtain ⟨b₁, bs, _, rfl, h₁, h⟩ := h.of_readValue_bind
  obtain ⟨b₂, bs, _, rfl, h₂, h⟩ := h.of_readValue_bind
  obtain ⟨b₃, bs, _, rfl, h₃, h⟩ := h.of_readValue_bind
  obtain ⟨b₄, bs, _, rfl, h₄, h⟩ := h.of_readValue_bind
  obtain ⟨b₅, bs, _, rfl, h₅, h⟩ := h.of_readValue_bind
  obtain ⟨b₆, bs, _, rfl, h₆, h⟩ := h.of_readValue_bind
  obtain ⟨b₇, bs, _, rfl, h₇, h⟩ := h.of_readValue_bind
  obtain ⟨b₈, bs, _, rfl, h₈, h⟩ := h.of_readValue_bind
  obtain ⟨b₉, bs, _, rfl, h₉, h⟩ := h.of_readValue_bind
  obtain ⟨b₁₀, bs, _, rfl, h₁₀, h⟩ := h.of_readValue_bind
  obtain ⟨bs₁, bs₂, names, rfl, halarms, hpure⟩ := h.of_bind_ok
  obtain ⟨defs, rfl, hdefs⟩ := halarms.of_getAlarms
  obtain ⟨b₁₁, b₁₂, defs₁, defs₂, rfl, rfl, h₁₁, h₁₂⟩ := hdefs.of_getAlarmDefs
  obtain ⟨rfl, hs⟩ := hpure.of_pure
  cases hs
  exact .status rfl h₁ h₂ h₃ h₄ h₅ h₆ h₇ h₈ h₉ h₁₀ h₁₁ h₁₂ rfl

lemma of_getLoadBalancing {config : LoadBalancingConfig}
    (h : Client.Ends c asyncGetLoadBalancing bs (.ok config)) :
    Reads c .getLoadBalancing config bs := by
  unfold asyncGetLoadBalancing at h
  obtain ⟨b₁, bs, enabled, rfl, h₁, h⟩ := h.of_readValue_bind
  obtain ⟨b₂, bs, _, rfl, h₂, h⟩ := h.of_readValue_bind
  obtain ⟨b₃, bs, _, rfl, h₃, h⟩ := h.of_readValue_bind
  obtain ⟨b₄, bs, _, rfl, h₄, h⟩ := h.of_readValue_bind
  obtain ⟨b₅, bs, _, rfl, h₅, h⟩ := h.of_readValue_bind
  obtain ⟨b₆, bs, _, rfl, h₆, h⟩ := h.of_readValue_bind
  obtain ⟨b₇, bs, _, rfl, h₇, h⟩ := h.of_readValue_bind
  obtain ⟨rfl, hc⟩ := h.of_pure
  cases hc
  exact .loadBalancing rfl h₁ h₂ h₃ h₄ h₅ h₆ h₇

lemma of_getOcppConfig {config : OcppConfig}
    (h : Client.Ends c asyncGetOcppConfig bs (.ok config)) :
    Reads c .getOcppConfig config bs := by
  unfold asyncGetOcppConfig at h
  obtain ⟨b₁, bs, _, rfl, h₁, h⟩ := h.of_readText_bind
  obtain ⟨b₂, bs, port, rfl, h₂, h⟩ := h.of_readValue_bind
  obtain ⟨b₃, bs, _, rfl, h₃, h⟩ := h.of_readText_bind
  obtain ⟨b₄, bs, _, rfl, h₄, h⟩ := h.of_readText_bind
  obtain ⟨rfl, hc⟩ := h.of_pure
  cases hc
  exact .ocppConfig rfl h₁ h₂ h₃ h₄

end Client.Ends

lemma reads_of_ends {m : Method} (hm : m.isGetter = true) {a : m.Result}
    (h : Client.Ends c m.program bs (.ok a)) : Reads c m a bs := by
  cases m with
  | control | set | commit | getHistory => cases hm
  | readRaw register parameter =>
    obtain ⟨frame, payload, hframe, rfl, rfl⟩ := Client.Ends.of_readRaw h
    exact .readRaw hframe
  | readString register =>
    obtain ⟨frame, payload, hframe, rfl, rfl⟩ := Client.Ends.of_readString h
    exact .readString hframe
  | getState =>
    have hread : asyncGetStateValue = readValue .state decodeUInt := rfl
    simp only [Method.program, asyncGetState, hread] at h
    obtain ⟨b, bs, value, rfl, hb, hstate⟩ := h.of_readValue_bind
    split at hstate
    · next state hs =>
      obtain ⟨rfl, ha⟩ := hstate.of_pure
      cases ha
      exact .state hb hs
    · exact absurd hstate Client.Ends.not_throw
  | getStateValue =>
    have h : Client.Ends c (readValue .state decodeUInt) bs (.ok a) := h
    obtain ⟨b, rfl, hb⟩ := h.of_readValue
    exact .stateValue hb
  | getPower =>
    obtain ⟨b, rfl, hb⟩ := Client.Ends.of_readValue h
    exact .power hb
  | getVoltage =>
    obtain ⟨b, rfl, hb⟩ := Client.Ends.of_readValue h
    exact .voltage hb
  | getCurrent =>
    obtain ⟨b, rfl, hb⟩ := Client.Ends.of_readValue h
    exact .current hb
  | getCurrentLimit =>
    obtain ⟨b, rfl, hb⟩ := Client.Ends.of_readValue h
    exact .currentLimit hb
  | getAlarmDefs =>
    obtain ⟨b₁, b₂, defs₁, defs₂, rfl, rfl, h₁, h₂⟩ := Client.Ends.of_getAlarmDefs h
    exact .alarmDefs h₁ h₂
  | getAlarms =>
    obtain ⟨defs, rfl, hdefs⟩ := Client.Ends.of_getAlarms h
    obtain ⟨b₁, b₂, defs₁, defs₂, rfl, rfl, h₁, h₂⟩ := hdefs.of_getAlarmDefs
    exact .alarms h₁ h₂
  | getStatus => exact Client.Ends.of_getStatus h
  | getPassword =>
    have hread : asyncGetPassword = (do
        let value ← readValue .password decodeUInt
        return ((value &&& 0xFFFFFF : ℕ) : ℤ)) := by
      simp only [asyncGetPassword, readValue, bind_assoc]
    simp only [Method.program, hread] at h
    obtain ⟨b, bs, value, rfl, hb, hpure⟩ := h.of_readValue_bind
    obtain ⟨rfl, ha⟩ := hpure.of_pure
    cases ha
    exact .password hb
  | getWifiSsid =>
    obtain ⟨b, rfl, hb⟩ := Client.Ends.of_readText h
    exact .wifiSsid hb
  | getWifiPassword =>
    obtain ⟨b, rfl, hb⟩ := Client.Ends.of_readText h
    exact .wifiPassword hb
  | getLoadBalancing => exact Client.Ends.of_getLoadBalancing h
  | getOcppConfig => exact Client.Ends.of_getOcppConfig h
  | getTimezone =>
    obtain ⟨b, bs, value, rfl, hb, hpure⟩ := Client.Ends.of_readValue_bind h
    obtain ⟨rfl, ha⟩ := hpure.of_pure
    cases ha
    exact .timezone hb
  | getRandomDelay =>
    obtain ⟨b, rfl, hb⟩ := Client.Ends.of_readValue h
    exact .randomDelay hb

/-! ### All runs -/

variable {timeoutHint : Option String} {password : Option ℤ} {P : State β → Event β → Prop}
  {es : List (Event β)} {s : State β}

/-- A call that has returned has done what its code does when it ends like that. -/
lemma ends_of_run (h : ClientRun timeoutHint password P es s) {x : Client α} {f : α → β} {n : ℕ}
    (hspawn : .spawn c (f <$> x).run n ∈ es) {b : β} {cn : Asyncio.Cancellation}
    (hc : s.calls c = some ⟨.finished (.ok b), cn⟩) :
    ∃ a, b = f a ∧ Client.Ends c x (s.blocksOf c) (.ok a) := by
  cases traced_of_run h hspawn (.finished hc) with
  | went hres hl =>
    obtain ⟨a, hx, rfl⟩ := Client.Ends.of_map ⟨_, hres, hl⟩
    exact ⟨a, rfl, hx⟩
  | cancelled hp => cases hp

/-- The replies of one call are among all replies. -/
lemma replies_blocksOf : ((s.blocksOf c).filterMap Block.reply?).Sublist s.replies := by
  rw [State.blocksOf, ← List.filter_reverse]
  exact (List.filter_sublist).filterMap _

/-- What a request has returned came while it waited for it. -/
lemma notified_of_block (h : ClientRun timeoutHint password P es s) {frame : Frame}
    {register : UInt8} {payload : Bytes}
    (hb : ⟨c, .request frame register, .ok payload⟩ ∈ s.blocks) :
    ∃ es₁ es₂ v i, es = es₁ ++ .notify payload :: es₂ ∧ ClientRun timeoutHint password P es₁ v ∧
      v.Requesting c frame register i ∧ v.futures i = .pending ∧
      Answers payload register frame.flag := by
  obtain ⟨es₁, e, es₂, v, w, rfl, h₁, hv, -, hst, hw, -⟩ := h.exists_step
    (fun u => ⟨c, .request frame register, .ok payload⟩ ∈ u.blocks) (by simp [State.init]) hb
  have hvs := State.consistent_of_run h₁
  have hst : Step v e w := Step.of_step hst
  rcases hst.blocks_cases hvs with hsame | ⟨b, hnew, -⟩
  · exact absurd (hsame ▸ hw) hv
  · rw [hnew, List.mem_cons] at hw
    obtain rfl := hw.resolve_right hv
    obtain ⟨i, hreq, hf⟩ := future_of_returned hst hvs hnew
    obtain ⟨es₃, es₄, u, rfl, h₃, hreq', -, hp, ha⟩ := answered_of_resolved h₁ hreq hf
    exact ⟨es₃, es₄ ++ e :: es₂, u, i, by simp, h₃, hreq', hp, ha⟩

/-- Whatever a getter returns, in any run and with any other calls in between, its own replies say:
one request for each register, in order, decoded as the register is. Each reply came while its
request waited for it and answers its frame, and they came in that order. -/
theorem getters_told (h : ClientRun timeoutHint password Always es s) (m : Method)
    (hm : m.isGetter = true) (f : m.Result → β) (n : ℕ) (b : β) (cn : Asyncio.Cancellation)
    (hspawn : .spawn c (f <$> m.program).run n ∈ es)
    (hc : s.calls c = some ⟨.finished (.ok b), cn⟩) :
    (∃ a, b = f a ∧ Reads c m a (s.blocksOf c)) ∧
      ((s.blocksOf c).filterMap Block.reply?).Sublist (es.filterMap Event.payload?) ∧
      ∀ frame register payload, ⟨c, .request frame register, .ok payload⟩ ∈ s.blocksOf c →
        ∃ es₁ es₂ v i, es = es₁ ++ .notify payload :: es₂ ∧
          ClientRun timeoutHint password Always es₁ v ∧ v.Requesting c frame register i ∧
          v.futures i = .pending ∧ Answers payload register frame.flag := by
  obtain ⟨a, rfl, ha⟩ := ends_of_run h hspawn hc
  refine ⟨⟨a, rfl, reads_of_ends hm ha⟩, ?_, fun frame register payload hb => ?_⟩
  · have hall : s.replies.Sublist (es.filterMap Event.payload?) :=
      (List.sublist_append_left _ _).trans (replies_sublist_of_run h (.init _ _))
    exact replies_blocksOf.trans hall
  · exact notified_of_block h (State.mem_blocksOf.1 hb).1

/-- The alarms are read, and the second bank never answers. -/
def readAlarmsEvents : List (Event (List String)) :=
  [.link true, .spawn 0 (id <$> Method.getAlarms.program).run 0, .run 0, .run 0, .run 0,
    .sendStart 0, .sendEnd 0 .returned, .run 0,
    .notify [0x10, 0xAC, 0x39, 0x00, 0x00, 0x00, 0x00, 0x10], .run 0, .run 0, .run 0, .sendStart 1,
    .sendEnd 1 .returned, .run 0, .expire 0, .run 0, .run 0]

theorem getters_told_alarms :
    ∃ s, ClientRun none none Always readAlarmsEvents s ∧
      (∃ a, ["Earth Wire Open"] = id a ∧ Reads 0 .getAlarms a (s.blocksOf 0)) ∧
      ((s.blocksOf 0).filterMap Block.reply?).Sublist
        (readAlarmsEvents.filterMap Event.payload?) := by
  obtain ⟨s, h, cn, hc⟩ : ∃ s, ClientRun none none Always readAlarmsEvents s ∧
      ∃ cn, s.calls 0 = some ⟨.finished (.ok ["Earth Wire Open"]), cn⟩ :=
    ⟨_, Run.of_exec rfl, _, rfl⟩
  obtain ⟨ha, hsub, -⟩ := getters_told h .getAlarms rfl id 0 _ cn (.tail _ (.head _)) hc
  exact ⟨s, h, ha, hsub⟩

end SpinevBle
