import SpinevBle.Charger.Refusals

/-!
# What every method keeps to

A method issues a few jobs only, and it raises only what its operations raise or an error of the
package, unless one of its arguments does not fit where it is packed. Both are shown of all methods
at once, by the rules for programs within a promise.
-/

namespace SpinevBle

open Interaction

/-! ### The jobs of a method -/

/-- Frames that a request is sent for: reads, control commands and the current limit. -/
inductive Requested : Frame → Prop
  | read {register parameter : ℤ} {frame} (h : buildRead register parameter = .ok frame) :
      Requested frame
  | alarms {bank frame} (h : buildAlarmRead bank = .ok frame) : Requested frame
  | control {command password frame} (h : buildControl command password = .ok frame) :
      Requested frame
  | limit {amps frame} (h : buildWriteFloat .currentLimit amps = .ok frame) : Requested frame

/-- The current limit is a request, unlike all other settings. -/
def Setter.isRequest : Setter → Bool
  | .currentLimit .. => true
  | _ => false

lemma Setter.eq_currentLimit {setter : Setter} (h : setter.isRequest = true) :
    ∃ amps maxAmps allow, setter = .currentLimit amps maxAmps allow := by
  cases setter with
  | currentLimit amps maxAmps allow => exact ⟨amps, maxAmps, allow, rfl⟩
  | wifi | ocppConfig | timezone | syncClock | randomDelay | internetConnectivity => cases h

/-- All other settings are written in the same way. -/
lemma Setter.program_eq {setter : Setter} (h : setter.isRequest = false) (commit : Bool) :
    setter.program commit = writeSetting setter.frames commit := by
  cases setter with
  | currentLimit => cases h
  | wifi | ocppConfig | timezone | syncClock | randomDelay | internetConnectivity => rfl

/-- Frames that are written and not waited for. -/
inductive Written : Frame → Prop
  | setting {setter : Setter} {frames frame} (hs : setter.isRequest = false)
      (h : setter.frames = .ok frames) (hf : frame ∈ frames) : Written frame
  | commit {frame} (h : buildCommit = .ok frame) : Written frame

namespace Method

/-- The registers of the library that a method reads. -/
def reads : Method → List Register
  | getState | getStateValue | set (.currentLimit ..) _ => [.state]
  | getPower => [.power]
  | getVoltage => [.voltage]
  | getCurrent => [.current]
  | getCurrentLimit => [.currentLimit]
  | getStatus => [.state, .power, .voltage, .current, .currentLimit, .sessionEnergy,
      .sessionSeconds, .lifetimeEnergy, .lifetimeSeconds, .firmwareVersion]
  | getPassword | control _ => [.password]
  | getWifiSsid => [.wifiSsid]
  | getWifiPassword => [.wifiPassword]
  | getLoadBalancing => [.loadBalancingEnabled, .gridCurrentLimit, .safeCurrentOffset,
      .reduceCurrentOffset, .maxGridPower, .loadBalancingSource, .loadBalancingPriority]
  | getOcppConfig => [.ocppHost, .ocppPort, .ocppPath, .ocppChargePointId]
  | getTimezone => [.timezone]
  | getRandomDelay => [.randomDelay]
  | _ => []

def readsAlarms : Method → Bool
  | getAlarmDefs | getAlarms | getStatus => true
  | _ => false

def commits : Method → Bool
  | set _ applied => applied
  | commit => true
  | _ => false

/-- The jobs that a method can issue. -/
inductive Issues : Method → Job → Prop
  | readRaw {register parameter frame} (h : buildRead register parameter = .ok frame) :
      Issues (readRaw register parameter) (.request frame frame.register)
  | readString {register frame} (h : buildRead register = .ok frame) :
      Issues (readString register) (.request frame frame.register)
  | read {m register frame} (hm : register ∈ m.reads) (h : buildRead register.id = .ok frame) :
      Issues m (.request frame frame.register)
  | alarms {m bank frame} (hm : m.readsAlarms = true) (h : buildAlarmRead bank = .ok frame) :
      Issues m (.request frame Register.alarms.value)
  | control {command password frame} (h : buildControl command password = .ok frame) :
      Issues (control command) (.request frame Register.control.value)
  | limit {amps maxAmps allow applied frame} (h : buildWriteFloat .currentLimit amps = .ok frame) :
      Issues (set (.currentLimit amps maxAmps allow) applied)
        (.request frame Register.currentLimit.value)
  | setting {setter applied frames} (hs : setter.isRequest = false)
      (h : setter.frames = .ok frames) : Issues (set setter applied) (.writeFrames frames)
  | commit {m frame} (hm : m.commits = true) (h : buildCommit = .ok frame) :
      Issues m (.writeFrames [frame])
  | history {count} : Issues (getHistory count) (.history count)

/-- The arguments of a method fit into the bytes they are packed into. -/
def Fits : Method → Prop
  | readRaw register parameter =>
    (0 ≤ register ∧ register < 256) ∧ 0 ≤ parameter ∧ parameter < 0x100000000
  | readString register => 0 ≤ register ∧ register < 256
  | getHistory count => 0 ≤ count ∧ count < 0x100000000
  | set setter _ => setter.Fits
  | _ => True

end Method

/-! ### Promises to a method -/

/-- The job may be issued, and raises only exceptions with `E`. -/
structure Grants (P : Promise Op Op.Result) (E : Exc → Prop) (j : Job) : Prop where
  asks : P.asks (.locked j)
  raises : ∀ x, P.answers (.locked j) (.error x) → E x

/-- All that the method may issue is granted, and its own errors count among the exceptions. -/
structure Covers (P : Promise Op Op.Result) (E : Exc → Prop) (m : Method) : Prop where
  jobs : ∀ j, m.Issues j → Grants P E j
  getPassword : P.asks .getPassword
  setPassword : P.answers .getPassword none → ∀ password, P.asks (.setPassword password)
  spinEv : ∀ x, IsSpinEv x → E x
  fits : m.Fits ∨ ∀ x, E x

/-- A promise that only jobs have to keep, and that says nothing of the answers. -/
lemma covers_of_jobs {A : Job → Prop} {m : Method} (h : ∀ j, m.Issues j → A j) :
    Covers ⟨fun o => ∀ j, o = .locked j → A j, fun _ _ => True⟩ (fun _ => True) m where
  jobs j hj := by
    refine ⟨fun j' hj' => ?_, fun _ _ => trivial⟩
    cases hj'
    exact h j hj
  getPassword _ hj := by cases hj
  setPassword _ _ _ hj := by cases hj
  spinEv _ _ := trivial
  fits := .inr fun _ => trivial

/-- The code keeps to its promise and raises only exceptions with `E`. -/
def Client.Within {α : Type} (P : Promise Op Op.Result) (E : Exc → Prop) (x : Client α) : Prop :=
  x.run.Meets P (OnlyRaises E)

namespace Client.Within

variable {P : Promise Op Op.Result} {E : Exc → Prop} {α γ : Type}

lemma ok (a : α) : Within P E (pure a) := Prog.Meets.pure_iff.2 (.ok a)

lemma thrown {x : Exc} (h : E x) : Within P E (throw x : Client α) :=
  Prog.Meets.pure_iff.2 (OnlyRaises.error_iff.2 h)

lemma raising {x : Except Exc α} (h : OnlyRaises E x) : Within P E (raising x) :=
  Prog.Meets.pure_iff.2 h

lemma bind {x : Client α} {f : α → Client γ} (h : Within P E x) (hf : ∀ a, Within P E (f a)) :
    Within P E (x >>= f) :=
  Prog.Meets.bind h fun r hr => match r with
    | .ok a => hf a
    | .error _ => Prog.Meets.pure_iff.2 (OnlyRaises.error_iff.2 (OnlyRaises.error_iff.1 hr))

/-- What comes back is known in what follows. -/
lemma raising_bind {x : Except Exc α} {f : α → Client γ} (h : OnlyRaises E x)
    (hf : ∀ a, x = .ok a → Within P E (f a)) : Within P E (SpinevBle.raising x >>= f) := by
  cases x with
  | ok a => exact hf a rfl
  | error e => exact thrown (OnlyRaises.error_iff.1 h)

lemma throw_bind {x : Exc} {f : α → Client γ} (h : E x) :
    Within P E ((throw x : Client α) >>= f) :=
  thrown h

lemma map {x : Client α} (h : Within P E x) (f : α → γ) : Within P E (f <$> x) :=
  h.bind fun a => ok (f a)

lemma handle {x : Client α} {f : Exc → Client α} (h : Within P E x)
    (hf : ∀ e, E e → Within P E (f e)) : Within P E (tryCatch x f) :=
  Prog.Meets.bind h fun r hr => match r with
    | .ok a => ok a
    | .error e => hf e (OnlyRaises.error_iff.1 hr)

lemma ite {p : Prop} [Decidable p] {x y : Client α} (hx : p → Within P E x)
    (hy : ¬ p → Within P E y) : Within P E (if p then x else y) := by
  split_ifs with h
  · exact hx h
  · exact hy h

lemma locked {j : Job} (h : Grants P E j) : Within P E (locked j) :=
  Prog.Meets.op_iff.2 ⟨h.asks, fun _ hr => Prog.Meets.pure_iff.2 fun x hx => h.raises x (hx ▸ hr)⟩

/-- What a job returns is known in what follows. -/
lemma locked_bind {j : Job} {f : j.Value → Client α} (h : Grants P E j)
    (hf : ∀ v, P.answers (.locked j) (.ok v) → Within P E (f v)) :
    Within P E (SpinevBle.locked j >>= f) :=
  Prog.Meets.op_iff.2 ⟨h.asks, fun r hr => match r with
    | .ok v => hf v hr
    | .error _ => Prog.Meets.pure_iff.2 (OnlyRaises.error_iff.2 (h.raises _ hr))⟩

lemma getPassword_bind {f : Option ℤ → Client α} (h : P.asks .getPassword)
    (hf : ∀ password, P.answers .getPassword password → Within P E (f password)) :
    Within P E (getPassword >>= f) :=
  Prog.Meets.op_iff.2 ⟨h, hf⟩

lemma setPassword {password : ℤ} (h : P.asks (.setPassword password)) :
    Within P E (setPassword password) :=
  Prog.Meets.op_iff.2 ⟨h, fun _ _ => ok ()⟩

/-- The same of the program that the code is. -/
lemma meets {x : Client α} (h : Within P E x) : x.run.Meets P (OnlyRaises E) := h

end Client.Within

attribute [irreducible] Client.Within

/-- Code goes on with what its first part returns. -/
lemma Client.eval_bind {α γ : Type} {answer : (o : Op) → Op.Result o} {x : Client α} {a : α}
    (h : x.run.eval answer = .ok a) (f : α → Client γ) :
    (x >>= f).run.eval answer = (f a).run.eval answer := by
  change (x.run >>= ExceptT.bindCont f).eval answer = _
  rw [Prog.eval_bind, h]
  rfl

/-! ### Reads within a promise -/

section

variable {P : Promise Op Op.Result} {E : Exc → Prop} {α : Type}

/-- The read of a register is granted. -/
def GrantsRead (P : Promise Op Op.Result) (E : Exc → Prop) (register parameter : ℤ) : Prop :=
  ∀ frame, buildRead register parameter = .ok frame → Grants P E (.request frame frame.register)

lemma within_asyncReadRaw {register parameter : ℤ} (hE : ∀ x, IsSpinEv x → E x)
    (hb : OnlyRaises E (buildRead register parameter)) (h : GrantsRead P E register parameter) :
    Client.Within P E (asyncReadRaw register parameter) := by
  refine .raising_bind hb fun frame hframe => .bind (.locked (h frame hframe)) fun payload => ?_
  exact .raising ((tidy_valueBytes _ _).mono hE)

lemma within_asyncReadString {register : ℤ} (hb : OnlyRaises E (buildRead register))
    (h : GrantsRead P E register 0) : Client.Within P E (asyncReadString register) :=
  .raising_bind hb fun frame hframe => .bind (.locked (h frame hframe)) fun _ => .ok _

lemma within_readValue {register : Register} {decode : Bytes → Except Exc α}
    (hE : ∀ x, IsSpinEv x → E x) (h : GrantsRead P E register.id 0)
    (hd : ∀ raw, Tidy (decode raw)) : Client.Within P E (readValue register decode) := by
  have hraw : Client.Within P E (asyncReadRaw register.id) :=
    within_asyncReadRaw hE ((tidy_buildRead_id register).mono hE) h
  exact hraw.bind fun raw => .raising ((hd raw).mono hE)

lemma within_asyncGetStateValue (hE : ∀ x, IsSpinEv x → E x)
    (h : GrantsRead P E Register.state.id 0) : Client.Within P E asyncGetStateValue :=
  within_readValue hE h tidy_decodeUInt

lemma within_asyncGetPassword (hE : ∀ x, IsSpinEv x → E x)
    (h : GrantsRead P E Register.password.id 0) : Client.Within P E asyncGetPassword := by
  have hraw : Client.Within P E (asyncReadRaw Register.password.id) :=
    within_asyncReadRaw hE ((tidy_buildRead_id _).mono hE) h
  exact hraw.bind fun raw => .bind (.raising ((tidy_decodeUInt raw).mono hE)) fun _ => .ok _

lemma within_asyncReadAlarmWord {bank : ℕ} (hE : ∀ x, IsSpinEv x → E x)
    (h : ∀ frame, buildAlarmRead bank = .ok frame →
      Grants P E (.request frame Register.alarms.value)) :
    Client.Within P E (asyncReadAlarmWord bank) := by
  refine .raising_bind ((tidy_buildAlarmRead bank).mono hE) fun frame hframe => ?_
  refine .bind (.locked (h frame hframe)) fun payload => ?_
  refine .raising_bind ((tidy_valueBytes _ _).mono hE) fun value _ => ?_
  exact .raising ((tidy_decodeUInt value).mono hE)

lemma within_asyncGetAlarmDefs (hE : ∀ x, IsSpinEv x → E x)
    (h : ∀ bank frame, buildAlarmRead bank = .ok frame →
      Grants P E (.request frame Register.alarms.value)) :
    Client.Within P E asyncGetAlarmDefs := by
  have hround : ∀ active bank, Client.Within P E (addAlarmDefs active bank) := by
    intro active bank
    refine .bind (.handle (.map (within_asyncReadAlarmWord hE (h bank)) _) fun e he => ?_) fun w => ?_
    · split
      · exact .ite (fun _ => .thrown he) fun _ => .ok _
      · exact .thrown he
    · cases w with
      | none => exact .ok _
      | some word => exact .bind (.raising ((tidy_decodeAlarmDefs word bank).mono hE)) fun _ => .ok _
  exact .bind (hround _ _) fun _ => .bind (hround _ _) fun _ => .ok _

/-! ### Settings and commands within a promise -/

lemma within_commitIf (hE : ∀ x, IsSpinEv x → E x) {commit : Bool}
    (h : commit = true → ∀ frame, buildCommit = .ok frame → Grants P E (.writeFrames [frame])) :
    Client.Within P E (commitIf commit) := by
  cases commit with
  | false => exact .ok ()
  | true =>
    exact .raising_bind (tidy_buildCommit.mono hE) fun frame hframe => .locked (h rfl frame hframe)

lemma within_writeSetting (hE : ∀ x, IsSpinEv x → E x) {frames : Except Exc (List Frame)}
    {commit : Bool} (hf : OnlyRaises E frames)
    (h : ∀ fs, frames = .ok fs → Grants P E (.writeFrames fs))
    (hc : commit = true → ∀ frame, buildCommit = .ok frame → Grants P E (.writeFrames [frame])) :
    Client.Within P E (writeSetting frames commit) :=
  .raising_bind hf fun fs hfs => .bind (.locked (h fs hfs)) fun _ => within_commitIf hE hc

lemma within_asyncSetCurrentLimit (hE : ∀ x, IsSpinEv x → E x) {amps maxAmps : PyFloat}
    {commit allow : Bool} (hs : GrantsRead P E Register.state.id 0)
    (hf : OnlyRaises E (buildWriteFloat .currentLimit amps))
    (h : ∀ frame, buildWriteFloat .currentLimit amps = .ok frame →
      Grants P E (.request frame Register.currentLimit.value))
    (hc : commit = true → ∀ frame, buildCommit = .ok frame → Grants P E (.writeFrames [frame])) :
    Client.Within P E (asyncSetCurrentLimit amps maxAmps commit allow) := by
  have hwrite : Client.Within P E (do
      let frame ← raising (buildWriteFloat .currentLimit amps)
      let _ ← request frame Register.currentLimit.value
      commitIf commit) :=
    .raising_bind hf fun frame hframe => .bind (.locked (h frame hframe)) fun _ =>
      within_commitIf hE hc
  refine .ite (fun _ => .throw_bind (hE _ rfl)) fun _ => .ite (fun _ => ?_) fun _ => hwrite
  refine .bind (within_asyncGetStateValue hE hs) fun state => ?_
  exact .ite (fun _ => .throw_bind (hE _ rfl)) fun _ => hwrite

lemma within_asyncRequirePassword (hE : ∀ x, IsSpinEv x → E x) (hget : P.asks .getPassword)
    (hset : P.answers .getPassword none → ∀ password, P.asks (.setPassword password))
    (hr : GrantsRead P E Register.password.id 0) : Client.Within P E asyncRequirePassword := by
  refine .getPassword_bind hget fun password hpw => ?_
  cases password with
  | some password => exact .ok password
  | none =>
    refine .bind (within_asyncGetPassword hE hr) fun password => ?_
    exact .bind (.setPassword (hset hpw password)) fun _ => .ok password

end

/-- A method keeps to its promise if all that it may issue is granted, and the read of the password
keeps to it where a command needs one. -/
theorem within_of_issues {P : Promise Op Op.Result} {E : Exc → Prop} {m : Method}
    (hjobs : ∀ j, m.Issues j → Grants P E j) (hE : ∀ x, IsSpinEv x → E x)
    (hfits : m.Fits ∨ ∀ x, E x)
    (hpassword : ∀ command, m = .control command → Client.Within P E asyncRequirePassword) :
    Client.Within P E m.program := by
  have hread : ∀ register ∈ m.reads, GrantsRead P E register.id 0 := fun register hr frame hf =>
    hjobs _ (.read hr hf)
  have hfit : ∀ {α : Type} {x : Except Exc α}, (m.Fits → Tidy x) → OnlyRaises E x := by
    intro α x hx
    rcases hfits with hf | hE
    · exact (hx hf).mono hE
    · exact fun e _ => hE e
  have hvalue : ∀ {α : Type} {decode : Bytes → Except Exc α} (register : Register),
      register ∈ m.reads → (∀ raw, Tidy (decode raw)) →
      Client.Within P E (readValue register decode) := fun register hr hd =>
    within_readValue hE (hread register hr) hd
  have hstring : ∀ register : Register, register ∈ m.reads →
      Client.Within P E (asyncReadString register.id) := fun register hr =>
    within_asyncReadString ((tidy_buildRead_id register).mono hE) (hread register hr)
  cases m with
  | readRaw register parameter =>
    refine within_asyncReadRaw hE (hfit fun hf => ?_) fun frame hf => hjobs _ (.readRaw hf)
    rw [buildRead_eq_ok hf.1 hf.2]
    exact .ok _
  | readString register =>
    refine within_asyncReadString (hfit fun hf => ?_) fun frame hf => hjobs _ (.readString hf)
    rw [buildRead_eq_ok hf (by decide)]
    exact .ok _
  | getState =>
    refine .bind (within_asyncGetStateValue hE (hread _ (.head _))) fun value => ?_
    split
    · exact .ok _
    · exact .thrown (hE _ rfl)
  | getStateValue => exact within_asyncGetStateValue hE (hread _ (.head _))
  | getPower | getVoltage | getCurrent | getCurrentLimit =>
    exact hvalue _ (.head _) tidy_decodeFloat
  | getRandomDelay => exact hvalue _ (.head _) tidy_decodeUInt
  | getTimezone => exact .bind (hvalue _ (.head _) tidy_decodeUInt) fun _ => .ok _
  | getAlarmDefs => exact within_asyncGetAlarmDefs hE fun _ _ hf => hjobs _ (.alarms rfl hf)
  | getAlarms =>
    exact .bind (within_asyncGetAlarmDefs hE fun _ _ hf => hjobs _ (.alarms rfl hf)) fun _ =>
      .ok _
  | getStatus =>
    have hfloat := fun register hr => hvalue register hr tidy_decodeFloat
    have huint := fun register hr => hvalue register hr tidy_decodeUInt
    have henergy := fun register hr => hvalue register hr tidy_decodeEnergy
    refine .bind (within_asyncGetStateValue hE (hread _ (by decide))) fun _ => ?_
    refine .bind (hfloat .power (by decide)) fun _ => .bind (hfloat .voltage (by decide)) fun _ => ?_
    refine .bind (hfloat .current (by decide)) fun _ => ?_
    refine .bind (hfloat .currentLimit (by decide)) fun _ => ?_
    refine .bind (henergy .sessionEnergy (by decide)) fun _ => ?_
    refine .bind (huint .sessionSeconds (by decide)) fun _ => ?_
    refine .bind (henergy .lifetimeEnergy (by decide)) fun _ => ?_
    refine .bind (huint .lifetimeSeconds (by decide)) fun _ => ?_
    refine .bind (hvalue .firmwareVersion (by decide) tidy_decodeFirmwareVersion) fun _ => ?_
    refine .bind (.bind ?_ fun _ => .ok _) fun _ => .ok _
    exact within_asyncGetAlarmDefs hE fun _ _ hf => hjobs _ (.alarms rfl hf)
  | getPassword => exact within_asyncGetPassword hE (hread _ (.head _))
  | control command =>
    refine .bind (hpassword command rfl) fun password => ?_
    refine .raising_bind ((tidy_buildControl command password).mono hE) fun frame hf => ?_
    refine .bind (.locked (hjobs _ (.control hf))) fun reply => ?_
    exact .raising ((tidy_checkControlReply frame reply).mono hE)
  | getWifiSsid | getWifiPassword => exact hstring _ (.head _)
  | getLoadBalancing =>
    have hfloat := fun register hr => hvalue register hr tidy_decodeFloat
    have huint := fun register hr => hvalue register hr tidy_decodeUInt
    refine .bind (huint .loadBalancingEnabled (by decide)) fun _ => ?_
    refine .bind (hfloat .gridCurrentLimit (by decide)) fun _ => ?_
    refine .bind (hfloat .safeCurrentOffset (by decide)) fun _ => ?_
    refine .bind (hfloat .reduceCurrentOffset (by decide)) fun _ => ?_
    refine .bind (hfloat .maxGridPower (by decide)) fun _ => ?_
    refine .bind (huint .loadBalancingSource (by decide)) fun _ => ?_
    exact .bind (huint .loadBalancingPriority (by decide)) fun _ => .ok _
  | getOcppConfig =>
    refine .bind (hstring .ocppHost (by decide)) fun _ => ?_
    refine .bind (hvalue .ocppPort (by decide) tidy_decodeUInt) fun _ => ?_
    refine .bind (hstring .ocppPath (by decide)) fun _ => ?_
    exact .bind (hstring .ocppChargePointId (by decide)) fun _ => .ok _
  | commit =>
    have hcommit : Client.Within P E (commitIf true) :=
      within_commitIf hE fun _ _ hf => hjobs _ (.commit rfl hf)
    exact hcommit
  | getHistory count => exact .bind (.locked (hjobs _ .history)) fun _ => .ok _
  | set setter applied =>
    have hcommit : applied = true → ∀ frame, buildCommit = .ok frame →
        Grants P E (.writeFrames [frame]) := fun ha frame hf => hjobs _ (.commit ha hf)
    change Client.Within P E (setter.program applied)
    cases hs : setter.isRequest with
    | false =>
      rw [Setter.program_eq hs]
      exact within_writeSetting hE (hfit fun hf => Setter.tidy_frames hf)
        (fun fs hf => hjobs _ (.setting hs hf)) hcommit
    | true =>
      obtain ⟨amps, maxAmps, allow, rfl⟩ := Setter.eq_currentLimit hs
      refine within_asyncSetCurrentLimit hE (hread _ (.head _)) (hfit fun hf => ?_)
        (fun frame hf => hjobs _ (.limit hf)) hcommit
      obtain ⟨raw, hraw⟩ := hf
      rw [buildWriteFloat, hraw]
      exact .ok _

/-- Every method keeps to its promise. -/
theorem within_of_covers {P : Promise Op Op.Result} {E : Exc → Prop} {m : Method}
    (h : Covers P E m) : Client.Within P E m.program := by
  refine within_of_issues h.jobs h.spinEv h.fits fun command hm => ?_
  subst hm
  exact within_asyncRequirePassword h.spinEv h.getPassword h.setPassword fun frame hf =>
    h.jobs _ (.read (.head _) hf)

end SpinevBle
