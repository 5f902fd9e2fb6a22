import SpinevBle.Charger.Promises
import SpinevBle.Link.Script

/-!
# Methods tell errors apart by their class

A method hands on the errors of its operations or looks at their class, and no more. So where its
operations are answered alike up to the text of errors, it does the same and comes to the same up to
the text of errors.
-/

namespace SpinevBle

open Interaction

/-! ### Answers that are alike -/

/-- The answers are the same up to the text of errors. -/
def Alike : (o : Op) → Op.Result o → Op.Result o → Prop
  | .locked _, r, r' => coarse r = coarse r'
  | .getPassword, r, r' => r = r'
  | .setPassword _, _, _ => True

/-- Where their operations are answered alike, the two programs do the same. -/
def Client.Agrees {α : Type} (x y : Client α) : Prop :=
  x.run.Agree Alike (fun r r' => coarse r = coarse r') y.run

section

variable {α γ : Type}

/-- Results that are alike are the same value or errors of one class. -/
lemma coarse_cases {r r' : Except Exc α} (h : coarse r = coarse r') :
    (∃ a, r = .ok a ∧ r' = .ok a) ∨
      ∃ e e', r = .error e ∧ r' = .error e' ∧ e.failure = e'.failure := by
  cases r with
  | ok a =>
    cases r' with
    | ok a' =>
      cases h
      exact .inl ⟨a, rfl, rfl⟩
    | error e' => cases h
  | error e =>
    cases r' with
    | ok a' => cases h
    | error e' => exact .inr ⟨e, e', rfl, rfl, Except.error.inj h⟩

namespace Client.Agrees

lemma ok (a : α) : Agrees (pure a) (pure a) := .pure rfl

lemma thrown {e e' : Exc} (h : e.failure = e'.failure) :
    Agrees (throw e : Client α) (throw e') :=
  .pure (congrArg Except.error h)

lemma thrown_bind {e e' : Exc} {f g : α → Client γ} (h : e.failure = e'.failure) :
    Agrees ((throw e : Client α) >>= f) ((throw e' : Client α) >>= g) :=
  thrown h

lemma raising (x : Except Exc α) : Agrees (raising x) (raising x) := .pure rfl

lemma bind {x y : Client α} {f g : α → Client γ} (h : Agrees x y) (hf : ∀ a, Agrees (f a) (g a)) :
    Agrees (x >>= f) (y >>= g) :=
  Prog.Agree.bind h fun r r' hr => by
    rcases coarse_cases hr with ⟨a, rfl, rfl⟩ | ⟨e, e', rfl, rfl, he⟩
    · exact hf a
    · exact thrown he

lemma map {x y : Client α} (h : Agrees x y) (f : α → γ) : Agrees (f <$> x) (f <$> y) :=
  h.bind fun a => ok (f a)

lemma handle {x y : Client α} {f g : Exc → Client α} (h : Agrees x y)
    (hf : ∀ e e', e.failure = e'.failure → Agrees (f e) (g e')) :
    Agrees (tryCatch x f) (tryCatch y g) :=
  Prog.Agree.bind h fun r r' hr => by
    rcases coarse_cases hr with ⟨a, rfl, rfl⟩ | ⟨e, e', rfl, rfl, he⟩
    · exact ok a
    · exact hf e e' he

lemma ite {p : Prop} [Decidable p] {x y x' y' : Client α} (hx : Agrees x x') (hy : Agrees y y') :
    Agrees (if p then x else y) (if p then x' else y') := by
  split_ifs
  · exact hx
  · exact hy

lemma locked (j : Job) : Agrees (locked j) (locked j) := .op fun _ _ hr => .pure hr

lemma getPassword : Agrees getPassword getPassword := .op fun _ _ hr => by
  cases hr
  exact .pure rfl

lemma setPassword (password : ℤ) : Agrees (setPassword password) (setPassword password) :=
  .op fun _ _ _ => .pure rfl

end Client.Agrees

end

/-! ### Every method -/

section

variable {α : Type}

private lemma agrees_readRaw (register parameter : ℤ) :
    (asyncReadRaw register parameter).Agrees (asyncReadRaw register parameter) :=
  .bind (.raising _) fun _ => .bind (.locked _) fun _ => .raising _

private lemma agrees_readString (register : ℤ) :
    (asyncReadString register).Agrees (asyncReadString register) :=
  .bind (.raising _) fun _ => .bind (.locked _) fun _ => .ok _

private lemma agrees_readValue (register : Register) (decode : Bytes → Except Exc α) :
    (readValue register decode).Agrees (readValue register decode) :=
  .bind (agrees_readRaw _ _) fun _ => .raising _

private lemma agrees_getPassword : asyncGetPassword.Agrees asyncGetPassword :=
  .bind (agrees_readRaw _ _) fun _ => .bind (.raising _) fun _ => .ok _

private lemma agrees_alarmWord (bank : ℕ) :
    (asyncReadAlarmWord bank).Agrees (asyncReadAlarmWord bank) :=
  .bind (.raising _) fun _ => .bind (.locked _) fun _ => .bind (.raising _) fun _ => .raising _

/-- Whether an alarm bank may stay silent is a matter of the class of the error. -/
private lemma agrees_addAlarmDefs (active : List AlarmDef) (bank : ℕ) :
    (addAlarmDefs active bank).Agrees (addAlarmDefs active bank) := by
  refine .bind (.handle (.map (agrees_alarmWord bank) _) fun e e' he => ?_) fun word => ?_
  · cases e with
    | spinEv cls m =>
      cases e' with
      | spinEv cls' m' =>
        cases he
        cases cls with
        | timeout => exact .ite (.thrown rfl) (.ok _)
        | _ => exact .thrown rfl
      | cancelledError | builtin => cases he
    | cancelledError | builtin =>
      cases e' <;> cases he
      exact .thrown rfl
  · cases word with
    | none => exact .ok _
    | some word => exact .bind (.raising _) fun _ => .ok _

private lemma agrees_alarmDefs : asyncGetAlarmDefs.Agrees asyncGetAlarmDefs :=
  .bind (agrees_addAlarmDefs _ _) fun _ => .bind (agrees_addAlarmDefs _ _) fun _ => .ok _

private lemma agrees_commitIf (commit : Bool) : (commitIf commit).Agrees (commitIf commit) := by
  cases commit with
  | false => exact .ok ()
  | true => exact .bind (.raising _) fun _ => .locked _

private lemma agrees_setCurrentLimit (amps maxAmps : PyFloat) (commit allow : Bool) :
    (asyncSetCurrentLimit amps maxAmps commit allow).Agrees
      (asyncSetCurrentLimit amps maxAmps commit allow) := by
  have hwrite : Client.Agrees
      (do
        let frame ← raising (buildWriteFloat .currentLimit amps)
        let _ ← request frame Register.currentLimit.value
        commitIf commit)
      (do
        let frame ← raising (buildWriteFloat .currentLimit amps)
        let _ ← request frame Register.currentLimit.value
        commitIf commit) :=
    .bind (.raising _) fun _ => .bind (.locked _) fun _ => agrees_commitIf commit
  refine .ite (.thrown_bind rfl) (.ite (.bind (agrees_readValue _ _) fun _ => ?_) hwrite)
  exact .ite (.thrown_bind rfl) hwrite

private lemma agrees_requirePassword : asyncRequirePassword.Agrees asyncRequirePassword := by
  refine .bind .getPassword fun password => ?_
  cases password with
  | some password => exact .ok password
  | none => exact .bind agrees_getPassword fun _ => .bind (.setPassword _) fun _ => .ok _

end

/-- A method does the same where its operations are answered alike. -/
theorem agrees_program (m : Method) : m.program.Agrees m.program := by
  cases m with
  | readRaw register parameter => exact agrees_readRaw register parameter
  | readString register => exact agrees_readString register
  | getState =>
    refine .bind (agrees_readValue _ _) fun value => ?_
    cases ChargerState.ofValue? value with
    | some state => exact .ok state
    | none => exact .thrown rfl
  | getStateValue | getPower | getVoltage | getCurrent | getCurrentLimit | getRandomDelay =>
    exact agrees_readValue _ _
  | getTimezone => exact .bind (agrees_readValue _ _) fun _ => .ok _
  | getAlarmDefs => exact agrees_alarmDefs
  | getAlarms => exact .bind agrees_alarmDefs fun _ => .ok _
  | getStatus =>
    refine .bind (agrees_readValue _ _) fun _ => .bind (agrees_readValue _ _) fun _ => ?_
    refine .bind (agrees_readValue _ _) fun _ => .bind (agrees_readValue _ _) fun _ => ?_
    refine .bind (agrees_readValue _ _) fun _ => .bind (agrees_readValue _ _) fun _ => ?_
    refine .bind (agrees_readValue _ _) fun _ => .bind (agrees_readValue _ _) fun _ => ?_
    refine .bind (agrees_readValue _ _) fun _ => .bind (agrees_readValue _ _) fun _ => ?_
    exact .bind (.bind agrees_alarmDefs fun _ => .ok _) fun _ => .ok _
  | getPassword => exact agrees_getPassword
  | control command =>
    refine .bind agrees_requirePassword fun _ => .bind (.raising _) fun _ => ?_
    exact .bind (.locked _) fun _ => .raising _
  | getWifiSsid | getWifiPassword => exact agrees_readString _
  | getLoadBalancing =>
    refine .bind (agrees_readValue _ _) fun _ => .bind (agrees_readValue _ _) fun _ => ?_
    refine .bind (agrees_readValue _ _) fun _ => .bind (agrees_readValue _ _) fun _ => ?_
    refine .bind (agrees_readValue _ _) fun _ => .bind (agrees_readValue _ _) fun _ => ?_
    exact .bind (agrees_readValue _ _) fun _ => .ok _
  | getOcppConfig =>
    refine .bind (agrees_readString _) fun _ => .bind (agrees_readValue _ _) fun _ => ?_
    exact .bind (agrees_readString _) fun _ => .bind (agrees_readString _) fun _ => .ok _
  | commit => exact agrees_commitIf true
  | getHistory count => exact .bind (.locked _) fun _ => .ok _
  | set setter applied =>
    change (setter.program applied).Agrees (setter.program applied)
    cases hs : setter.isRequest with
    | false =>
      rw [Setter.program_eq hs]
      exact .bind (.raising _) fun _ => .bind (.locked _) fun _ => agrees_commitIf applied
    | true =>
      obtain ⟨amps, maxAmps, allow, rfl⟩ := Setter.eq_currentLimit hs
      exact agrees_setCurrentLimit amps maxAmps applied allow

end SpinevBle
