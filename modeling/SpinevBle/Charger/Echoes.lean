import SpinevBle.Charger.Answers
import SpinevBle.Charger.Matching

/-!
# Echoes of writes

The charger echoes most of what is written to it, and the flag byte of a frame carries an operation,
an alarm bank or the number of a piece of text. Still no frame that is written and not waited for
can be mistaken for the answer to a request.
-/

namespace SpinevBle

open Asyncio Interaction Transition

variable {β : Type}

/-! ### The two kinds of frames -/

/-- The registers whose requests do not carry the read flag. -/
def requestRegisters : List Register := [.alarms, .control, .currentLimit]

lemma Requested.register {f : Frame} (h : Requested f) :
    f.flag = Operation.read.value ∨ ∃ r ∈ requestRegisters, f.register = r.value := by
  cases h with
  | read h =>
    rw [buildRead, bind_eq_ok] at h
    obtain ⟨r, -, h⟩ := h
    exact .inl (flag_buildReadOf h)
  | alarms h => exact .inr ⟨.alarms, by simp [requestRegisters], register_buildAlarmRead h⟩
  | control h => exact .inr ⟨.control, by simp [requestRegisters], register_buildControl h⟩
  | limit h => exact .inr ⟨.currentLimit, by simp [requestRegisters], register_buildWriteFloat h⟩

/-- No setting but the current limit has one of these registers. -/
lemma Setter.registers_disjoint {setter : Setter} (h : setter.isRequest = false) :
    ∀ r ∈ setter.registers, ∀ r' ∈ requestRegisters, r.value ≠ r'.value := by
  cases setter with
  | currentLimit => cases h
  | wifi | ocppConfig | timezone | syncClock | randomDelay | internetConnectivity =>
    simp only [Setter.registers]
    decide

lemma Written.register {f : Frame} (h : Written f) :
    f.flag ≠ Operation.read.value ∧ ∀ r ∈ requestRegisters, f.register ≠ r.value := by
  cases h with
  | setting hs h hf =>
    obtain ⟨hflag, r, hr, hreg⟩ := Setter.writes h f hf
    exact ⟨hflag, fun r' hr' => hreg ▸ Setter.registers_disjoint hs r hr r' hr'⟩
  | commit h =>
    rw [flag_buildWriteUInt h, register_buildWriteUInt h]
    decide

/-- A written frame differs from every requested one in its register or its flag. -/
lemma Written.disjoint {f g : Frame} (hg : Written g) (hf : Requested f) :
    ¬ (f.register = g.register ∧ f.flag = g.flag) := by
  rintro ⟨hr, hflag⟩
  rcases hf.register with hread | ⟨r, hr', hreg⟩
  · exact hg.register.1 (hflag ▸ hread)
  · exact hg.register.2 r hr' (hr ▸ hreg)

/-! ### Every waiter is for a requested frame -/

/-- A request waits for the answer to a requested frame, and a list of frames is a written one. -/
def Job.Separate : Job → Prop
  | .request frame register => Requested frame ∧ register = frame.register
  | .writeFrames frames => ∀ f ∈ frames, Written f
  | .history _ => True

lemma Method.Issues.separate {m : Method} {j : Job} (h : m.Issues j) : j.Separate := by
  cases h with
  | readRaw h | readString h | read _ h => exact ⟨.read h, rfl⟩
  | alarms _ h => exact ⟨.alarms h, (register_buildAlarmRead h).symm⟩
  | control h => exact ⟨.control h, (register_buildControl h).symm⟩
  | limit h => exact ⟨.limit h, (register_buildWriteFloat h).symm⟩
  | setting hs h => exact fun f hf => .setting hs h hf
  | commit _ h => exact fun f hf => List.mem_singleton.1 hf ▸ .commit h
  | history => exact trivial

/-- Only separate jobs are issued. -/
def separation : Promise Op Op.Result where
  asks o := ∀ j, o = .locked j → j.Separate
  answers _ _ := True

lemma separation_kept : KeptByAll separation := fun _ => covers_of_jobs fun _ hj => hj.separate

variable {timeoutHint : Option String} {password : Option ℤ} {es : List (Event β)} {s : State β}

lemma separate_of_lock (h : ClientRun timeoutHint password OnlyMethods es s) {hd : Holder β}
    (hl : s.lock = some hd) : hd.job.Separate :=
  (obeys_all_of_run separation_kept (fun _ _ => trivial) h hd.call).asks_of_lock hl rfl _ rfl

lemma requested_of_waiter (h : ClientRun timeoutHint password OnlyMethods es s) {register : UInt8}
    {w : Waiter} (hw : s.waiters.lookup register = some w) :
    ∃ f, Requested f ∧ f.register = register ∧ f.flag = w.flag := by
  have hs := State.consistent_of_run h
  obtain ⟨c, frame, k, n, fl, hl, rfl⟩ := hs.lookup hw
  obtain ⟨-, hreg, -⟩ := (hs.flying _ _ _ _ _ hl).waiters_of_lookup hw
  obtain ⟨hf, hr⟩ := separate_of_lock h hl
  exact ⟨frame, hf, hr.symm.trans hreg.symm, rfl⟩

/-! ### Echoes -/

lemma answers_bytes {f : Frame} {register flag : UInt8} (h : Answers f.bytes register flag) :
    register = f.register ∧ flag = f.flag := by
  have hr := h.register_eq
  have hf := h.flag_eq
  simp only [Frame.bytes_eq, List.getElem?_cons_succ, List.getElem?_cons_zero,
    Option.some.injEq] at hr hf
  exact ⟨hr.symm, hf.symm⟩

/-- A frame that nobody waits for leaves the client as it is. -/
lemma notify_of_unmatched {s : State β} {f : Frame}
    (h : ∀ register w, s.waiters.lookup register = some w → ¬ (register = f.register ∧ w.flag = f.flag)) :
    s.step (.notify f.bytes) = some s := by
  obtain ⟨t, ht, hst⟩ := Step.of_onNotify s f.bytes
  simp only [State.step, ht, Except.toOption]
  generalize he : (Event.notify f.bytes : Event β) = ev at hst
  cases hst with
  | record hr =>
    cases he
    cases (isHistoryRecord_bytes f).symm.trans hr
  | answer ha hw =>
    cases he
    exact absurd (answers_bytes ha) (h _ _ hw)
  | ignore => rfl
  | _ => cases he

/-- No echo of a written frame answers a request: it differs from every frame that can be waited
for, and whenever it arrives it leaves the client as it is. -/
theorem write_echoes (h : ClientRun timeoutHint password OnlyMethods es s) :
    (∀ f g, Requested f → Written g → ¬ (f.register = g.register ∧ f.flag = g.flag)) ∧
    (∀ register w, s.waiters.lookup register = some w →
      ∃ f, Requested f ∧ f.register = register ∧ f.flag = w.flag) ∧
    ∀ es₁ es₂ u, es = es₁ ++ es₂ → ClientRun timeoutHint password OnlyMethods es₁ u →
      ∀ c frames k n fl, u.lock = some (.delivering c (.writeFrames frames) k n fl) →
        ∀ g ∈ frames, Written g ∧ s.step (.notify g.bytes) = some s := by
  refine ⟨fun f g hf hg => hg.disjoint hf, fun register w => requested_of_waiter h,
    fun es₁ es₂ u _ hu c frames k n fl hl g hg => ?_⟩
  have hwritten : Written g := separate_of_lock hu hl g hg
  refine ⟨hwritten, notify_of_unmatched fun register w hw => ?_⟩
  obtain ⟨f, hf, rfl, hflag⟩ := requested_of_waiter h hw
  exact hflag ▸ hwritten.disjoint hf

/-- The offset is written, and read back before the echo arrives. -/
def writeTimezoneEvents : List (Event (ℕ × ℕ)) :=
  [.link true, .spawn 0 ((fun _ => (0, 0)) <$> (Method.set (.timezone 1 0) false).program).run 0,
    .spawn 1 (id <$> Method.getTimezone.program).run 0, .run 0, .run 0, .run 0]

def readTimezoneEvents : List (Event (ℕ × ℕ)) :=
  [.sendStart 0, .sendEnd 0 .returned, .run 0, .run 1, .run 1, .run 1, .sendStart 1]

private lemma timezoneEvents_onlyMethods :
    ∀ e ∈ writeTimezoneEvents ++ readTimezoneEvents, ∀ u, OnlyMethods u e := by
  simp only [writeTimezoneEvents, readTimezoneEvents, List.cons_append, List.nil_append,
    List.forall_mem_cons]
  simp only [OnlyMethods, implies_true, true_and, List.not_mem_nil, false_implies, and_true]
  exact ⟨fun _ => ⟨_, _, rfl⟩, fun _ => ⟨_, _, rfl⟩⟩

theorem write_echoes_timezone :
    ∃ s : State (ℕ × ℕ), ClientRun none none OnlyMethods
      (writeTimezoneEvents ++ readTimezoneEvents) s ∧
      s.waiters = AList.singleton 0x78 ⟨1, 0x00⟩ ∧
      s.step (.notify [0x10, 0xAC, 0x78, 0x01, 0x00, 0x00, 0x01, 0x00]) = some s := by
  have hrun : ClientRun none none Always (writeTimezoneEvents ++ readTimezoneEvents) _ :=
    Run.of_exec rfl
  have hrun₁ : ClientRun none none Always writeTimezoneEvents _ := Run.of_exec rfl
  have h := onlyMethods_of_mem hrun timezoneEvents_onlyMethods
  have h₁ := onlyMethods_of_mem hrun₁ fun e he =>
    timezoneEvents_onlyMethods e (List.mem_append_left _ he)
  exact ⟨_, h, rfl, ((write_echoes h).2.2 _ _ _ rfl h₁ _ _ _ _ _ rfl _ (.head _)).2⟩

end SpinevBle
