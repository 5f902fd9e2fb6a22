import SpinevBle.Link.AlarmBanks

/-!
# Alarms of a charger with two banks

Both banks are read, one after the other, and told apart by the flag of the read only. What the
caller gets is the table's alarms, in its order, whose bits are set.
-/

namespace SpinevBle

open Asyncio Interaction Transition

variable {σ : Type}

/-- The charger answers the read of a bank with the word that it has for it. -/
def Firmware.ReportsAlarms (charger : Firmware σ) (word : ℕ → σ → Word) : Prop :=
  ∀ s bank frame, buildAlarmRead bank = .ok frame →
    (charger s frame).2 = some (Frame.mk frame.register frame.flag (word bank s)).bytes

/-- The words that the charger reports from state `s` on, the second of them after it has answered
the read of the first. -/
def Firmware.alarmWords (charger : Firmware σ) (word : ℕ → σ → Word) (s : σ) : ℕ × ℕ :=
  ((word 1 s).toNat, (word 2 (charger s (alarmFrame Operation.read.value)).1).toNat)

/-- The alarms of both words. -/
def bothBanks (words : ℕ × ℕ) : List AlarmDef := activeAlarms words.1 1 ++ activeAlarms words.2 2

lemma mem_bothBanks {words : ℕ × ℕ} {alarm : AlarmDef} :
    alarm ∈ bothBanks words ↔ alarm ∈ alarms ∧
      (alarm.bank = 1 ∧ words.1.testBit alarm.bit = true ∨
        alarm.bank = 2 ∧ words.2.testBit alarm.bit = true) := by
  rw [bothBanks, List.mem_append, mem_activeAlarms, mem_activeAlarms, ← and_or_left]

lemma bothBanks_sorted (words : ℕ × ℕ) : (bothBanks words).Pairwise fun a b =>
    a.bank < b.bank ∨ a.bank = b.bank ∧ a.bit < b.bit :=
  activeAlarms_append_sorted words.1 words.2

section

variable {charger : Firmware σ} {word : ℕ → σ → Word} {hint : Option String} {before : Script}

variable (hint) in
/-- One bank, for a method that runs alone. -/
private lemma gives_bank (h : charger.ReportsAlarms word) {bank : ℕ} (hb : bank ∈ alarmBanks)
    {frame : Frame} (hf : buildAlarmRead bank = .ok frame) (active : List AlarmDef) {w : World σ}
    (hw : w.connected = true) : Client.Gives charger.peer hint (addAlarmDefs active bank) w
      (.ok (active ++ activeAlarms (word bank w.peer).toNat bank))
      { w with peer := (charger w.peer frame).1 } := by
  have hpeer : charger.peer w.peer frame = ((charger w.peer frame).1, .payload
      (Frame.mk frame.register frame.flag (word bank w.peer)).bytes) := by
    simp only [Firmware.peer, h _ _ _ hf]
    rfl
  exact gives_added active hw hf hpeer (decodeAlarmDefs_eq _ hb)

variable (hint) in
/-- Both banks, for a method that runs alone. -/
private lemma gives_bothBanks (h : charger.ReportsAlarms word) {w : World σ}
    (hw : w.connected = true) : ∃ w', Client.Gives charger.peer hint asyncGetAlarmDefs w
      (.ok (bothBanks (charger.alarmWords word w.peer))) w' := by
  have hone := gives_bank hint h (.head _) buildAlarmRead_one [] hw
  have htwo := gives_bank hint h (.tail _ (.head _)) buildAlarmRead_two
    (activeAlarms (word 1 w.peer).toNat 1)
    (w := { w with peer := (charger w.peer (alarmFrame Operation.read.value)).1 }) hw
  rw [List.nil_append] at hone
  simp only [asyncGetAlarmDefs, alarmBanks, List.foldlM_cons, List.foldlM_nil, bothBanks,
    Firmware.alarmWords]
  exact ⟨_, hone.bind (htwo.bind (.ok _))⟩

/-- Decoding the alarm words agrees with the table, and so does what the client makes of a charger
that reports them. -/
theorem alarm_words (hreports : charger.ReportsAlarms word) (hechoes : charger.peer.Echoes)
    (hbefore : before.Plain) (hint : Option String) (password : Option ℤ) (s : σ) :
    (∀ bank ∈ alarmBanks, ∀ word : ℕ, indexedAlarmDefs word bank = .ok (alarms.filter fun alarm =>
      alarm.bank = bank ∧ word.testBit alarm.bit = true)) ∧
    (∃ es t, LineRun charger.peer hint password (alarmScript before) s es t ∧ t.session.Finished) ∧
    (∀ es t, LineRun charger.peer hint password (alarmScript before) s es t → t.session.Finished →
      let (log, w) := (before.exec (World.call charger.peer hint) ([], ⟨s, false, password⟩)).2
      t.session.log = log ++ [⟨.getAlarmDefs, .ok (bothBanks (charger.alarmWords word w.peer))⟩]) ∧
    (∀ words, (bothBanks words).Pairwise (fun a b =>
        a.bank < b.bank ∨ a.bank = b.bank ∧ a.bit < b.bit) ∧
      ∀ alarm, alarm ∈ bothBanks words ↔ alarm ∈ alarms ∧
        (alarm.bank = 1 ∧ words.1.testBit alarm.bit = true ∨
          alarm.bank = 2 ∧ words.2.testBit alarm.bit = true)) ∧
    (∀ bank ∈ alarmBanks, ∀ word word' : ℕ, (∀ alarm ∈ alarms, alarm.bank = bank →
        word.testBit alarm.bit = word'.testBit alarm.bit) →
      indexedAlarmDefs word bank = indexedAlarmDefs word' bank) ∧
    ∀ bank ∈ alarmBanks, ∀ word word' : ℕ, ∃ defs defs' union,
      indexedAlarmDefs word bank = .ok defs ∧ indexedAlarmDefs word' bank = .ok defs' ∧
      indexedAlarmDefs (word ||| word') bank = .ok union ∧
      (union.Pairwise fun a b => a.bit < b.bit) ∧
      ∀ alarm, alarm ∈ union ↔ alarm ∈ defs ∨ alarm ∈ defs' := by
  have hdecode : ∀ bank ∈ alarmBanks, ∀ word : ℕ,
      indexedAlarmDefs word bank = .ok (activeAlarms word bank) := fun bank hb word =>
    (indexedAlarmDefs_eq word bank).trans (decodeAlarmDefs_eq word hb)
  have hplain := alarmScript_plain hbefore
  obtain ⟨es, t, hrun, hf⟩ := exists_finished hechoes hint password hplain s
  obtain ⟨es', hline⟩ := line_of_joinedRun hrun
  refine ⟨hdecode, ⟨es', t, hline, hf⟩, fun es t ht htf => ?_, fun words =>
    ⟨bothBanks_sorted words, fun alarm => mem_bothBanks⟩, fun bank hb word word' h => ?_,
    fun bank hb word word' => ?_⟩
  · obtain ⟨w', hw'⟩ := gives_bothBanks hint hreports
      (w := { (before.exec (World.call charger.peer hint) ([], ⟨s, false, password⟩)).2.2 with
        connected := true }) rfl
    exact (congrArg Prod.fst (ending_of_run hechoes hplain ht htf)).trans (log_alarmScript hw')
  · rw [hdecode bank hb, hdecode bank hb, activeAlarms_congr h]
  · exact ⟨_, _, _, hdecode bank hb _, hdecode bank hb _, hdecode bank hb _, activeAlarms_sorted _ _,
      fun alarm => mem_activeAlarms_or⟩

end

/-- A charger that reports two words of alarms. -/
def twoBanks (first second : Word) : Firmware Unit := fun s frame =>
  (s, if frame.register = Register.alarms.value then
    if frame.flag = Operation.read.value then some (Frame.mk frame.register frame.flag first).bytes
    else if frame.flag = alarmBank2Flag then some (Frame.mk frame.register frame.flag second).bytes
    else none
  else none)

/-- Bit 15 of both words, which is not the same alarm. -/
theorem alarm_words_bit_15 :
    ∃ es t, LineRun (twoBanks (.ofNat 0x8000) (.ofNat 0x8000)).peer none none
      (alarmScript (.pure ())) () es t ∧
      t.session.log = [⟨.getAlarmDefs, .ok (bothBanks (0x8000, 0x8000))⟩] := by
  have hreports : (twoBanks (.ofNat 0x8000) (.ofNat 0x8000)).ReportsAlarms
      fun _ _ => .ofNat 0x8000 := by
    intro s bank frame hf
    rcases buildAlarmRead_cases hf with rfl | rfl <;> rfl
  have hechoes : (twoBanks (.ofNat 0x8000) (.ofNat 0x8000)).peer.Echoes := by
    intro s frame p h
    have h : (twoBanks (.ofNat 0x8000) (.ofNat 0x8000) s frame).2 = some p := ofAnswer_eq_payload h
    simp only [twoBanks] at h
    split_ifs at h <;>
    · cases h
      exact .inl (Frame.answers _)
  obtain ⟨-, ⟨es, t, ht, hf⟩, h, -⟩ :=
    alarm_words hreports hechoes Script.plain_pure none none ()
  exact ⟨es, t, ht, h es t ht hf⟩

end SpinevBle
