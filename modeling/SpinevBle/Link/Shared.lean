import SpinevBle.Charger.Readings
import SpinevBle.Charger.Writes
import SpinevBle.Link.Record
import SpinevBle.Link.Station

/-!
# One record for many callers

Calls that are made at the same time share the settings of a charger, which stay one record to them.
What a setter replaces when it returns, it replaces at one moment, and what a getter returns is what
the record had at one moment. The getter of the OCPP configuration has the lock four times, so its
four settings may be of four moments. A setter that fails may have replaced its settings in part, and
nothing else.
-/

namespace SpinevBle

open Asyncio Interaction Transition

variable {σ β : Type}

/-! ### Callers of a record -/

/-- The records differ at most in what the setter replaces. -/
def SettingsRecord.SameBut (setter : Setter) (r r' : SettingsRecord) : Prop :=
  r'.put setter = r.put setter

/-- What call `c` does to the record while it has the lock, if these are the calls that are made. -/
def TouchedBy (es : List (StationEvent β)) (c : ℕ) (r r' : SettingsRecord) : Prop :=
  r' = r ∨ ∃ (setter : Setter) (applied : Bool) (f : Unit → β) (n : ℕ),
    .client (.spawn c (f <$> setter.program applied).run n) ∈ es ∧
      SettingsRecord.SameBut setter r r'

/-- The station relays, and its calls are of methods. -/
def Shared (s : Station σ β) (e : StationEvent β) : Prop :=
  Relayed s e ∧ ∀ e', e.client? = some e' → OnlyMethods s.client e'

/-- The stages of call `c`, oldest first. -/
def stagesOf {τ : Type} (H : List (Stage τ Block)) (c : ℕ) : List (Stage τ Block) :=
  (H.filter (·.op.call = c)).reverse

/-- The methods that set the record or read it. -/
def Method.onRecord : Method → Bool
  | .set .. | .getWifiSsid | .getWifiPassword | .getOcppConfig | .getTimezone | .getRandomDelay
  | .getCurrentLimit => true
  | _ => false

/-- What a call that returns has come to, by the moments in which it had the lock, oldest first. -/
inductive Observes : (m : Method) → m.Result → List (Stage SettingsRecord Block) → Prop
  | read {m a st} (hm : m ≠ .getOcppConfig) (hv : st.before.view m = some a)
      (hk : st.after = st.before) : Observes m a [st]
  | ocppConfig {st₁ st₂ st₃ st₄ : Stage SettingsRecord Block}
      (hk : ∀ st ∈ [st₁, st₂, st₃, st₄], st.after = st.before) :
      Observes .getOcppConfig
        ⟨st₁.before.ocppConfig.host, st₂.before.ocppConfig.port, st₃.before.ocppConfig.path,
          st₄.before.ocppConfig.chargePointId⟩ [st₁, st₂, st₃, st₄]
  | set {setter applied stages st stages'} (hput : st.after = st.before.put setter)
      (hk : ∀ st' ∈ stages ++ stages', st'.after = st'.before) :
      Observes (.set setter applied) () (stages ++ st :: stages')

/-! ### What one job does -/

/-- Where the words differ at most in the registers of the setter, the records do in its settings. -/
lemma sameBut_of_untouched {setter : Setter} {v v' : Register → UInt8 → Word}
    (h : ∀ r seq, InRecord r seq → r ∉ setter.registers → v' r seq = v r seq) :
    SettingsRecord.SameBut setter (recordOf v) (recordOf v') := by
  have htext : ∀ r ∈ settingRegisters, r ∉ setter.registers → storedBytes v' r = storedBytes v r :=
    fun r hr hout => storedBytes_congr hr fun seq hseq => h r seq hseq hout
  have hword : ∀ r ∈ Register.ocppPort :: wordRegisters, r ∉ setter.registers →
      v' r Operation.write.value = v r Operation.write.value := by
    intro r hr hout
    refine h r _ ?_ hout
    rcases List.mem_cons.1 hr with rfl | hr
    · exact .port
    · exact .word hr
  unfold SettingsRecord.SameBut
  cases setter with
  | wifi | ocppConfig | timezone | syncClock | randomDelay | internetConnectivity | currentLimit =>
    simp only [Setter.registers] at htext hword
    simp (disch := decide) only [recordOf, SettingsRecord.put, htext, hword]

/-- The frames of a method that sets something write to its registers only. -/
lemma Method.Issues.spares_others {setter : Setter} {applied : Bool} {j : Job}
    (h : (Method.set setter applied).Issues j) {f : Frame} (hf : f ∈ j.frames) {r : Register}
    (hr : r ∈ settingRegisters ++ wordRegisters) (hout : r ∉ setter.registers) :
    f.flag = Operation.read.value ∨ f.register ≠ r.value := by
  have hother : ∀ r', f.register = r'.value → r' ≠ r → f.register ≠ r.value :=
    fun r' hf hne heq => hne (Register.eq_of_inRecord r' r hr (hf ▸ heq))
  cases h with
  | read _ hb =>
    obtain rfl := List.mem_singleton.1 hf
    exact .inl (buildRead_iff.1 hb).2.2.symm
  | alarms hm => cases hm
  | limit hb =>
    obtain rfl := List.mem_singleton.1 hf
    refine .inr (hother .currentLimit (register_buildWriteFloat hb) fun heq => hout ?_)
    exact heq ▸ List.mem_singleton_self _
  | setting hs hb =>
    obtain ⟨-, r', hr', hreg⟩ := setter.writes hb f hf
    exact .inr (hother r' hreg fun heq => hout (heq ▸ hr'))
  | commit hc hb =>
    obtain rfl := List.mem_singleton.1 hf
    refine .inr (hother .commit (register_buildWriteUInt hb) fun heq => ?_)
    subst heq
    exact absurd hr (by decide)

section

variable {charger : Firmware σ} {stored : σ → Register → UInt8 → Word} {s : σ}

/-- Whatever part of a job has been heard, the record has changed at most where its method sets
something. -/
lemma sameBut_of_issued (h : charger.KeepsSettings stored) {m : Method} {j : Job} (hj : m.Issues j)
    {frames : List Frame} (hf : frames <+: j.frames) :
    recordOf (stored (charger.after s frames)) = recordOf (stored s) ∨
      ∃ setter applied, m = .set setter applied ∧
        SettingsRecord.SameBut setter (recordOf (stored s))
          (recordOf (stored (charger.after s frames))) := by
  by_cases hset : ∃ setter applied, m = .set setter applied
  · obtain ⟨setter, applied, rfl⟩ := hset
    refine .inr ⟨setter, applied, rfl, sameBut_of_untouched fun r seq hr hout => ?_⟩
    refine h.untouched hr (fun f hf' => ?_) s
    exact hj.spares_others (hf.subset hf') (List.mem_append.2 (hr.imp And.left And.left)) hout
  · have hspares := hj.spares_record fun setter applied hm => hset ⟨setter, applied, hm⟩
    exact .inl (h.recordOf_spared (fun f hf' => hspares f (hf.subset hf')) s)

/-- The charger has heard a part of every job, and all of one that has not failed. -/
lemma Firmware.Serves.exists_frames {b : Block} {t : σ} (h : charger.Serves s b t) :
    ∃ frames, frames <+: b.job.frames ∧ t = charger.after s frames ∧
      ∀ v, b.outcome = .ok v → frames = b.job.frames := by
  cases h with
  | replied | written | collected => exact ⟨_, List.prefix_rfl, rfl, fun _ _ => rfl⟩
  | failed hf => exact ⟨_, hf, rfl, fun _ hv => by cases hv⟩

/-- A job whose frames do not write to the record leaves it alone. -/
lemma Firmware.Serves.spared (hk : charger.KeepsSettings stored) {b : Block} {t : σ}
    (h : charger.Serves s b t)
    (hf : ∀ f ∈ b.job.frames, SparesRegisters (settingRegisters ++ wordRegisters) f) :
    recordOf (stored t) = recordOf (stored s) := by
  obtain ⟨frames, hpart, rfl, -⟩ := h.exists_frames
  exact hk.recordOf_spared (fun f hf' => hf f (hpart.subset hf')) s

/-- A job that has carried a setting replaces it. -/
lemma Firmware.Serves.put (hk : charger.KeepsSettings stored) {b : Block} {t : σ}
    (h : charger.Serves s b t) {setter : Setter} (hf : setter.frames = .ok b.job.frames)
    {v : b.job.Value} (hv : b.outcome = .ok v) :
    recordOf (stored t) = (recordOf (stored s)).put setter := by
  obtain ⟨frames, -, rfl, hall⟩ := h.exists_frames
  rw [hall v hv]
  exact recordOf_put hk hf s

/-! ### What one read tells -/

/-- A read is answered. -/
lemma Firmware.Serves.of_readJob {c : ℕ} {r : Register} {payload : Bytes} {t : σ}
    (h : charger.Serves s ⟨c, readJob r, .ok payload⟩ t) :
    (charger s (readFrame r)).2 = some payload := by
  cases h with
  | replied ha => exact ha

/-- A read leaves the record alone. -/
lemma spares_readJob (r : Register) :
    ∀ f ∈ (readJob r).frames, SparesRegisters (settingRegisters ++ wordRegisters) f :=
  List.forall_mem_singleton.2 (.inl rfl)

/-- The text that is read is the one that the charger has. -/
lemma text_of_told (hk : charger.KeepsSettings stored) {c : ℕ} {r : Register}
    (hr : r ∈ settingRegisters) {text : String} {b : Block} (hb : ToldText c r text b) {t : σ}
    (h : charger.Serves s b t) :
    decodeString (storedBytes (stored s) r) = text ∧
      recordOf (stored t) = recordOf (stored s) := by
  obtain ⟨payload, rfl, htext⟩ := hb
  refine ⟨?_, h.spared hk (spares_readJob r)⟩
  have hreply := hk.reads s r hr _ (buildRead_readFrame r)
  rw [h.of_readJob] at hreply
  cases hreply
  exact htext

/-- So is the word that is decoded. -/
lemma word_of_told (hk : charger.KeepsSettings stored) {α : Type} {c : ℕ} {r : Register}
    (hr : r ∈ Register.ocppPort :: wordRegisters) {decode : Bytes → Except Exc α} {a : α} {b : Block}
    (hb : Told c r decode a b) {t : σ} (h : charger.Serves s b t) :
    decode (stored s r Operation.write.value).bytes = .ok a ∧
      recordOf (stored t) = recordOf (stored s) := by
  obtain ⟨payload, rfl, ha⟩ := hb
  refine ⟨?_, h.spared hk (spares_readJob r)⟩
  have hanswer := h.of_readJob
  have hvalue : valueOf payload = (stored s r Operation.write.value).bytes := by
    rcases List.mem_cons.1 hr with rfl | hr
    · rw [hk.reads s .ocppPort (by decide) _ (buildRead_readFrame _)] at hanswer
      cases hanswer
      rfl
    · rw [hk.wordReads s r hr] at hanswer
      cases hanswer
      rfl
  rwa [hvalue] at ha

end

/-! ### What a setter that returns has done -/

/-- The jobs leave the record alone, whatever becomes of them. -/
def SpareRecord (bs : List Block) : Prop :=
  ∀ b ∈ bs, ∀ f ∈ b.job.frames, SparesRegisters (settingRegisters ++ wordRegisters) f

namespace Client.Ends

variable {c : ℕ} {bs : List Block}

lemma not_throw_bind {α γ : Type} {err : Exc} {f : α → Client γ} {b : γ} :
    ¬ Client.Ends c ((throw err : Client α) >>= f) bs (.ok b) := by
  intro h
  obtain ⟨bs₁, bs₂, a, -, hthrow, -⟩ := h.of_bind_ok
  exact not_throw hthrow

lemma of_writeFrames {frames : List Frame} (h : Client.Ends c (writeFrames frames) bs (.ok ())) :
    bs = [⟨c, .writeFrames frames, .ok ()⟩] :=
  of_locked h fun err hr => by cases hr

lemma of_commitIf {applied : Bool} (h : Client.Ends c (commitIf applied) bs (.ok ())) :
    SpareRecord bs := by
  cases applied with
  | false =>
    obtain ⟨rfl, -⟩ := of_pure (a := ()) h
    exact fun b hb => by cases hb
  | true =>
    have h : Client.Ends c asyncCommit bs (.ok ()) := h
    unfold asyncCommit at h
    obtain ⟨bs₁, bs₂, frame, rfl, hbuild, hwrite⟩ := h.of_bind_ok
    obtain ⟨rfl, hframe⟩ := hbuild.of_raising
    obtain rfl := hwrite.of_writeFrames
    have hcommit : ∀ r ∈ settingRegisters ++ wordRegisters, Register.commit.value ≠ r.value := by
      decide
    refine List.forall_mem_singleton.2 (List.forall_mem_singleton.2 (.inr fun r hr => ?_))
    rw [register_buildWriteUInt hframe.symm]
    exact hcommit r hr

/-- Past the checks of a current limit. -/
lemma of_limit {amps : PyFloat} (maxAmps : PyFloat) (allow : Bool) {applied : Bool}
    (h : Client.Ends c (do
      let frame ← raising (buildWriteFloat .currentLimit amps)
      let _ ← request frame Register.currentLimit.value
      commitIf applied) bs (.ok ())) :
    ∃ b bs', bs = b :: bs' ∧ (Setter.currentLimit amps maxAmps allow).frames = .ok b.job.frames ∧
      (∃ v, b.outcome = .ok v) ∧ SpareRecord bs' := by
  obtain ⟨bs₁, bs₂, frame, rfl, hbuild, hrest⟩ := h.of_bind_ok
  obtain ⟨rfl, hframe⟩ := hbuild.of_raising
  obtain ⟨bs₁, bs₂, payload, rfl, hrequest, hcommit⟩ := hrest.of_bind_ok
  obtain rfl := hrequest.of_request
  refine ⟨_, bs₂, rfl, ?_, ⟨payload, rfl⟩, hcommit.of_commitIf⟩
  rw [Setter.frames, ← hframe]
  rfl

/-- A setter that returns has carried its setting in one job, and its other jobs write nothing to the
record. -/
lemma of_set {setter : Setter} {applied : Bool}
    (h : Client.Ends c (setter.program applied) bs (.ok ())) :
    ∃ bs₁ b bs₂, bs = bs₁ ++ b :: bs₂ ∧ setter.frames = .ok b.job.frames ∧
      (∃ v, b.outcome = .ok v) ∧ SpareRecord (bs₁ ++ bs₂) := by
  cases hs : setter.isRequest with
  | false =>
    rw [Setter.program_eq hs] at h
    unfold writeSetting at h
    obtain ⟨bs₁, bs₂, frames, rfl, hframes, hrest⟩ := h.of_bind_ok
    obtain ⟨rfl, hok⟩ := hframes.of_raising
    obtain ⟨bs₁, bs₂, _, rfl, hwrite, hcommit⟩ := hrest.of_bind_ok
    obtain rfl := hwrite.of_writeFrames
    exact ⟨[], _, bs₂, rfl, hok.symm, ⟨(), rfl⟩, hcommit.of_commitIf⟩
  | true =>
    obtain ⟨amps, maxAmps, allow, rfl⟩ := Setter.eq_currentLimit hs
    have h : Client.Ends c (asyncSetCurrentLimit amps maxAmps applied allow) bs (.ok ()) := h
    by_cases hin : minCurrentA.le amps ∧ amps.le maxAmps
    · simp only [asyncSetCurrentLimit, hin, and_self, not_true_eq_false, if_false] at h
      cases allow with
      | true =>
        obtain ⟨b, bs', rfl, hframes, hok, hspare⟩ := of_limit maxAmps true h
        exact ⟨[], b, bs', rfl, hframes, hok, hspare⟩
      | false =>
        obtain ⟨bs₁, bs₂, state, rfl, hstate, hrest⟩ := h.of_bind_ok
        have hstate : Client.Ends c (readValue .state decodeUInt) bs₁ (.ok state) := hstate
        obtain ⟨b₁, rfl, payload, rfl, -⟩ := hstate.of_readValue
        split_ifs at hrest
        · exact absurd hrest not_throw_bind
        · obtain ⟨b, bs', rfl, hframes, hok, hspare⟩ := of_limit maxAmps false hrest
          exact ⟨_, b, bs', rfl, hframes, hok,
            List.forall_mem_cons.2 ⟨spares_readJob .state, hspare⟩⟩
    · rw [asyncSetCurrentLimit, if_pos hin] at h
      exact absurd h not_throw_bind

end Client.Ends

/-! ### What a call has seen -/

/-- The record in the moment of a stage. -/
def recordStage (stored : σ → Register → UInt8 → Word) :
    Stage σ Block → Stage SettingsRecord Block :=
  Stage.map fun s => recordOf (stored s)

section

variable {charger : Firmware σ} {stored : σ → Register → UInt8 → Word} {c : ℕ} {m : Method}
  {stages : List (Stage σ Block)}

/-- A getter that returns has seen what it returns. -/
lemma observes_of_reads (hk : charger.KeepsSettings stored)
    (hserves : ∀ st ∈ stages, charger.Serves st.before st.op st.after) {a : m.Result}
    (hm : m.onRecord = true) (h : Reads c m a (stages.map Stage.op)) :
    Observes m a (stages.map (recordStage stored)) := by
  have htext : ∀ st ∈ stages, ∀ r ∈ settingRegisters, ∀ text, ToldText c r text st.op →
      decodeString (storedBytes (stored st.before) r) = text ∧
        recordOf (stored st.after) = recordOf (stored st.before) :=
    fun st hst r hr text hb => text_of_told hk hr hb (hserves st hst)
  have hword : ∀ st ∈ stages, ∀ r ∈ Register.ocppPort :: wordRegisters, ∀ value : ℕ,
      Told c r decodeUInt value st.op → (stored st.before r Operation.write.value).toNat = value ∧
        recordOf (stored st.after) = recordOf (stored st.before) := by
    intro st hst r hr value hb
    obtain ⟨hdecode, hkeep⟩ := word_of_told hk hr hb (hserves st hst)
    rw [decodeUInt_bytes] at hdecode
    cases hdecode
    exact ⟨rfl, hkeep⟩
  generalize hbs : stages.map Stage.op = bs at h
  cases h with
  | wifiSsid h =>
    obtain ⟨st, rfl, rfl⟩ := List.map_eq_singleton_iff.1 hbs
    obtain ⟨rfl, hkeep⟩ := htext st (.head _) _ (by decide) _ h
    exact .read (by rintro ⟨⟩) rfl hkeep
  | wifiPassword h =>
    obtain ⟨st, rfl, rfl⟩ := List.map_eq_singleton_iff.1 hbs
    obtain ⟨rfl, hkeep⟩ := htext st (.head _) _ (by decide) _ h
    exact .read (by rintro ⟨⟩) rfl hkeep
  | timezone h =>
    obtain ⟨st, rfl, rfl⟩ := List.map_eq_singleton_iff.1 hbs
    obtain ⟨rfl, hkeep⟩ := hword st (.head _) _ (by decide) _ h
    exact .read (by rintro ⟨⟩) rfl hkeep
  | randomDelay h =>
    obtain ⟨st, rfl, rfl⟩ := List.map_eq_singleton_iff.1 hbs
    obtain ⟨rfl, hkeep⟩ := hword st (.head _) _ (by decide) _ h
    exact .read (by rintro ⟨⟩) rfl hkeep
  | currentLimit h =>
    obtain ⟨st, rfl, rfl⟩ := List.map_eq_singleton_iff.1 hbs
    obtain ⟨hdecode, hkeep⟩ := word_of_told hk (by decide) h (hserves st (.head _))
    cases hdecode
    exact .read (by rintro ⟨⟩) rfl hkeep
  | @ocppConfig config port b₁ b₂ b₃ b₄ hport h₁ h₂ h₃ h₄ =>
    obtain ⟨st₁, stages₁, rfl, rfl, hbs₁⟩ := List.map_eq_cons_iff.1 hbs
    obtain ⟨st₂, stages₂, rfl, rfl, hbs₂⟩ := List.map_eq_cons_iff.1 hbs₁
    obtain ⟨st₃, stages₃, rfl, rfl, hbs₃⟩ := List.map_eq_cons_iff.1 hbs₂
    obtain ⟨st₄, rfl, rfl⟩ := List.map_eq_singleton_iff.1 hbs₃
    obtain ⟨host, _, path, chargePointId⟩ := config
    cases hport
    obtain ⟨rfl, hkeep₁⟩ := htext st₁ (by simp) _ (by decide) _ h₁
    obtain ⟨rfl, hkeep₂⟩ := hword st₂ (by simp) _ (by decide) _ h₂
    obtain ⟨rfl, hkeep₃⟩ := htext st₃ (by simp) _ (by decide) _ h₃
    obtain ⟨rfl, hkeep₄⟩ := htext st₄ (by simp) _ (by decide) _ h₄
    refine @Observes.ocppConfig (recordStage stored st₁) (recordStage stored st₂)
      (recordStage stored st₃) (recordStage stored st₄) ?_
    simp only [List.forall_mem_cons, List.not_mem_nil, false_implies, implies_true, and_true]
    exact ⟨hkeep₁, hkeep₂, hkeep₃, hkeep₄⟩
  | _ => cases hm

/-- A setter that returns has replaced its settings. -/
lemma observes_of_set (hk : charger.KeepsSettings stored)
    (hserves : ∀ st ∈ stages, charger.Serves st.before st.op st.after) {setter : Setter}
    {applied : Bool} (h : Client.Ends c (setter.program applied) (stages.map Stage.op) (.ok ())) :
    Observes (.set setter applied) () (stages.map (recordStage stored)) := by
  obtain ⟨bs₁, b, bs₂, hbs, hframes, ⟨v, hv⟩, hspare⟩ := h.of_set
  obtain ⟨stages₁, stages₂, rfl, rfl, hrest⟩ := List.map_eq_append_iff.1 hbs
  obtain ⟨st, stages₂, rfl, rfl, rfl⟩ := List.map_eq_cons_iff.1 hrest
  rw [List.map_append, List.map_cons]
  refine .set ((hserves st (by simp)).put hk hframes hv) fun st' hst' => ?_
  rw [← List.map_append] at hst'
  obtain ⟨st', hmem, rfl⟩ := List.mem_map.1 hst'
  refine (hserves st' ?_).spared hk (hspare _ ?_)
  · rcases List.mem_append.1 hmem with hmem | hmem <;> simp [hmem]
  · rw [← List.map_append]
    exact List.mem_map_of_mem hmem

/-- A method of the record that returns has seen what it returns and done what it is to do. -/
lemma observes_of_ends (hk : charger.KeepsSettings stored)
    (hserves : ∀ st ∈ stages, charger.Serves st.before st.op st.after) (hm : m.onRecord = true)
    {a : m.Result} (h : Client.Ends c m.program (stages.map Stage.op) (.ok a)) :
    Observes m a (stages.map (recordStage stored)) := by
  by_cases hget : m.isGetter = true
  · exact observes_of_reads hk hserves hm (reads_of_ends hget h)
  · cases m with
    | set setter applied => exact observes_of_set hk hserves h
    | control | commit | getHistory => cases hm
    | _ => exact absurd rfl hget

end

/-! ### Stages of one call -/

section

variable {τ : Type} {H : List (Stage σ Block)} {c : ℕ}

lemma mem_of_mem_stagesOf {st : Stage σ Block} (h : st ∈ stagesOf H c) : st ∈ H :=
  (List.mem_filter.1 (List.mem_reverse.1 h)).1

lemma map_op_stagesOf {s : State β} (h : H.map Stage.op = s.blocks) :
    (stagesOf H c).map Stage.op = s.blocksOf c := by
  rw [stagesOf, State.blocksOf, ← h, List.map_reverse, List.filter_map]
  rfl

lemma stagesOf_map (f : σ → τ) :
    stagesOf (H.map (Stage.map f)) c = (stagesOf H c).map (Stage.map f) := by
  rw [stagesOf, stagesOf, List.filter_map, List.map_reverse]
  rfl

end

/-! ### Every run -/

section

variable {charger : Firmware σ} {stored : σ → Register → UInt8 → Word} {timeoutHint : Option String}
  {password : Option ℤ} {s₀ : σ} {s : Station σ β} {es : List (StationEvent β)}

lemma clientRun_of_shared (h : StationRun charger timeoutHint password s₀ Shared es s) :
    ClientRun timeoutHint password OnlyMethods (es.filterMap StationEvent.client?) s.client := by
  refine onlyMethods_of_mem (clientRun_of_station h) fun e he u => ?_
  obtain ⟨es₁, es₂, rfl⟩ := List.append_of_mem (mem_client?.1 he)
  obtain ⟨v, -, hrun⟩ := h.of_append
  cases hrun with
  | cons hP => exact hP.2 e rfl

/-- What has been heard of a job of a call changes what the call is there to change. -/
lemma touchedBy_of_issued (hk : charger.KeepsSettings stored) {c n : ℕ} {m : Method}
    {f : m.Result → β} (hspawn : .client (.spawn c (f <$> m.program).run n) ∈ es)
    {j : Job} (hj : m.Issues j) {frames : List Frame} (hf : frames <+: j.frames) (t : σ) :
    TouchedBy es c (recordOf (stored t)) (recordOf (stored (charger.after t frames))) := by
  rcases sameBut_of_issued hk hj hf with hsame | ⟨setter, applied, rfl, hsame⟩
  · exact .inl hsame
  · exact .inr ⟨setter, applied, f, n, hspawn, hsame⟩

/-- However many calls of methods share a charger that keeps its settings: to all of them together
it is one record, which their jobs touch one after another in the order in which they had the lock.
A setter that returns has replaced its settings in one of these moments, a getter that returns what
the record had in its own, and no job touches what its call does not set. -/
theorem settings_serialize (hk : charger.KeepsSettings stored)
    (h : StationRun charger timeoutHint password s₀ Shared es s) :
    ∃ H r, H.map Stage.op = s.client.blocks ∧
      Serial (fun r b r' => TouchedBy es b.call r r') (recordOf (stored s₀)) H r ∧
      (s.client.lock = none → recordOf (stored s.charger) = r) ∧
      (∀ hd, s.client.lock = some hd → TouchedBy es hd.call r (recordOf (stored s.charger))) ∧
      ∀ (m : Method) (f : m.Result → β) c n b cn, m.onRecord = true →
        .client (.spawn c (f <$> m.program).run n) ∈ es →
        s.client.calls c = some ⟨.finished (.ok b), cn⟩ →
        ∃ a, b = f a ∧ Observes m a (stagesOf H c) := by
  have hclient := clientRun_of_shared h
  obtain ⟨H, t, hH, ht, hm⟩ := (Station.inv_of_run (h.mono fun _ _ => And.left)).served
  obtain ⟨frames, hu, hfree, hheld⟩ := hm.exists_frames
  refine ⟨H.map (recordStage stored), recordOf (stored t), ?ops, ?serial, fun hl => ?free,
    fun hd hl => ?held, fun m f c n b cn hon hspawn hc => ?observed⟩
  case ops =>
    rw [List.map_map]
    exact hH
  case serial =>
    refine ht.map (fun s => recordOf (stored s)) fun st hst => ?_
    have hb : st.op ∈ s.client.blocks := hH ▸ List.mem_map_of_mem hst
    obtain ⟨m, f, n, hspawn, hj⟩ := issues_of_block hclient hb
    obtain ⟨frames, hpart, hafter, -⟩ := (ht.forall_mem st hst).exists_frames
    rw [hafter]
    exact touchedBy_of_issued hk (mem_client?.1 hspawn) hj hpart st.before
  case free =>
    rw [hu, hfree hl]
    rfl
  case held =>
    have hremains : ∃ k, s.client.Remains hd.call (.op (.locked hd.job) k) := by
      cases hd with
      | delivering c j k n fl => exact ⟨k, .delivering hl⟩
      | collecting c count k => exact ⟨k, .collecting hl⟩
    obtain ⟨k, hremains⟩ := hremains
    obtain ⟨m, f, n, hspawn, hj⟩ := issues_of_remains hclient hremains
    rw [hu]
    exact touchedBy_of_issued hk (mem_client?.1 hspawn) hj (hheld hd hl) t
  case observed =>
    obtain ⟨a, hb, hends⟩ := ends_of_run hclient (mem_client?.2 hspawn) hc
    refine ⟨a, hb, ?_⟩
    rw [← map_op_stagesOf hH] at hends
    have hserves : ∀ st ∈ stagesOf H c, charger.Serves st.before st.op st.after :=
      fun st hst => ht.forall_mem st (mem_of_mem_stagesOf hst)
    have hobserves := observes_of_ends hk hserves hon hends
    rwa [recordStage, ← stagesOf_map] at hobserves

end

/-- The offset is set, and read by a call that waits for the lock. -/
def offsetBesideReadEvents : List (StationEvent (ℕ × ℕ)) :=
  [.client (.link true),
    .client (.spawn 0 ((fun _ => (0, 0)) <$> (Setter.timezone 1 30).program false).run 0),
    .client (.spawn 1 (id <$> Method.getTimezone.program).run 0), .client (.run 0), .client (.run 0),
    .client (.run 0), .client (.run 1), .client (.run 1), .client (.sendStart 0), .heard 0,
    .client (.sendEnd 0 .returned), .client (.run 0), .client (.run 0), .client (.run 1),
    .client (.sendStart 1), .heard 1, .client (.sendEnd 1 .returned),
    .client (.notify [0x10, 0xAC, 0x78, 0x00, 0x00, 0x00, 0x01, 0x1E]), .client (.run 1),
    .client (.run 1)]

theorem settings_serialize_offset :
    ∃ s : Station _ (ℕ × ℕ), StationRun keepingCharger none none
        (fun _ _ => .ofNat 0, fun _ => .ofNat 0) Shared offsetBesideReadEvents s ∧
      ∃ H r, H.map Stage.op = s.client.blocks ∧
        Serial (fun r b r' => TouchedBy offsetBesideReadEvents b.call r r')
          (recordOf (keptWords (fun _ _ => .ofNat 0, fun _ => .ofNat 0))) H r ∧
        (∃ a, (0, 0) = (fun _ => (0, 0)) a ∧
          Observes (.set (.timezone 1 30) false) a (stagesOf H 0)) ∧
        ∃ a, (1, 30) = id a ∧ Observes .getTimezone a (stagesOf H 1) := by
  have hrun : StationRun keepingCharger none none (fun _ _ => .ofNat 0, fun _ => .ofNat 0) Relayed
      offsetBesideReadEvents _ := Run.of_exec rfl
  have hmethods : ∀ e ∈ offsetBesideReadEvents.filterMap StationEvent.client?, ∀ u,
      OnlyMethods u e := by
    simp only [offsetBesideReadEvents, List.filterMap_cons, StationEvent.client?,
      List.filterMap_nil, List.forall_mem_cons, OnlyMethods, implies_true, true_and,
      List.not_mem_nil, false_implies, and_true]
    exact ⟨fun _ => ⟨.set (.timezone 1 30) false, _, rfl⟩, fun _ => ⟨.getTimezone, _, rfl⟩⟩
  have h : StationRun keepingCharger none none (fun _ _ => .ofNat 0, fun _ => .ofNat 0) Shared
      offsetBesideReadEvents _ := hrun.mem.mono fun u e he =>
    ⟨he.1, fun e' he' => hmethods e' (List.mem_filterMap.2 ⟨e, he.2, he'⟩) u.client⟩
  obtain ⟨H, r, hops, hserial, -, -, hcalls⟩ := settings_serialize keepingCharger_keeps h
  exact ⟨_, h, H, r, hops, hserial,
    hcalls (.set (.timezone 1 30) false) _ 0 0 _ _ rfl (.tail _ (.head _)) rfl,
    hcalls .getTimezone _ 1 0 _ _ rfl (.tail _ (.tail _ (.head _))) rfl⟩

end SpinevBle
