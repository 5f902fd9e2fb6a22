import SpinevBle.Link.Classes
import SpinevBle.Link.TunnelLine

/-!
# The tunnel refines the direct link

A charger behind a central system that hands on its replies, and the same charger on a link that
notifies the client of them. A script that avoids the history registers cannot tell which one it is
on.
-/

namespace SpinevBle

open Asyncio Interaction Transition

variable {σ τ : Type}

/-! ### Scripts that avoid the bulk registers -/

/-- A call that does not read the history registers. -/
def ClientCall.AvoidsBulk : ClientCall → Prop
  | .method (.getHistory _) => False
  | .method (.readRaw register _) | .method (.readString register) =>
    register ≠ Register.historySessions.id ∧ register ≠ Register.historyEvents.id
  | _ => True

/-- Jobs whose frames the tunnel carries. -/
def carriedJobs : Promise Op Op.Result where
  asks o := ∀ j, o = .locked j →
    (∀ frame ∈ j.frames, frame.register ∉ bulkRegisters) ∧ ∀ count, j ≠ .history count
  answers _ _ := True

lemma Script.Calls.mono {A B : ClientCall → Prop} {script : Script} (h : script.Calls A)
    (hAB : ∀ call, A call → B call) : script.Calls B :=
  h.weaken hAB fun _ _ _ => trivial

lemma Script.plain_of_avoidsBulk {script : Script} (h : script.Calls ClientCall.AvoidsBulk) :
    script.Plain :=
  h.mono fun call hc count he => by
    subst he
    exact hc

private lemma not_bulk_of_buildRead {register parameter : ℤ} {frame : Frame}
    (h : buildRead register parameter = .ok frame)
    (hr : register ≠ Register.historySessions.id ∧ register ≠ Register.historyEvents.id) :
    frame.register ∉ bulkRegisters := by
  rw [buildRead, bind_eq_ok] at h
  obtain ⟨r, hbyte, hread⟩ := h
  rw [register_buildReadOf hread]
  unfold byte at hbyte
  split_ifs at hbyte with hrange
  cases hbyte
  intro hmem
  simp only [bulkRegisters, List.mem_cons, List.not_mem_nil, or_false] at hmem
  rcases hmem with he | he
  · have hn := congrArg UInt8.toNat he
    rw [UInt8.toNat_ofNat_of_lt' (by simp only [UInt8.size]; omega)] at hn
    exact hr.1 (by rw [Register.id]; omega)
  · have hn := congrArg UInt8.toNat he
    rw [UInt8.toNat_ofNat_of_lt' (by simp only [UInt8.size]; omega)] at hn
    exact hr.2 (by rw [Register.id]; omega)

private lemma not_bulk_of_reads {m : Method} {register : Register} (h : register ∈ m.reads) :
    register.value ∉ bulkRegisters := by
  revert register
  cases m with
  | set setter applied =>
    cases setter <;> simp only [Method.reads] <;> decide
  | _ =>
    simp only [Method.reads]
    decide

private lemma not_bulk_of_setting {setter : Setter} {register : Register}
    (h : register ∈ setter.registers) : register.value ∉ bulkRegisters := by
  cases setter with
  | wifi | ocppConfig | timezone | syncClock | randomDelay | internetConnectivity | currentLimit =>
    revert register
    simp only [Setter.registers]
    decide

/-- Only a call for the history registers sends a frame to them. -/
private lemma not_bulk_of_issues {m : Method} {j : Job} (hm : (ClientCall.method m).AvoidsBulk)
    (h : m.Issues j) : (∀ frame ∈ j.frames, frame.register ∉ bulkRegisters) ∧
      ∀ count, j ≠ .history count := by
  have hone : ∀ {frame : Frame} {register : UInt8}, frame.register ∉ bulkRegisters →
      (∀ f ∈ (Job.request frame register).frames, f.register ∉ bulkRegisters) ∧
        ∀ count, Job.request frame register ≠ .history count := fun hf =>
    ⟨fun f hmem => List.mem_singleton.1 hmem ▸ hf, nofun⟩
  cases h with
  | readRaw h => exact hone (not_bulk_of_buildRead h hm)
  | readString h => exact hone (not_bulk_of_buildRead h hm)
  | read hr h =>
    rw [buildRead_id] at h
    exact hone (register_buildReadOf h ▸ not_bulk_of_reads hr)
  | alarms _ h => exact hone (register_buildAlarmRead h ▸ by decide)
  | control h => exact hone (register_buildControl h ▸ by decide)
  | limit h => exact hone (register_buildWriteFloat h ▸ by decide)
  | setting hs h =>
    refine ⟨fun f hf => ?_, nofun⟩
    obtain ⟨-, r, hr, he⟩ := Setter.writes h f hf
    exact he ▸ not_bulk_of_setting hr
  | commit _ h =>
    refine ⟨fun f hf => ?_, nofun⟩
    rw [List.mem_singleton.1 hf, register_buildWriteUInt h]
    decide
  | history => exact absurd hm id

/-! ### Chargers and central systems -/

/-- A charger with its state, which answers frames with a payload or not at all. -/
abbrev Firmware (σ : Type) := σ → Frame → σ × Option Bytes

/-- Every reply is one register frame that echoes the register and the flag. -/
def Firmware.Answers (charger : Firmware σ) : Prop :=
  ∀ s frame p, (charger s frame).2 = some p → SpinevBle.Answers p frame.register frame.flag

def Reply.ofAnswer : Option Bytes → Reply
  | none => .nothing
  | some p => .payload p

/-- The charger on a direct link. -/
def Firmware.peer (charger : Firmware σ) : Peer σ := fun s frame =>
  let (t, answer) := charger s frame
  (t, .ofAnswer answer)

/-- The same central system, which keeps a record of the texts that have reached it. -/
def Central.recorded (central : Central τ) : Central (τ × List String) := fun s text =>
  let (t, e) := central s.1 text
  ((t, s.2 ++ [text]), e)

/-- A frame as the tunnel writes it. -/
def Frame.text (frame : Frame) : String := String.ofList (Hex.text .lower frame.bytes)

/-- How a charger's answer comes back through its OCPP connection. -/
inductive Ocpp.Relays : Option Bytes → Option TransferEnd → Prop
  | silent {data : Data} (h : data.isEmpty = true) : Relays none (some (.returned accepted data))
  | reply (case : Hex.Case) (p : Bytes) :
      Relays (some p) (some (.returned accepted (.text (underscored case p))))

/-- The central system hands frames to the charger, whose answers come back as `relays` says. `abs`
is the state that the charger behind it is in. -/
def Central.Carries (central : Central τ) (relays : Option Bytes → Option Ocpp.TransferEnd → Prop)
    (abs : τ → σ) (charger : Firmware σ) : Prop :=
  ∀ t frame, frame.register ∉ bulkRegisters →
    abs (central t frame.text).1 = (charger (abs t) frame).1 ∧
      relays (charger (abs t) frame).2 (central t frame.text).2

/-! ### One frame -/

/-- On a connected tunnel, a frame to another register is handed to the central system. -/
lemma request_text {frame : Frame} (h : frame.register ∉ bulkRegisters) :
    (Ocpp.Transport.init.asyncConnect () ()).request frame.bytes = .ok frame.text := by
  have hreply : isReply frame.bytes = true := rfl
  have hbyte : byteAt frame.bytes 2 = .ok frame.register := rfl
  simp only [Ocpp.Transport.request, Ocpp.Transport.asyncConnect, hreply, hbyte]
  simp [h, Frame.text]

lemma request_bulk {frame : Frame} (h : frame.register ∈ bulkRegisters) :
    ∃ err, (Ocpp.Transport.init.asyncConnect () ()).request frame.bytes = .error err := by
  have hreply : isReply frame.bytes = true := rfl
  have hbyte : byteAt frame.bytes 2 = .ok frame.register := rfl
  simp only [Ocpp.Transport.request, Ocpp.Transport.asyncConnect, hreply, hbyte]
  simp [h]

lemma ofAnswer_eq_payload {answer : Option Bytes} {p : Bytes}
    (h : Reply.ofAnswer answer = .payload p) : answer = some p := by
  cases answer <;> cases h
  rfl

/-- What comes back through the tunnel is what the charger has answered. -/
lemma comesTo_of_relays {frame : Frame} {answer : Option Bytes}
    {e : Option Ocpp.TransferEnd} (h : Ocpp.Relays answer e)
    (ha : ∀ p, answer = some p → Answers p frame.register frame.flag) :
    Ocpp.comesTo frame.register e = .ofAnswer answer := by
  cases h with
  | silent hd =>
    simp only [Ocpp.comesTo, Ocpp.reply_isEmpty _ hd]
    rfl
  | reply case p =>
    simp only [Ocpp.comesTo, Ocpp.reply_underscored _ case (ha p rfl).isReply]
    rfl

/-- Nothing but the charger's answer comes back as a payload. -/
lemma payload_of_relays {register : UInt8} {answer : Option Bytes} {e : Option Ocpp.TransferEnd}
    {p : Bytes} (h : Ocpp.Relays answer e) (hp : Ocpp.comesTo register e = .payload p) :
    answer = some p := by
  cases h with
  | silent hd =>
    simp only [Ocpp.comesTo, Ocpp.reply_isEmpty _ hd] at hp
    cases hp
  | reply case q =>
    simp only [Ocpp.comesTo] at hp
    split at hp
    · cases hp
    · cases hp
    · cases hp
      exact congrArg some (Ocpp.eq_of_reply_underscored ‹_›)

lemma Peer.Echoes.recorded {peer : Peer σ} (h : peer.Echoes) : peer.recorded.Echoes :=
  fun s frame p hp => h s.1 frame p hp

lemma Firmware.Answers.echoes {charger : Firmware σ} (h : charger.Answers) : charger.peer.Echoes :=
  fun s frame p hp => .inl (h s frame p (ofAnswer_eq_payload hp))

lemma Central.Carries.recorded {central : Central τ}
    {relays : Option Bytes → Option Ocpp.TransferEnd → Prop} {abs : τ → σ} {charger : Firmware σ}
    (h : central.Carries relays abs charger) :
    central.recorded.Carries relays (fun t => abs t.1) charger :=
  fun t frame hf => h t.1 frame hf

/-- Behind a central system that makes up no payload, the charger echoes over the tunnel as it does
on a direct link. -/
lemma tunnelPeer_echoes {central : Central τ}
    {relays : Option Bytes → Option Ocpp.TransferEnd → Prop} {abs : τ → σ} {charger : Firmware σ}
    (hcarries : central.Carries relays abs charger)
    (hrelays : ∀ {register answer e p}, relays answer e →
      Ocpp.comesTo register e = .payload p → answer = some p) (hechoes : charger.peer.Echoes) :
    (tunnelPeer central).Echoes := by
  intro t frame p h
  by_cases hf : frame.register ∈ bulkRegisters
  · obtain ⟨err, herr⟩ : ∃ err,
        (Ocpp.Transport.init.asyncConnect () ()).request frame.bytes = .error err :=
      request_bulk hf
    simp only [tunnelPeer, herr] at h
    cases h
  · simp only [tunnelPeer, request_text hf] at h
    have hanswer := hrelays (hcarries t frame hf).2 h
    refine hechoes (abs t) frame p ?_
    simp only [Firmware.peer, hanswer]
    rfl

/-- A peer and a charger on which frames have the same effects. -/
structure Alongside (abs : τ → σ) (w : World (τ × List String)) (w' : World (σ × List Frame)) :
    Prop where
  peer : abs w.peer.1 = w'.peer.1
  texts : w.peer.2 = w'.peer.2.map Frame.text
  connected : w.connected = w'.connected
  password : w.password = w'.password

/-- The same calls with the same results, and worlds alongside each other. -/
structure Ending.Alike (abs : τ → σ) (e : Ending (τ × List String)) (e' : Ending (σ × List Frame)) :
    Prop where
  log : e.1 = e'.1
  world : Alongside abs e.2 e'.2

section

variable {charger : Firmware σ} {central : Central τ} {abs : τ → σ}

/-- A frame comes to the same on both links. -/
private lemma ask_alongside (hcarries : central.Carries Ocpp.Relays abs charger) (hanswers : charger.Answers)
    {frame : Frame} (hf : frame.register ∉ bulkRegisters) {w : World (τ × List String)}
    {w' : World (σ × List Frame)} (h : Alongside abs w w') :
    ∃ r, (tunnelPeer central.recorded w.peer frame).2 = r ∧
      (charger.peer.recorded w'.peer frame).2 = r ∧ (r = .nothing ∨ ∃ p, r = .payload p) ∧
      Alongside abs { w with peer := (tunnelPeer central.recorded w.peer frame).1 }
        { w' with peer := (charger.peer.recorded w'.peer frame).1 } := by
  obtain ⟨habs, hrelays⟩ := hcarries w.peer.1 frame hf
  rw [h.peer] at habs hrelays
  refine ⟨.ofAnswer (charger w'.peer.1 frame).2, ?_, rfl, ?_, ?_⟩
  · simp only [tunnelPeer, request_text hf, Central.recorded]
    exact comesTo_of_relays hrelays (hanswers _ _)
  · cases (charger w'.peer.1 frame).2 with
    | none => exact .inl rfl
    | some p => exact .inr ⟨p, rfl⟩
  · simp only [tunnelPeer, request_text hf, Central.recorded]
    refine ⟨habs, ?_, h.connected, h.password⟩
    simp only [h.texts, Peer.recorded, List.map_append, List.map_cons, List.map_nil]

/-- What a job comes to is alike whatever is said of timeouts. -/
private lemma settled_alike (hint hint' : Option String) (j : Job) (frame : Frame) {r : Reply}
    (hr : r = .nothing ∨ ∃ p, r = .payload p) :
    (j.settled hint frame r = none ∧ j.settled hint' frame r = none) ∨
      ∃ v v', j.settled hint frame r = some v ∧ j.settled hint' frame r = some v' ∧
        coarse v = coarse v' := by
  cases j with
  | writeFrames frames => rcases hr with rfl | ⟨p, rfl⟩ <;> exact .inl ⟨rfl, rfl⟩
  | history count => rcases hr with rfl | ⟨p, rfl⟩ <;> exact .inl ⟨rfl, rfl⟩
  | request sent register =>
    rcases hr with rfl | ⟨p, rfl⟩
    · exact .inr ⟨_, _, rfl, rfl, rfl⟩
    · refine .inr ⟨_, _, rfl, rfl, ?_⟩
      split_ifs <;> rfl

/-- The frames of a job come to the same on both links. -/
private lemma deliver_alike (hcarries : central.Carries Ocpp.Relays abs charger) (hanswers : charger.Answers)
    (hint hint' : Option String) (j : Job) {frames : List Frame}
    (hf : ∀ frame ∈ frames, frame.register ∉ bulkRegisters) {w : World (τ × List String)}
    {w' : World (σ × List Frame)} (h : Alongside abs w w') :
    coarse (w.deliver (tunnelPeer central.recorded) hint j frames).1 =
        coarse (w'.deliver charger.peer.recorded hint' j frames).1 ∧
      Alongside abs (w.deliver (tunnelPeer central.recorded) hint j frames).2
        (w'.deliver charger.peer.recorded hint' j frames).2 := by
  induction frames generalizing w w' with
  | nil => exact ⟨rfl, h⟩
  | cons frame frames ih =>
    obtain ⟨hframe, hrest⟩ := List.forall_mem_cons.1 hf
    obtain ⟨r, hr, hr', hanswer, hnext⟩ := ask_alongside hcarries hanswers hframe h
    simp only [World.deliver, hr, hr']
    rcases settled_alike hint hint' j frame hanswer with ⟨hs, hs'⟩ | ⟨v, v', hs, hs', hv⟩
    · rw [hs, hs']
      exact ih hrest hnext
    · rw [hs, hs']
      exact ⟨hv, hnext⟩

/-- An operation is answered alike on both links. -/
private lemma act_alike (hcarries : central.Carries Ocpp.Relays abs charger) (hanswers : charger.Answers)
    (hint hint' : Option String) (o : Op) {w : World (τ × List String)}
    {w' : World (σ × List Frame)} (ho : carriedJobs.asks o) (h : Alongside abs w w') :
    carriedJobs.answers o (World.act (tunnelPeer central.recorded) hint o w).1 ∧
      Alike o (World.act (tunnelPeer central.recorded) hint o w).1
        (World.act charger.peer.recorded hint' o w').1 ∧
      Alongside abs (World.act (tunnelPeer central.recorded) hint o w).2
        (World.act charger.peer.recorded hint' o w').2 := by
  refine ⟨trivial, ?_⟩
  cases o with
  | getPassword => exact ⟨h.password, h⟩
  | setPassword password => exact ⟨trivial, h.peer, h.texts, h.connected, rfl⟩
  | locked j =>
    simp only [World.act, h.connected]
    split_ifs
    · exact deliver_alike hcarries hanswers hint hint' j (ho j rfl).1 h
    · exact ⟨rfl, h⟩

private lemma carries_method {m : Method} (hm : (ClientCall.method m).AvoidsBulk) :
    m.program.run.Meets carriedJobs (OnlyRaises fun _ => True) := by
  have hcovers : Covers carriedJobs (fun _ => True) m :=
    covers_of_jobs fun _ hj => not_bulk_of_issues hm hj
  exact (within_of_covers hcovers).meets

/-- A call comes to the same on both links. -/
private lemma call_alike (hcarries : central.Carries Ocpp.Relays abs charger) (hanswers : charger.Answers)
    (hint hint' : Option String) (call : ClientCall)
    {e : Ending (τ × List String)} {e' : Ending (σ × List Frame)} (hcall : call.AvoidsBulk)
    (h : e.Alike abs e') :
    (World.call (tunnelPeer central.recorded) hint call e).1 =
        (World.call charger.peer.recorded hint' call e').1 ∧
      Ending.Alike abs (World.call (tunnelPeer central.recorded) hint call e).2
        (World.call charger.peer.recorded hint' call e').2 := by
  obtain ⟨log, w⟩ := e
  obtain ⟨log', w'⟩ := e'
  obtain ⟨rfl, h⟩ := h
  cases call with
  | connect => exact ⟨rfl, rfl, h.peer, h.texts, rfl, h.password⟩
  | disconnect => exact ⟨rfl, rfl, h.peer, h.texts, rfl, h.password⟩
  | method m =>
    obtain ⟨hr, hw⟩ := Prog.Agree.exec
      (fun o w w' ho h => act_alike hcarries hanswers hint hint' o ho h) (agrees_program m)
      (carries_method hcall) h
    simp only [World.call, hr]
    exact ⟨trivial, rfl, hw⟩

/-- A script comes to the same on both links. -/
private lemma script_alike (hcarries : central.Carries Ocpp.Relays abs charger) (hanswers : charger.Answers)
    (hint hint' : Option String) {script : Script} (hscript : script.Calls ClientCall.AvoidsBulk)
    {e : Ending (τ × List String)} {e' : Ending (σ × List Frame)} (h : e.Alike abs e') :
    Ending.Alike abs (script.exec (World.call (tunnelPeer central.recorded) hint) e).2
      (script.exec (World.call charger.peer.recorded hint') e').2 :=
  (Prog.Agree.exec (fun call _ _ hcall h =>
    ⟨trivial, call_alike hcarries hanswers hint hint' call hcall h⟩) (.refl script) hscript h).2

/-! ### Both links -/

/-- A script that avoids the bulk registers comes to its end over the tunnel and over a direct link,
and there it has sent the charger the same frames and come to the same results or classes of errors,
whenever the replies arrive. -/
theorem tunnel_refines (hcarries : central.Carries Ocpp.Relays abs charger) (hanswers : charger.Answers)
    {script : Script} (hscript : script.Calls ClientCall.AvoidsBulk) (hint : Option String)
    (password : Option ℤ) (c : τ) :
    (∃ es u, TunnelLineRun central.recorded password script (c, []) es u ∧ u.session.Finished) ∧
    (∃ es t, LineRun charger.peer.recorded hint password script (abs c, []) es t ∧
      t.session.Finished) ∧
    ∀ es u es' t, TunnelLineRun central.recorded password script (c, []) es u →
      u.session.Finished → LineRun charger.peer.recorded hint password script (abs c, []) es' t →
      t.session.Finished →
      u.session.log = t.session.log ∧ u.central.2 = t.peer.2.map Frame.text := by
  have hdirect := hanswers.echoes.recorded
  have htunnel := tunnelPeer_echoes hcarries.recorded (fun h => payload_of_relays h) hanswers.echoes
  have hplain := Script.plain_of_avoidsBulk hscript
  refine ⟨exists_finished_tunnelLine htunnel password hplain (c, []), ?_, ?_⟩
  · obtain ⟨es, t, hrun, hf⟩ := exists_finished hdirect hint password hplain (abs c, [])
    obtain ⟨es', hline⟩ := line_of_joinedRun hrun
    exact ⟨es', t, hline, hf⟩
  · intro es u es' t hu huf ht htf
    have h₁ := ending_of_tunnelLine htunnel hplain hu huf
    have h₂ := ending_of_run hdirect hplain ht htf
    have hinit : Ending.Alike abs ([], ⟨(c, []), false, password⟩)
        ([], ⟨(abs c, []), false, password⟩) := ⟨rfl, rfl, rfl, rfl, rfl⟩
    have h := script_alike hcarries hanswers (some Ocpp.timeoutHint) hint hscript hinit
    rw [← h₁, ← h₂] at h
    exact ⟨h.log, h.world.texts⟩

end

/-! ### A central system -/

/-- A central system that hands every frame to the charger, and relays its answer. -/
def Firmware.central (charger : Firmware σ) : Central σ := fun s text =>
  match (Hex.read text.toList).bind parseFrame with
  | none => (s, some (.returned "Rejected" .none))
  | some frame =>
    let (t, answer) := charger s frame
    (t, some (.returned Ocpp.accepted
      (answer.elim .none fun p => .text (Ocpp.underscored .upper p))))

lemma Firmware.central_carries (charger : Firmware σ) :
    charger.central.Carries Ocpp.Relays id charger := by
  intro s frame _
  have hread : (Hex.read frame.text.toList).bind parseFrame = some frame := by
    rw [Frame.text, String.toList_ofList, Hex.read_text, Option.bind_some, parseFrame_bytes]
  simp only [Firmware.central, hread]
  refine ⟨rfl, ?_⟩
  simp only [id]
  cases (charger s frame).2 with
  | none => exact .silent rfl
  | some p => exact .reply .upper p

/-- A charger that answers reads with an echo and nothing else. -/
def readFirmware : Firmware Unit := fun s frame =>
  (s, if frame.flag = Operation.read.value then some frame.bytes else none)

/-- The central system in front of that charger. -/
def readCentral : Central Unit := fun s text =>
  match (Hex.read text.toList).bind parseFrame with
  | none => (s, some (.returned "Rejected" .none))
  | some frame =>
    (s, some (.returned Ocpp.accepted
      (if frame.flag = Operation.read.value then .text (Ocpp.underscored .upper frame.bytes)
      else .none)))

/-- Connect, read the power and set the delay. -/
def readScript : Script :=
  .op .connect fun _ => .op (.method .getPower) fun _ =>
    .op (.method (.set (.randomDelay 10) false)) fun _ => .pure ()

theorem tunnel_refines_reads :
    ∃ es u es' t, TunnelLineRun readCentral.recorded (some 1) readScript ((), []) es u ∧
      u.session.Finished ∧ LineRun readFirmware.peer.recorded none (some 1) readScript ((), []) es' t ∧
      t.session.Finished ∧ u.session.log = t.session.log ∧
      u.central.2 = t.peer.2.map Frame.text := by
  have hanswers : readFirmware.Answers := by
    intro s frame p h
    simp only [readFirmware, Option.ite_none_right_eq_some, Option.some.injEq] at h
    rw [← h.2]
    exact frame.answers
  have hcarries : readCentral.Carries Ocpp.Relays id readFirmware := by
    intro t frame _
    have hread : (Hex.read frame.text.toList).bind parseFrame = some frame := by
      rw [Frame.text, String.toList_ofList, Hex.read_text, Option.bind_some, parseFrame_bytes]
    simp only [readCentral, hread, readFirmware]
    refine ⟨trivial, ?_⟩
    split_ifs
    · exact .reply .upper _
    · exact .silent rfl
  have hscript : readScript.Calls ClientCall.AvoidsBulk :=
    Prog.Meets.op_iff.2 ⟨trivial, fun _ _ => Prog.Meets.op_iff.2 ⟨trivial, fun _ _ =>
      Prog.Meets.op_iff.2 ⟨trivial, fun _ _ => Prog.Meets.pure_iff.2 trivial⟩⟩⟩
  obtain ⟨⟨es, u, hu, huf⟩, ⟨es', t, ht, htf⟩, h⟩ :=
    tunnel_refines hcarries hanswers hscript none (some 1) ()
  exact ⟨es, u, es', t, hu, huf, ht, htf, h es u es' t hu huf ht htf⟩

end SpinevBle
