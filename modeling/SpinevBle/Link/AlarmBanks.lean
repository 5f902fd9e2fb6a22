import SpinevBle.Link.Carried
import SpinevBle.Link.Effects

/-!
# Alarms of a charger with one bank

A charger whose firmware does not know the second alarm bank leaves its read without a register
frame. On a link that notifies the client of replies, the alarms of the first bank still reach the
caller. Over the tunnel they do only if the charger says nothing at all.
-/

namespace SpinevBle

open Asyncio Interaction Transition

variable {σ τ : Type}

/-! ### Chargers -/

/-- The charger answers the read of bank 1 with a word and the read of bank 2 with no register
frame. `second` is what it answers instead. -/
structure Firmware.LacksBankTwo (charger : Firmware σ) (s : σ) (word : Word) (second : Option Bytes) :
    Prop where
  first : ∀ frame, buildAlarmRead 1 = .ok frame →
    (charger s frame).2 = some (Frame.mk frame.register frame.flag word).bytes
  other : ∀ frame frame', buildAlarmRead 1 = .ok frame → buildAlarmRead 2 = .ok frame' →
    (charger (charger s frame).1 frame').2 = second
  unframed : ∀ p, second = some p → isReply p = false

/-- How a charger's answer comes back, or how its silence shows. -/
inductive Ocpp.Conveys : Option Bytes → Option TransferEnd → Prop
  | relayed {answer e} (h : Relays answer e) : Conveys answer e
  | timedOut (m : String) : Conveys none (some (.raised (.builtin .timeoutError m)))
  | never : Conveys none none

/-! ### The alarms of a method that runs alone -/

section

variable {peer : Peer σ} {hint : Option String} {w : World σ} {frame frame' : Frame} {s t : σ}
  {word : Word} {defs : List AlarmDef} {r : Reply} {e : Exc}

/-- The word that the charger reports is the word that is read. -/
lemma gives_word {bank : ℕ} (hw : w.connected = true) (hf : buildAlarmRead bank = .ok frame)
    (hp : peer w.peer frame = (s, .payload (Frame.mk frame.register frame.flag word).bytes)) :
    Client.Gives peer hint (asyncReadAlarmWord bank) w (.ok word.toNat) { w with peer := s } := by
  have hr : frame.register = Register.alarms.value := register_buildAlarmRead hf
  have hsettled : (Job.request frame Register.alarms.value).settled hint frame
      (.payload (Frame.mk frame.register frame.flag word).bytes) =
        some (.ok (Frame.mk frame.register frame.flag word).bytes) := by
    refine Job.settled_of_accepts ?_
    rw [← hr]
    exact Frame.answers _
  have hvalue : ∀ label, valueBytes (Frame.mk frame.register frame.flag word).bytes label =
      .ok word.bytes := fun _ => rfl
  have hdecode : decodeUInt word.bytes = .ok word.toNat := rfl
  have hread : Client.Gives peer hint (raising (buildAlarmRead bank)) w (.ok frame) w := by
    rw [hf]
    exact .raising _
  refine hread.bind (Client.Gives.bind (.request hw hp hsettled) ?_)
  rw [hvalue]
  refine Client.Gives.bind (.raising _) ?_
  rw [hdecode]
  exact .raising _

/-- Its alarms are added to those so far. -/
lemma gives_added {bank : ℕ} (active : List AlarmDef) (hw : w.connected = true)
    (hf : buildAlarmRead bank = .ok frame)
    (hp : peer w.peer frame = (s, .payload (Frame.mk frame.register frame.flag word).bytes))
    (hdefs : decodeAlarmDefs word.toNat bank = .ok defs) :
    Client.Gives peer hint (addAlarmDefs active bank) w (.ok (active ++ defs)) { w with peer := s } := by
  refine .bind (.handle ((gives_word hw hf hp).map some)) ?_
  simp only [hdefs]
  exact .bind (.raising _) (.ok _)

/-- The read of bank 2 comes to an error. -/
private lemma gives_error (hw : w.connected = true) (hf : buildAlarmRead 2 = .ok frame)
    (hp : peer w.peer frame = (s, r))
    (hr : (Job.request frame Register.alarms.value).settled hint frame r = some (.error e)) :
    Client.Gives peer hint (asyncReadAlarmWord 2) w (.error e) { w with peer := s } := by
  have hread : Client.Gives peer hint (raising (buildAlarmRead 2)) w (.ok frame) w := by
    rw [hf]
    exact .raising _
  exact hread.bind (Client.Gives.bind_error (.request hw hp hr))

/-- What a caller gets if the read of bank 2 comes to an error. -/
def afterBankTwo (defs : List AlarmDef) : Exc → Except Exc (List AlarmDef)
  | .spinEv .timeout _ => .ok defs
  | e => .error e

private lemma gives_alarmDefs (hw : w.connected = true) (hf : buildAlarmRead 1 = .ok frame)
    (hp : peer w.peer frame = (s, .payload (Frame.mk frame.register frame.flag word).bytes))
    (hf' : buildAlarmRead 2 = .ok frame') (hp' : peer s frame' = (t, r))
    (hr : (Job.request frame' Register.alarms.value).settled hint frame' r = some (.error e))
    (hdefs : decodeAlarmDefs word.toNat 1 = .ok defs) :
    Client.Gives peer hint asyncGetAlarmDefs w (afterBankTwo defs e) { w with peer := t } := by
  have hone : Client.Gives peer hint (addAlarmDefs [] 1) w (.ok defs) { w with peer := s } :=
    gives_added [] hw hf hp hdefs
  have htwo := (gives_error (w := { w with peer := s }) hw hf' hp' hr).map_error some
  have hround : Client.Gives peer hint (addAlarmDefs defs 2) { w with peer := s }
      (afterBankTwo defs e) { w with peer := t } := by
    cases e with
    | spinEv cls m =>
      cases cls with
      | timeout => exact .bind (.handle_error htwo (.ok none)) (.ok defs)
      | _ => exact .bind_error (.handle_error htwo rfl)
    | cancelledError | builtin => exact .bind_error (.handle_error htwo rfl)
  refine Client.Gives.bind hone ?_
  cases hafter : afterBankTwo defs e with
  | ok defs' => exact Client.Gives.bind (hafter ▸ hround) (.ok defs')
  | error e' => exact Client.Gives.bind_error (hafter ▸ hround)

end

/-! ### What comes back of the read of bank 2 -/

section

variable (hint : Option String) (frame : Frame) (register : UInt8) {second : Option Bytes}

/-- On a direct link, a request without a register frame for an answer runs into its deadline. -/
private lemma settled_unframed (hu : ∀ p, second = some p → isReply p = false) :
    ∃ m, (Job.request frame register).settled hint frame (.ofAnswer second) =
      some (.error (.spinEv .timeout m)) := by
  cases second with
  | none => exact ⟨_, rfl⟩
  | some p =>
    have ha : ¬ Answers p register frame.flag := fun ha => by
      have := hu p rfl
      rw [ha.isReply] at this
      cases this
    exact ⟨_, congrArg some (if_neg ha)⟩

/-- What is lost with a request without a register frame for an answer, over the tunnel. -/
def lostClass (second : Option Bytes) : ErrorClass :=
  if second = none ∨ second = some [] then .timeout else .protocol

private lemma settled_conveyed {e : Option Ocpp.TransferEnd} (h : Ocpp.Conveys second e)
    (hu : ∀ p, second = some p → isReply p = false) :
    ∃ m, (Job.request frame register).settled hint frame (Ocpp.comesTo frame.register e) =
      some (.error (.spinEv (lostClass second) m)) := by
  cases h with
  | timedOut m => exact ⟨_, rfl⟩
  | never => exact ⟨_, rfl⟩
  | relayed h =>
    cases h with
    | silent hd =>
      simp only [Ocpp.comesTo, Ocpp.reply_isEmpty _ hd]
      exact ⟨_, rfl⟩
    | reply case p =>
      by_cases hp : p = []
      · subst hp
        have hd : (Ocpp.Data.text (Ocpp.underscored case [])).isEmpty = true := by
          cases case <;> rfl
        simp only [Ocpp.comesTo, Ocpp.reply_isEmpty _ hd]
        exact ⟨_, rfl⟩
      · obtain ⟨m, hm⟩ := Ocpp.reply_unframed frame.register case (hu p rfl) hp
        have hclass : lostClass (some p) = .protocol := if_neg (by simpa using hp)
        simp only [Ocpp.comesTo, hm, hclass]
        exact ⟨m, rfl⟩

end

/-! ### Both links -/

/-- The alarms of the word, and nothing else, are what the last call has come to. -/
def AlarmsReach (word : Word) (before log : List Entry) : Prop :=
  ∃ defs, decodeAlarmDefs word.toNat 1 = .ok defs ∧ log = before ++ [⟨.getAlarmDefs, .ok defs⟩]

/-- Any calls, and then a read of the alarms. -/
def alarmScript (before : Script) : Script := before.thenCall [.getAlarmDefs]

/-- Whenever the replies arrive on a direct link, the alarms of bank 1 reach the caller. `word` is
what the charger reports in its states. -/
def Firmware.ReachesDirect (charger : Firmware σ) (word : σ → Word) (hint : Option String)
    (password : Option ℤ) (before : Script) (s : σ) : Prop :=
  ∀ es t, LineRun charger.peer hint password (alarmScript before) s es t → t.session.Finished →
    let (log, w) := (before.exec (World.call charger.peer hint) ([], ⟨s, false, password⟩)).2
    AlarmsReach (word w.peer) log t.session.log

/-- The same over the tunnel, where `word` is what the charger reports in the states of the central
system. -/
def Central.ReachesTunnel (central : Central τ) (word : τ → Word) (password : Option ℤ)
    (before : Script) (c : τ) : Prop :=
  ∀ es u, TunnelLineRun central password (alarmScript before) c es u → u.session.Finished →
    let (log, w) := (before.exec (World.call (tunnelPeer central) (some Ocpp.timeoutHint))
      ([], ⟨c, false, password⟩)).2
    AlarmsReach (word w.peer) log u.session.log

section

variable {charger : Firmware σ} {central : Central τ} {abs : τ → σ} {word : σ → Word}
  {second : Option Bytes} {hint : Option String} {before : Script}

lemma alarmScript_plain (h : before.Plain) : Script.Plain (alarmScript before) :=
  Script.thenCall_calls h nofun <| by
    simp only [List.mem_singleton, forall_eq]
    nofun

private lemma conveyed_payload {register : UInt8} {answer : Option Bytes}
    {e : Option Ocpp.TransferEnd} {p : Bytes} (h : Ocpp.Conveys answer e)
    (hp : Ocpp.comesTo register e = .payload p) : answer = some p := by
  cases h with
  | relayed h => exact payload_of_relays h hp
  | timedOut | never => cases hp

/-- A script that ends with a read of the alarms records what that read comes to. -/
lemma log_alarmScript {ρ : Type} {peer : Peer ρ} {e : Ending ρ} {r : Except Exc (List AlarmDef)}
    {w : World ρ} (h : Client.Gives peer hint asyncGetAlarmDefs
      { (before.exec (World.call peer hint) e).2.2 with connected := true } r w) :
    ((alarmScript before).exec (World.call peer hint) e).2.1 =
      (before.exec (World.call peer hint) e).2.1 ++ [⟨.getAlarmDefs, coarse r⟩] :=
  Script.log_thenCall (.cons (m := .getAlarmDefs) h .nil)

/-- On a direct link the alarms of bank 1 come back. -/
private lemma direct_log (hcharger : ∀ s, charger.LacksBankTwo s (word s) second) {e : Ending σ}
    {defs : List AlarmDef} (hdefs : decodeAlarmDefs
      (word (before.exec (World.call charger.peer hint) e).2.2.peer).toNat 1 = .ok defs) :
    ((alarmScript before).exec (World.call charger.peer hint) e).2.1 =
      (before.exec (World.call charger.peer hint) e).2.1 ++ [⟨.getAlarmDefs, .ok defs⟩] := by
  generalize hw : (before.exec (World.call charger.peer hint) e).2.2 = w at hdefs
  obtain ⟨frame, hf⟩ : ∃ frame, buildAlarmRead 1 = .ok frame := ⟨_, buildAlarmRead_one⟩
  obtain ⟨frame', hf'⟩ : ∃ frame, buildAlarmRead 2 = .ok frame := ⟨_, buildAlarmRead_two⟩
  have hlacks := hcharger w.peer
  have hpeer : ∀ s f, charger.peer s f = ((charger s f).1, .ofAnswer (charger s f).2) := fun _ _ => rfl
  obtain ⟨m, hm⟩ := settled_unframed hint frame' Register.alarms.value hlacks.unframed
  have h : Client.Gives charger.peer hint asyncGetAlarmDefs { w with connected := true } (.ok defs) _ :=
    gives_alarmDefs rfl hf (by rw [hpeer, hlacks.first frame hf]; rfl) hf'
      (by rw [hpeer, hlacks.other frame frame' hf hf']) hm hdefs
  exact log_alarmScript (hw ▸ h)

variable (hint before) in
/-- Over the tunnel the read of bank 2 may cost the caller the alarms of bank 1. -/
private lemma tunnel_log (hcharger : ∀ s, charger.LacksBankTwo s (word s) second)
    (hcarries : central.Carries Ocpp.Conveys abs charger) {e : Ending τ} {defs : List AlarmDef}
    (hdefs : decodeAlarmDefs
      (word (abs (before.exec (World.call (tunnelPeer central) hint) e).2.2.peer)).toNat 1 =
        .ok defs) :
    ∃ m, ((alarmScript before).exec (World.call (tunnelPeer central) hint) e).2.1 =
      (before.exec (World.call (tunnelPeer central) hint) e).2.1 ++
        [⟨.getAlarmDefs, coarse (afterBankTwo defs (.spinEv (lostClass second) m))⟩] := by
  generalize hw : (before.exec (World.call (tunnelPeer central) hint) e).2.2 = w at hdefs
  obtain ⟨frame, hf⟩ : ∃ frame, buildAlarmRead 1 = .ok frame := ⟨_, buildAlarmRead_one⟩
  obtain ⟨frame', hf'⟩ : ∃ frame, buildAlarmRead 2 = .ok frame := ⟨_, buildAlarmRead_two⟩
  have hlacks := hcharger (abs w.peer)
  have hbulk : ∀ {n f}, buildAlarmRead n = .ok f → f.register ∉ bulkRegisters := fun h => by
    rw [register_buildAlarmRead h]
    decide
  have hpeer : ∀ c f, f.register ∉ bulkRegisters → tunnelPeer central c f =
      ((central c f.text).1, Ocpp.comesTo f.register (central c f.text).2) := fun c f h => by
    simp only [tunnelPeer, request_text h]
  obtain ⟨habs, hfirst⟩ := hcarries w.peer frame (hbulk hf)
  obtain ⟨-, hsecond⟩ := hcarries (central w.peer frame.text).1 frame' (hbulk hf')
  rw [hlacks.first frame hf] at hfirst
  rw [habs, hlacks.other frame frame' hf hf'] at hsecond
  obtain ⟨m, hm⟩ := settled_conveyed hint frame' Register.alarms.value hsecond hlacks.unframed
  have hword : Ocpp.comesTo frame.register (central w.peer frame.text).2 =
      .payload (Frame.mk frame.register frame.flag (word (abs w.peer))).bytes := by
    cases hfirst with
    | relayed h => exact comesTo_of_relays h fun p hp => by cases hp; exact Frame.answers _
  have h : Client.Gives (tunnelPeer central) hint asyncGetAlarmDefs { w with connected := true }
      (afterBankTwo defs (.spinEv (lostClass second) m)) _ :=
    gives_alarmDefs rfl hf (by rw [hpeer _ _ (hbulk hf), hword]) hf' (hpeer _ _ (hbulk hf')) hm hdefs
  exact ⟨m, log_alarmScript (hw ▸ h)⟩

private lemma exists_alarmDefs (word : ℕ) : ∃ defs, decodeAlarmDefs word 1 = .ok defs :=
  ⟨_, by rw [decodeAlarmDefs, show checkBank 1 = .ok () from if_pos (by decide), bind_ok]; rfl⟩

private lemma ok_of_alarmsReach {word : Word} {before : List Entry}
    {r : Except Failure (List AlarmDef)}
    (h : AlarmsReach word before (before ++ [⟨.getAlarmDefs, r⟩])) : ∃ defs, r = .ok defs := by
  obtain ⟨defs, -, he⟩ := h
  have he := List.append_cancel_left he
  cases he
  exact ⟨defs, rfl⟩

private lemma afterBankTwo_eq_ok {defs defs' : List AlarmDef} {cls : ErrorClass} {m : String}
    (h : coarse (afterBankTwo defs (.spinEv cls m)) = .ok defs') : cls = .timeout := by
  cases cls with
  | timeout => rfl
  | _ => cases h

private lemma lostClass_eq_timeout_iff :
    lostClass second = .timeout ↔ second = none ∨ second = some [] := by
  unfold lostClass
  split_ifs with h
  · exact ⟨fun _ => h, fun _ => rfl⟩
  · exact ⟨nofun, fun h' => absurd h' h⟩

/-- A charger with one bank reports its alarms on every direct link, and over the tunnel exactly if
nothing comes back of the read of bank 2. -/
theorem alarms_reach (hcharger : ∀ s, charger.LacksBankTwo s (word s) second)
    (hechoes : charger.peer.Echoes) (hcarries : central.Carries Ocpp.Conveys abs charger)
    (hbefore : before.Plain) (hint : Option String) (password : Option ℤ) (s : σ) (c : τ) :
    (∃ es t, LineRun charger.peer hint password (alarmScript before) s es t ∧ t.session.Finished) ∧
    (∃ es u, TunnelLineRun central password (alarmScript before) c es u ∧ u.session.Finished) ∧
    charger.ReachesDirect word hint password before s ∧
    (charger.ReachesDirect word hint password before s ∧
        central.ReachesTunnel (fun c => word (abs c)) password before c ↔
      second = none ∨ second = some []) := by
  have hplain := alarmScript_plain hbefore
  have htunnel := tunnelPeer_echoes hcarries (fun h => conveyed_payload h) hechoes
  obtain ⟨es, t, hrun, hf⟩ := exists_finished hechoes hint password hplain s
  obtain ⟨es', hline⟩ := line_of_joinedRun hrun
  obtain ⟨es'', u, hu, huf⟩ := exists_finished_tunnelLine htunnel password hplain c
  have hdirect : charger.ReachesDirect word hint password before s := by
    intro es t ht htf
    obtain ⟨defs, hdefs⟩ := exists_alarmDefs
      (word (before.exec (World.call charger.peer hint) ([], ⟨s, false, password⟩)).2.2.peer).toNat
    refine ⟨defs, hdefs, ?_⟩
    rw [← direct_log hcharger hdefs, ← ending_of_run hechoes hplain ht htf]
  obtain ⟨defs, hdefs⟩ := exists_alarmDefs (word (abs (before.exec (World.call (tunnelPeer central)
    (some Ocpp.timeoutHint)) ([], ⟨c, false, password⟩)).2.2.peer)).toNat
  obtain ⟨m, hm⟩ := tunnel_log (some Ocpp.timeoutHint) before hcharger hcarries hdefs
  refine ⟨⟨es', t, hline, hf⟩, ⟨es'', u, hu, huf⟩, hdirect, fun ⟨_, h⟩ => ?_, fun hsecond => ?_⟩
  · have hlog : u.session.log = _ :=
      (congrArg Prod.fst (ending_of_tunnelLine htunnel hplain hu huf)).trans hm
    have hreach := h es'' u hu huf
    rw [hlog] at hreach
    obtain ⟨defs', hok⟩ := ok_of_alarmsReach hreach
    exact lostClass_eq_timeout_iff.1 (afterBankTwo_eq_ok hok)
  · refine ⟨hdirect, fun es u hu huf => ⟨defs, hdefs, ?_⟩⟩
    rw [lostClass_eq_timeout_iff.2 hsecond] at hm
    exact (congrArg Prod.fst (ending_of_tunnelLine htunnel hplain hu huf)).trans hm

end

/-- A charger that reports one word of alarms, and answers the read of bank 2 with `second`. -/
def oneBank (word : Word) (second : Option Bytes) : Firmware Unit := fun s frame =>
  (s, if frame.register = Register.alarms.value then
    if frame.flag = Operation.read.value then some (Frame.mk frame.register frame.flag word).bytes
    else if frame.flag = alarmBank2Flag then second else none
  else none)

/-- `No Comma`, the text for a register that is not implemented. -/
def noCommand : Bytes := [0x4E, 0x6F, 0x20, 0x43, 0x6F, 0x6D, 0x6D, 0x61]

private lemma oneBank_lacks (word : Word) (s : Unit) :
    (oneBank word (some noCommand)).LacksBankTwo s word (some noCommand) where
  first frame hf := by
    cases buildAlarmRead_one.symm.trans hf
    rfl
  other frame frame' hf hf' := by
    cases buildAlarmRead_two.symm.trans hf'
    rfl
  unframed p hp := by
    cases hp
    decide

private lemma oneBank_echoes (word : Word) : (oneBank word (some noCommand)).peer.Echoes := by
  intro s frame p h
  have h : (oneBank word (some noCommand) s frame).2 = some p := ofAnswer_eq_payload h
  simp only [oneBank] at h
  split_ifs at h
  · cases h
    exact .inl (Frame.answers _)
  · cases h
    exact .inr (by decide)

private lemma oneBank_carries (word : Word) :
    (oneBank word (some noCommand)).central.Carries Ocpp.Conveys id (oneBank word (some noCommand)) :=
  fun c frame hf =>
    ((oneBank word (some noCommand)).central_carries c frame hf).imp_right .relayed

/-- Over the tunnel, a charger that answers `No Comma` to the read of bank 2 loses the alarm that it
reports in bank 1. -/
theorem alarms_lost :
    (∀ s, (oneBank (.ofNat 1) (some noCommand)).LacksBankTwo s (.ofNat 1) (some noCommand)) ∧
    (oneBank (.ofNat 1) (some noCommand)).central.Carries Ocpp.Conveys id
      (oneBank (.ofNat 1) (some noCommand)) ∧
    ¬ (oneBank (.ofNat 1) (some noCommand)).central.ReachesTunnel (fun _ => .ofNat 1) none
      (.pure ()) () := by
  have hcarries := oneBank_carries (.ofNat 1)
  have hecho := tunnelPeer_echoes hcarries (fun h => conveyed_payload h) (oneBank_echoes _)
  have hplain : Script.Plain (alarmScript (.pure ())) :=
    alarmScript_plain Script.plain_pure
  refine ⟨oneBank_lacks _, hcarries, fun h => ?_⟩
  obtain ⟨es, u, hu, hf⟩ := exists_finished_tunnelLine hecho none hplain ()
  obtain ⟨defs, hdefs⟩ := exists_alarmDefs (Word.ofNat 1).toNat
  obtain ⟨m, hm⟩ := tunnel_log (some Ocpp.timeoutHint) (.pure ()) (e := ([], ⟨(), false, none⟩))
    (oneBank_lacks (.ofNat 1)) hcarries hdefs
  have hlog : u.session.log = _ :=
    (congrArg Prod.fst (ending_of_tunnelLine hecho hplain hu hf)).trans hm
  have hreach := h es u hu hf
  rw [hlog] at hreach
  obtain ⟨defs', hok⟩ := ok_of_alarmsReach hreach
  cases afterBankTwo_eq_ok hok

theorem alarms_reach_mainsFail :
    (oneBank (.ofNat 1) (some noCommand)).ReachesDirect (fun _ => .ofNat 1) none none (.pure ()) () ∧
    ¬ ((oneBank (.ofNat 1) (some noCommand)).ReachesDirect (fun _ => .ofNat 1) none none
        (.pure ()) () ∧
      (oneBank (.ofNat 1) (some noCommand)).central.ReachesTunnel (fun _ => .ofNat 1) none
        (.pure ()) ()) := by
  obtain ⟨-, -, hdirect, hiff⟩ := alarms_reach (oneBank_lacks (.ofNat 1)) (oneBank_echoes _)
    (oneBank_carries _) Script.plain_pure none none () ()
  refine ⟨hdirect, fun h => ?_⟩
  rcases hiff.1 h with h | h <;> cases h

end SpinevBle
