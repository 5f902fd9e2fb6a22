import SpinevBle.Charger.Calls
import SpinevBle.Charger.Matching
import SpinevBle.Protocol.Codec

/-!
# Confirmations

A client and the charger at the other end, which answers a frame once or not at all, and as late
as it likes. Nothing in an answer tells which of two frames with the same register and flag it is
for. A start or stop that returns has an echo of its own command and password, in every dialogue,
but the echo may be late: of an earlier frame with the same bytes. It is the echo of its own frame
if the answer that came to its request was.
-/

namespace SpinevBle

open Asyncio Interaction Transition

variable {β : Type}

/-! ### Answers -/

/-- What the charger answers when it refuses a control command. -/
def Frame.refusal (f : Frame) : Frame := { f with raw := Word.ofNat controlRejected.toNat }

/-- An answer has the register and the flag of its frame. A control command is echoed byte for byte
or refused. -/
structure IsAnswer (f : Frame) (payload : Bytes) : Prop where
  matched : Answers payload f.register f.flag
  control : f.register = Register.control.value → payload = f.bytes ∨ payload = f.refusal.bytes

instance (f : Frame) (payload : Bytes) : Decidable (IsAnswer f payload) :=
  decidable_of_iff (Answers payload f.register f.flag ∧
    (f.register = Register.control.value → payload = f.bytes ∨ payload = f.refusal.bytes))
    ⟨fun ⟨m, c⟩ => ⟨m, c⟩, fun ⟨m, c⟩ => ⟨m, c⟩⟩

lemma checkControlReply_refusal {sent f : Frame} (hr : f.register = Register.control.value) :
    checkControlReply sent f.refusal.bytes = .error (.spinEv .commandRejected <|
      "the charger refused the command. Check that a vehicle is plugged " ++
      "in and the Bluetooth password is right.") := by
  simp [checkControlReply, parseFrame_bytes, Frame.refusal, hr]

/-- A payload with the flag of the command is accepted only if it echoes the command. -/
lemma eq_bytes_of_accepted {sent : Frame} {payload : Bytes} {register : UInt8}
    (hr : sent.register = Register.control.value) (ha : Answers payload register sent.flag)
    (hc : checkControlReply sent payload = .ok ()) : payload = sent.bytes := by
  unfold checkControlReply at hc
  split at hc
  · cases hc
  · next f hp =>
    obtain rfl := parseFrame_eq_some_iff.1 hp
    split_ifs at hc with hreg hrefused hraw
    obtain ⟨-, hflag⟩ := f.answers.unique ha
    obtain rfl : f = sent := by
      cases f
      cases sent
      simp_all
    rfl

/-- The frame whose answer is accepted has the bytes of the command. -/
lemma IsAnswer.eq_of_accepted {sent f : Frame} (h : IsAnswer f sent.bytes)
    (hr : sent.register = Register.control.value)
    (hc : checkControlReply sent sent.bytes = .ok ()) : f = sent := by
  have hreg : f.register = Register.control.value := (h.matched.unique sent.answers).1.trans hr
  rcases h.control hreg with he | he
  · exact (Frame.bytes_injective he).symm
  · rw [he, checkControlReply_refusal hreg] at hc
    cases hc

/-- No answer to a control command looks like the answer to another. -/
lemma IsAnswer.not_mismatch {f : Frame} {payload : Bytes} (h : IsAnswer f payload)
    (hr : f.register = Register.control.value) :
    checkControlReply f payload = .ok () ∨
      ∃ m, checkControlReply f payload = .error (.spinEv .commandRejected m) := by
  rcases h.control hr with rfl | rfl
  · unfold checkControlReply
    rw [parseFrame_bytes]
    simp only [hr, ne_eq, not_true_eq_false, if_false]
    split_ifs
    · exact .inr ⟨_, rfl⟩
    · exact .inl rfl
  · exact .inr ⟨_, checkControlReply_refusal hr⟩

/-! ### The client and its charger -/

/-- A client, and the answers that the charger has given, by the send whose frame they are for. -/
structure Dialogue (β : Type) where
  client : State β
  answers : ℕ → Option Bytes

/-- Something happens to the client, or the charger answers the frame of a send. -/
inductive DialogueEvent (β : Type)
  | client (e : Event β)
  | answer (i : ℕ) (payload : Bytes)

/-- What the event is for the client. -/
def DialogueEvent.event : DialogueEvent β → Event β
  | .client e => e
  | .answer _ payload => .notify payload

/-- A reply that nothing was sent for. -/
def Event.isReply : Event β → Bool
  | .notify payload => SpinevBle.isReply payload
  | _ => false

namespace Dialogue

def init (β : Type) (timeoutHint : Option String) (password : Option ℤ) : Dialogue β :=
  ⟨.init β timeoutHint password, fun _ => none⟩

/-- All replies are answers, and the frame of a send that has started is answered at most once. -/
def step (s : Dialogue β) : DialogueEvent β → Option (Dialogue β)
  | .client e =>
    if e.isReply then none else (s.client.step e).map fun t => { s with client := t }
  | .answer i payload =>
    if i ∈ s.client.wire ∧ s.answers i = none ∧
        (s.client.sendTasks i).any fun task => decide (IsAnswer task.frame payload) then
      (s.client.step (.notify payload)).map fun t =>
        ⟨t, Function.update s.answers i (some payload)⟩
    else none

/-- The payload is a reply that request `i` still waits for. -/
def awaits (s : Dialogue β) (i : ℕ) (payload : Bytes) : Bool :=
  !(s.client.futures i).done &&
    s.client.waiters.lookup (payload.getD 2 0) = some ⟨i, payload.getD 3 0⟩

end Dialogue

def dialogue (β : Type) (timeoutHint : Option String) (password : Option ℤ) :
    System (Dialogue β) (DialogueEvent β) :=
  ⟨.init β timeoutHint password, Dialogue.step⟩

abbrev DialogueRun {β : Type} (timeoutHint : Option String) (password : Option ℤ)
    (P : Dialogue β → DialogueEvent β → Prop) (es : List (DialogueEvent β)) (s : Dialogue β) :
    Prop :=
  Run (dialogue β timeoutHint password) P (.init β timeoutHint password) es s

/-- An answer that request `i` waits for is the answer to its own frame. -/
def OwnAnswer (i : ℕ) (s : Dialogue β) : DialogueEvent β → Prop
  | .answer j payload => s.awaits i payload = true → j = i
  | .client _ => True

instance (i : ℕ) (s : Dialogue β) (e : DialogueEvent β) : Decidable (OwnAnswer i s e) :=
  match e with
  | .answer j payload => inferInstanceAs (Decidable (s.awaits i payload = true → j = i))
  | .client _ => .isTrue trivial

variable {timeoutHint : Option String} {password : Option ℤ}
  {P : Dialogue β → DialogueEvent β → Prop} {es : List (DialogueEvent β)} {s s' : Dialogue β}
  {e : DialogueEvent β}

lemma Dialogue.client_step (h : s.step e = some s') : s.client.step e.event = some s'.client := by
  cases e with
  | client e =>
    simp only [Dialogue.step, Option.ite_none_left_eq_some, Option.map_eq_some_iff] at h
    obtain ⟨-, t, ht, rfl⟩ := h
    exact ht
  | answer i payload =>
    simp only [Dialogue.step, Option.ite_none_right_eq_some, Option.map_eq_some_iff] at h
    obtain ⟨-, t, ht, rfl⟩ := h
    exact ht

/-- The client's part of a dialogue is one of its runs. -/
lemma client_of_dialogue (h : DialogueRun timeoutHint password P es s) :
    ClientRun timeoutHint password Always (es.map DialogueEvent.event) s.client :=
  h.map Dialogue.client DialogueEvent.event fun _ _ _ => Dialogue.client_step

/-! ### A request gets an answer -/

/-- The payload is the charger's answer to the frame of send `j`. -/
def Dialogue.HasAnswer (s : Dialogue β) (j : ℕ) (payload : Bytes) : Prop :=
  s.answers j = some payload ∧ ∃ c frame, s.client.Carries c j frame ∧ IsAnswer frame payload

/-- A frame is answered once. -/
lemma Dialogue.HasAnswer.step {j : ℕ} {payload : Bytes} (h : s.HasAnswer j payload)
    (hs : s.client.Consistent) (hst : s.step e = some s') : s'.HasAnswer j payload := by
  obtain ⟨hans, c, frame, hcarries, ha⟩ := h
  refine ⟨?_, c, frame, hcarries.step hs (Step.of_step (Dialogue.client_step hst)), ha⟩
  cases e with
  | client e =>
    simp only [Dialogue.step, Option.ite_none_left_eq_some, Option.map_eq_some_iff] at hst
    obtain ⟨-, t, -, rfl⟩ := hst
    exact hans
  | answer i payload' =>
    simp only [Dialogue.step, Option.ite_none_right_eq_some, Option.map_eq_some_iff] at hst
    obtain ⟨⟨-, hnone, -⟩, t, -, rfl⟩ := hst
    have hne : j ≠ i := by
      rintro rfl
      rw [hnone] at hans
      cases hans
    simpa [hne] using hans

lemma Dialogue.HasAnswer.stays {j : ℕ} {payload : Bytes} (h : s.HasAnswer j payload)
    (hs : s.client.Consistent) (hrun : Run (dialogue β timeoutHint password) P s es s') :
    s'.HasAnswer j payload := by
  let I (u : Dialogue β) : Prop := u.client.Consistent ∧ u.HasAnswer j payload
  have hstep : ∀ u e v, I u → P u e → u.step e = some v → I v := by
    rintro u e v ⟨hu, ha⟩ - hst
    exact ⟨hu.step (Step.of_step (Dialogue.client_step hst)), ha.step hu hst⟩
  have hI : I s := ⟨hs, h⟩
  exact (hrun.invariant hstep hI).2

/-- The step that resolves a request is an answer that it waits for, to its own frame or to an
earlier one. -/
lemma awaited_of_resolved {i : ℕ} {payload : Bytes} (hs : s.client.Consistent)
    (hst : s.step e = some s') (hf : s.client.futures i ≠ .result payload)
    (hf' : s'.client.futures i = .result payload) :
    ∃ j ≤ i, e = .answer j payload ∧ s.awaits i payload = true ∧ s'.HasAnswer j payload := by
  have hclient := Step.of_step (Dialogue.client_step hst)
  have hchange := hclient.futures_cases i
  rw [hf'] at hchange
  generalize he : e.event = ev at hchange
  cases hchange with
  | same hsame => exact absurd hsame.symm hf
  | @answer _ register w ha hw hi hp =>
    obtain ⟨c, frame, k, n, fl, hl, rfl⟩ := hs.lookup hw
    obtain rfl : fl.id = i := hi
    cases e with
    | client e =>
      obtain rfl : e = .notify payload := he
      simp [Dialogue.step, Event.isReply, ha.isReply] at hst
    | answer j payload' =>
      cases he
      simp only [Dialogue.step, Option.ite_none_right_eq_some, Option.map_eq_some_iff] at hst
      obtain ⟨⟨-, -, hany⟩, t, -, rfl⟩ := hst
      obtain ⟨task, ht, hans⟩ := (Option.any_eq_true _ _).1 hany
      have hj : j < s.client.nextId := by
        by_contra hj
        rw [(hs.unborn j (not_lt.1 hj)).1] at ht
        cases ht
      have hnewest := (hs.flying _ _ _ _ _ hl).newest
      have hcarries : s.client.Carries task.call j task.frame := ⟨_, ht⟩
      have h2 : payload.getD 2 0 = register := by simp [List.getD, ha.register_eq]
      have h3 : payload.getD 3 0 = frame.flag := by simp [List.getD, ha.flag_eq]
      have hawaits : s.awaits fl.id payload = true := by
        rw [Dialogue.awaits, h2, h3, hw, hp]
        simp [Future.done]
      have hanswer : IsAnswer task.frame payload := by simpa using hans
      exact ⟨j, by omega, rfl, hawaits, by simp, _, _, hcarries.step hs hclient, hanswer⟩

/-- A request that has its reply has the charger's answer to its own frame or to an earlier one. -/
lemma answer_of_resolved (h : DialogueRun timeoutHint password P es s) {i : ℕ} {payload : Bytes}
    (hf : s.client.futures i = .result payload) :
    ∃ j v, j ≤ i ∧ P v (.answer j payload) ∧ v.awaits i payload = true ∧ s.HasAnswer j payload := by
  obtain ⟨es₁, e, es₂, v, w, -, h₁, hv, hP, hst, hw, h₂⟩ :=
    h.exists_step (fun u => u.client.futures i = .result payload)
      (by simp [Dialogue.init, State.init]) hf
  have hvc := State.consistent_of_run (client_of_dialogue h₁)
  obtain ⟨j, hj, rfl, hawaits, ha⟩ := awaited_of_resolved hvc hst hv hw
  have hvw : v.step (.answer j payload) = some w := hst
  have hwc := hvc.step (Step.of_step (Dialogue.client_step hvw))
  exact ⟨j, v, hj, hP, hawaits, ha.stays hwc h₂⟩

/-- If the answer that came to a request is its own, the request has the answer to its frame. -/
lemma own_of_resolved {i : ℕ} {payload : Bytes}
    (h : DialogueRun timeoutHint password (OwnAnswer i) es s)
    (hf : s.client.futures i = .result payload) : s.HasAnswer i payload := by
  obtain ⟨j, v, -, hP, hawaits, ha⟩ := answer_of_resolved h hf
  obtain rfl : j = i := hP hawaits
  exact ha

/-- The reply of a request has the flag of its frame. -/
lemma flag_of_resolved (h : DialogueRun timeoutHint password P es s) {c i : ℕ} {frame : Frame}
    {payload : Bytes} (hd : s.client.Delivered c i frame)
    (hf : s.client.futures i = .result payload) :
    ∃ register, Answers payload register frame.flag := by
  obtain ⟨es₁, es₂, v, c', frame', register, -, h₁, h₂, ⟨k, n, fl, hl, rfl⟩, -, ha⟩ :=
    exists_answer (client_of_dialogue h) hf
  have hv := State.consistent_of_run h₁
  obtain ⟨f, state, hframe, ht⟩ := (hv.flying _ _ _ _ _ hl).task
  obtain ⟨-, rfl⟩ := Job.frames_request hframe
  have hstep : ∀ (u : State β) e w, u.Consistent → u.Carries c' fl.id f → Always u e →
      Step u e w → w.Carries c' fl.id f := fun _ _ _ hu hc _ hst => hc.step hu hst
  have hcarries : s.client.Carries c' fl.id f := invariant_of_run hstep h₂ hv ⟨state, ht⟩
  obtain ⟨state', ht'⟩ := hcarries
  rw [hd] at ht'
  cases ht'
  exact ⟨register, ha⟩

/-! ### What a command has achieved -/

section

variable {c : ℕ} {t : State β}

/-- Call `c` has sent the command and its request has a reply that confirms it. -/
def State.Confirmed (t : State β) (c : ℕ) (command : Command) : Prop :=
  ∃ i frame password payload, t.Delivered c i frame ∧ buildControl command password = .ok frame ∧
    t.futures i = .result payload ∧ checkControlReply frame payload = .ok ()

lemma State.Confirmed.later {u : State β} {command : Command} (h : t.Confirmed c command)
    (htu : Later t u) : u.Confirmed c command := by
  obtain ⟨i, frame, password, payload, hd, hf, hp, hc⟩ := h
  have hp' := (htu.futures i (by simp [hp])).trans hp
  exact ⟨i, frame, password, payload, htu.delivered hd, hf, hp', hc⟩

/-- Call `c` has sent the limit and its request has a reply. -/
def State.Limited (t : State β) (c : ℕ) (amps : PyFloat) : Prop :=
  ∃ i frame payload, t.Delivered c i frame ∧ buildWriteFloat .currentLimit amps = .ok frame ∧
    t.futures i = .result payload

lemma State.Limited.later {u : State β} {amps : PyFloat} (h : t.Limited c amps)
    (htu : Later t u) : u.Limited c amps := by
  obtain ⟨i, frame, payload, hd, hf, hp⟩ := h
  exact ⟨i, frame, payload, htu.delivered hd, hf, (htu.futures i (by simp [hp])).trans hp⟩

/-- A call of which nothing is asked. -/
abbrev freeContract (c : ℕ) : Contract (State β) Op Op.Result := callContract c fun _ _ => True

private lemma ensures_any {α : Type} (x : Client α) :
    Client.Ensures (freeContract c) (fun _ _ => True) x t :=
  .trivial fun _ _ _ _ => trivial

private lemma ensures_raising {α : Type} (x : Except Exc α) :
    Client.Ensures (freeContract c) (fun _ a => x = .ok a) (raising x) t :=
  .raising fun _ h _ _ => h

private lemma ensures_request (frame : Frame) (register : UInt8) :
    Client.Ensures (freeContract c)
      (fun t payload => ∃ i, t.Delivered c i frame ∧ t.futures i = .result payload)
      (request frame register) t :=
  .locked (.request frame register) (fun _ _ _ _ => trivial)
    fun _ _ _ _ (h : State.Achieved _ c (.request frame register) _) htu => h.later htu

private lemma ensures_control (command : Command) :
    Client.Ensures (freeContract c) (fun t _ => t.Confirmed c command)
      (asyncSendControl command) t := by
  unfold asyncSendControl
  refine (ensures_any asyncRequirePassword).bind fun t password _ _ => ?_
  refine (ensures_raising (buildControl command password)).bind fun t frame _ hf => ?_
  refine (ensures_request frame Register.control.value).bind fun t payload _ hr => ?_
  obtain ⟨i, hd, hp⟩ := hr
  refine .raising fun _ hc u htu => ?_
  exact State.Confirmed.later ⟨i, frame, password, payload, hd, hf, hp, hc⟩ htu

private lemma ensures_currentLimit (amps maxAmps : PyFloat) (commit allow : Bool) :
    Client.Ensures (freeContract c) (fun t _ => t.Limited c amps)
      (asyncSetCurrentLimit amps maxAmps commit allow) t := by
  have hwrite : ∀ t : State β, Client.Ensures (freeContract c) (fun t _ => t.Limited c amps) (do
      let frame ← raising (buildWriteFloat .currentLimit amps)
      let _ ← request frame Register.currentLimit.value
      commitIf commit) t := by
    intro t
    refine (ensures_raising (buildWriteFloat .currentLimit amps)).bind fun t frame _ hf => ?_
    refine (ensures_request frame Register.currentLimit.value).bind fun t payload _ hr => ?_
    obtain ⟨i, hd, hp⟩ := hr
    have hl : t.Limited c amps := ⟨i, frame, payload, hd, hf, hp⟩
    exact ((ensures_any (commitIf commit)).constancy (fun _ _ hst h => h.later hst) hl).mono
      fun _ _ h => h.2
  unfold asyncSetCurrentLimit
  refine .ite (fun _ => .throw_bind) fun _ => .ite (fun _ => ?_) fun _ => hwrite t
  exact (ensures_any asyncGetStateValue).bind fun t state _ _ =>
    .ite (fun _ => .throw_bind) fun _ => hwrite t

end

/-- A method that has returned has achieved what its program ensures. -/
lemma ensured_of_dialogue (h : DialogueRun timeoutHint password P es s) {α : Type} {c : ℕ}
    {x : Client α} {f : α → β} {n : ℕ} (hp : .client (.spawn c (f <$> x).run n) ∈ es)
    {R : State β → Prop} (hR : ∀ t u, Later t u → R t → R u)
    (hx : ∀ t, Client.Ensures (freeContract c) (fun t _ => R t) x t)
    {b : β} {cn : Cancellation} (hc : s.client.calls c = some ⟨.finished (.ok b), cn⟩) :
    R s.client := by
  have hrun := client_of_dialogue h
  have hmem : .spawn c (f <$> x).run n ∈ es.map DialogueEvent.event := List.mem_map.2 ⟨_, hp, rfl⟩
  have hsup : Supervised c (fun _ _ => True) (fun t r => ∀ a, r = .ok a → R t) s.client := by
    have hrun' : ∀ t, (f <$> x).run.Ensures (freeContract c) (fun t r => ∀ a, r = .ok a → R t) t :=
      fun t => ((hx t).map fun t _ h u htu => hR t u htu h).run
    exact supervised_of_run (fun _ _ _ _ _ => trivial) (fun _ _ h => by cases h) hrun hmem hrun'
  exact (hsup.remains _ (.finished hc)).pure b rfl

/-! ### Confirmations in a dialogue -/

/-- A start or stop returns only if the charger has accepted its own frame or an earlier one with
the same command and password, with an echo of it: its own, if the answer to request `i` is
`own`. -/
def ControlConfirmed (own : ℕ → Prop) (es : List (DialogueEvent β)) (s : Dialogue β) : Prop :=
  ∀ c command (f : Unit → β) n, .client (.spawn c (f <$> asyncSendControl command).run n) ∈ es →
    ∀ b cn, s.client.calls c = some ⟨.finished (.ok b), cn⟩ →
      ∃ i frame password, s.client.Delivered c i frame ∧
        buildControl command password = .ok frame ∧
        (∃ j ≤ i, s.answers j = some frame.bytes ∧ ∃ c', s.client.Carries c' j frame) ∧
        (own i → s.answers i = some frame.bytes)

/-- A change of the current limit returns only if the charger has answered a frame: its own, with a
payload that is `ok` for it, if the answer to request `i` is `own`. -/
def LimitConfirmed (own : ℕ → Prop) (ok : Frame → Bytes → Prop) (es : List (DialogueEvent β))
    (s : Dialogue β) : Prop :=
  ∀ c amps maxAmps commit allow (f : Unit → β) n,
    .client (.spawn c (f <$> asyncSetCurrentLimit amps maxAmps commit allow).run n) ∈ es →
    ∀ b cn, s.client.calls c = some ⟨.finished (.ok b), cn⟩ →
      ∃ i frame payload, s.client.Delivered c i frame ∧
        buildWriteFloat .currentLimit amps = .ok frame ∧
        (∃ j ≤ i, s.HasAnswer j payload) ∧ (own i → s.answers i = some payload ∧ ok frame payload)

/-- The reply that a request returns is an answer to its own frame or to an earlier one. If it is
its own, a control command is never told of a different command. -/
def RepliesOwn (own : ℕ → Prop) (s : Dialogue β) : Prop :=
  ∀ c frame register payload, ⟨c, .request frame register, .ok payload⟩ ∈ s.client.blocks →
    ∃ i, s.client.Delivered c i frame ∧ (∃ j ≤ i, s.HasAnswer j payload) ∧
      (own i → s.answers i = some payload ∧
        (frame.register = Register.control.value → checkControlReply frame payload = .ok () ∨
          ∃ m, checkControlReply frame payload = .error (.spinEv .commandRejected m)))

lemma Dialogue.HasAnswer.isAnswer {c i : ℕ} {frame : Frame} {payload : Bytes}
    (h : s.HasAnswer i payload) (hd : s.client.Delivered c i frame) : IsAnswer frame payload := by
  obtain ⟨-, c', f, ⟨state, ht⟩, ha⟩ := h
  rw [hd] at ht
  cases ht
  exact ha

/-- A confirmation belongs to a command with the same bytes as the one that it confirms, and to the
very command if no answer to an earlier frame has come to its request. -/
theorem confirmation (h : DialogueRun timeoutHint password Always es s) :
    ControlConfirmed (fun i => DialogueRun timeoutHint password (OwnAnswer i) es s) es s ∧
    LimitConfirmed (fun i => DialogueRun timeoutHint password (OwnAnswer i) es s) IsAnswer es s ∧
    RepliesOwn (fun i => DialogueRun timeoutHint password (OwnAnswer i) es s) s := by
  refine ⟨fun c command f n hp b cn hc => ?_, fun c amps maxAmps commit allow f n hp b cn hc => ?_,
    fun c frame register payload hb => ?_⟩
  · obtain ⟨i, frame, pw, payload, hd, hf, hr, hcheck⟩ :=
      ensured_of_dialogue h hp (fun _ _ hst h => State.Confirmed.later h hst)
        (fun t => ensures_control command) hc
    have hreg := register_buildControl hf
    obtain ⟨register, ha⟩ := flag_of_resolved h hd hr
    obtain rfl := eq_bytes_of_accepted hreg ha hcheck
    obtain ⟨j, -, hj, -, -, hans, c', f', hcarries, hanswer⟩ := answer_of_resolved h hr
    obtain rfl := hanswer.eq_of_accepted hreg hcheck
    exact ⟨i, _, pw, hd, hf, ⟨j, hj, hans, c', hcarries⟩, fun hown => (own_of_resolved hown hr).1⟩
  · obtain ⟨i, frame, payload, hd, hf, hr⟩ :=
      ensured_of_dialogue h hp (fun _ _ hst h => State.Limited.later h hst)
        (fun t => ensures_currentLimit amps maxAmps commit allow) hc
    obtain ⟨j, -, hj, -, -, hans⟩ := answer_of_resolved h hr
    refine ⟨i, frame, payload, hd, hf, ⟨j, hj, hans⟩, fun hown => ?_⟩
    have ha := own_of_resolved hown hr
    exact ⟨ha.1, ha.isAnswer hd⟩
  · obtain ⟨i, hd, hr⟩ := achieved_of_run (client_of_dialogue h) hb rfl
    obtain ⟨j, -, hj, -, -, hans⟩ := answer_of_resolved h hr
    refine ⟨i, hd, ⟨j, hj, hans⟩, fun hown => ?_⟩
    have ha := own_of_resolved hown hr
    exact ⟨ha.1, (ha.isAnswer hd).not_mismatch⟩

lemma lt_of_delivered (h : DialogueRun timeoutHint password P es s) {c i : ℕ} {frame : Frame}
    (hd : s.client.Delivered c i frame) : i < s.client.nextId := by
  by_contra hi
  have hnone := ((State.consistent_of_run (client_of_dialogue h)).unborn i (not_lt.1 hi)).1
  rw [hd] at hnone
  cases hnone

/-- A send of call 1 is send 1, if no other of the first two is. -/
lemma eq_one_of_delivered (h : DialogueRun timeoutHint password P es s) {i : ℕ} {frame : Frame}
    (hn : s.client.nextId = 2) (h0 : (s.client.sendTasks 0).map SendTask.call = some 0)
    (hd : s.client.Delivered 1 i frame) : i = 1 := by
  have hi := lt_of_delivered h hd
  obtain rfl | rfl : i = 0 ∨ i = 1 := by omega
  · rw [hd] at h0
    cases h0
  · rfl

/-- Call `c` sends a command, as send `i`, and its frame is delivered. -/
def commandEvents (command : Command) (c i : ℕ) : List (DialogueEvent Unit) :=
  [.client (.spawn c (id <$> asyncSendControl command).run 0), .client (.run c), .client (.run c),
    .client (.run c), .client (.run c), .client (.sendStart i), .client (.sendEnd i .returned),
    .client (.run c)]

/-- The charger accepts a start, for the password 5. -/
def startAccepted (i : ℕ) : DialogueEvent Unit :=
  .answer i [0x10, 0xAC, 0x3C, 0x01, 0x01, 0x00, 0x00, 0x05]

/-- The charger refuses a start. -/
def startRefused (i : ℕ) : DialogueEvent Unit :=
  .answer i [0x10, 0xAC, 0x3C, 0x01, 0xFF, 0xFF, 0xFF, 0xFF]

def acceptedEvents : List (DialogueEvent Unit) :=
  .client (.link true) :: commandEvents .start 0 0 ++
    [startAccepted 0, .client (.run 0), .client (.run 0)]

theorem confirmation_start :
    ∃ s, DialogueRun none (some 5) Always acceptedEvents s ∧
      ∃ frame password, s.client.Delivered 0 0 frame ∧
        buildControl .start password = .ok frame ∧ s.answers 0 = some frame.bytes := by
  have h : DialogueRun none (some 5) Always acceptedEvents _ := Run.of_exec rfl
  have hown : DialogueRun none (some 5) (OwnAnswer 0) acceptedEvents _ := Run.of_exec rfl
  obtain ⟨i, frame, password, hd, hf, -, ha⟩ :=
    (confirmation h).1 0 .start id 0 (.tail _ (.head _)) () _ rfl
  obtain rfl : i = 0 := Nat.lt_one_iff.1 (lt_of_delivered h hd)
  exact ⟨_, h, frame, password, hd, hf, ha hown⟩

/-- The answer to a start that has timed out comes while another command waits for its own. -/
def lateEvents (command : Command) : List (DialogueEvent Unit) :=
  .client (.link true) :: commandEvents .start 0 0 ++ [.client (.expire 0), .client (.run 0)] ++
    commandEvents command 1 1 ++ [startAccepted 0, .client (.run 1), .client (.run 1)]

/-- The frame that sets the current limit to 16 A. -/
def limitFrame : Frame := ⟨0x4F, 0x01, 0x41, 0x80, 0x00, 0x00⟩

lemma buildWriteFloat_limit : buildWriteFloat .currentLimit (.finite 16) = .ok limitFrame := by
  have hmagnitude : binary32Magnitude |(16 : ℚ)| = 0x41800000 := by
    rw [abs_of_pos (by norm_num), show (16 : ℚ) = 2 ^ (4 : ℤ) by norm_num, binary32Magnitude,
      Rounding.fields_zpow (by norm_num)]
    rfl
  unfold buildWriteFloat packFloat
  simp only [hmagnitude]
  norm_num
  rfl

lemma asyncSetCurrentLimit_limit :
    asyncSetCurrentLimit (.finite 16) (.finite 32) false true =
      (do let _ ← request limitFrame Register.currentLimit.value; return ()) := by
  have hrange : minCurrentA.le (.finite 16) = true ∧ PyFloat.le (.finite 16) (.finite 32) = true :=
    ⟨by norm_num [PyFloat.le, minCurrentA], by norm_num [PyFloat.le]⟩
  unfold asyncSetCurrentLimit
  simp only [hrange, buildWriteFloat_limit]
  rfl

/-- The limit is set to 16 A, which the charger answers with 10 A. -/
def limitEvents (p : Client Unit) : List (DialogueEvent Unit) :=
  [.client (.link true), .client (.spawn 0 (id <$> p).run 0), .client (.run 0), .client (.run 0),
    .client (.run 0), .client (.sendStart 0), .client (.sendEnd 0 .returned), .client (.run 0),
    .answer 0 [0x10, 0xAC, 0x4F, 0x01, 0x41, 0x20, 0x00, 0x00], .client (.run 0), .client (.run 0)]

/-- A late answer confirms a start that the charger refuses, and a stop is told of the start that it
has sent before. A change of the current limit returns whatever the charger makes of it. -/
theorem late_answer_confirms :
    (¬ ∀ (es : List (DialogueEvent Unit)) s, DialogueRun none (some 5) Always es s →
      ControlConfirmed (fun _ => True) es s) ∧
    (¬ ∀ (es : List (DialogueEvent Unit)) s, DialogueRun none none Always es s →
      LimitConfirmed (fun i => DialogueRun none none (OwnAnswer i) es s)
        (fun frame payload => payload = frame.bytes) es s) ∧
    ¬ ∀ (es : List (DialogueEvent Unit)) s, DialogueRun none (some 5) Always es s →
      RepliesOwn (fun _ => True) s := by
  refine ⟨fun h => ?_, fun h => ?_, fun h => ?_⟩
  · have hrun : DialogueRun none (some 5) Always (lateEvents .start ++ [startRefused 1]) _ :=
      Run.of_exec rfl
    obtain ⟨i, frame, password, hd, -, -, ha⟩ := h _ _ hrun 1 .start id 0
      (List.mem_of_getElem? (i := 11) rfl) () _ rfl
    obtain rfl := eq_one_of_delivered hrun rfl rfl hd
    have hbytes := congrArg (Option.map fun task => task.frame.bytes) hd
    exact absurd (hbytes.trans (ha trivial).symm) (by decide)
  · have hrun : DialogueRun none none Always
      (limitEvents (do let _ ← request limitFrame Register.currentLimit.value; return ())) _ :=
      Run.of_exec rfl
    have hown : DialogueRun none none (OwnAnswer 0)
      (limitEvents (do let _ ← request limitFrame Register.currentLimit.value; return ())) _ :=
      Run.of_exec rfl
    rw [← asyncSetCurrentLimit_limit] at hrun hown
    obtain ⟨i, frame, payload, hd, -, -, hlimit⟩ := h _ _ hrun 0 (.finite 16) (.finite 32) false
      true id 0 (.tail _ (.head _)) () _ rfl
    obtain rfl : i = 0 := Nat.lt_one_iff.1 (lt_of_delivered hrun hd)
    obtain ⟨ha, rfl⟩ := hlimit hown
    have hbytes := congrArg (Option.map fun task => task.frame.bytes) hd
    exact absurd (hbytes.trans ha.symm) (by decide)
  · have hrun : DialogueRun none (some 5) Always (lateEvents .stop) _ := Run.of_exec rfl
    obtain ⟨i, hd, -, hown⟩ := h _ _ hrun 1 _ _ _ (.head _)
    obtain ⟨-, hcheck⟩ := hown trivial
    rcases hcheck rfl with h | ⟨m, h⟩ <;> cases h

end SpinevBle
