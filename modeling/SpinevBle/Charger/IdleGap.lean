import SpinevBle.Charger.Collection
import SpinevBle.Lib.Debounce

/-!
# The end of a collection

`_collect_bulk` on a clock: while it waits for records, payloads arrive at the times of a timetable,
time goes on as long as nothing is left to do, and other calls take their steps. What is done to the
client are steps of the machine. At one instant anything that can happen may come first.
-/

namespace SpinevBle

open Asyncio Debounce Interaction Transition

variable {β : Type}

/-! ### Payloads and their times -/

/-- The payloads that arrive after `start`, in order, finitely or endlessly many. -/
structure Timetable (start : ℚ) where
  entry : ℕ → Option (ℚ × Bytes)
  closed : ∀ i, entry i = none → entry (i + 1) = none
  start_le : ∀ a, entry 0 = some a → start ≤ a.1
  mono : ∀ i a b, entry i = some a → entry (i + 1) = some b → a.1 ≤ b.1

namespace Timetable

variable {start : ℚ} (T : Timetable start) {i n : ℕ} {a : ℚ × Bytes} {x y : ℚ}

/-- The first `n` payloads, or all if there are fewer. -/
def payloads (n : ℕ) : List Bytes := (List.range n).filterMap fun i => (T.entry i).map Prod.snd

/-- The time of the next payload or `till`, whichever is first. -/
def next (n : ℕ) (till : ℚ) : ℚ :=
  match T.entry n with
  | some a => min till a.1
  | none => till

/-- One of the first `n` payloads is a record, and arrives at `x`. -/
def Comes (n : ℕ) (x : ℚ) : Prop :=
  ∃ i < n, ∃ payload, T.entry i = some (x, payload) ∧ isHistoryRecord payload = .ok true

/-- The times at which records arrive. -/
def records : Set ℚ := {x | ∃ n, T.Comes n x}

/-- Finitely many payloads. -/
def ofList (l : List (ℚ × Bytes)) (hs : ∀ a ∈ l, start ≤ a.1)
    (hl : l.Pairwise fun a b => a.1 ≤ b.1) : Timetable start where
  entry i := l[i]?
  closed i hi := by
    rw [List.getElem?_eq_none_iff] at hi ⊢
    exact hi.trans i.le_succ
  start_le a ha := hs a (List.mem_of_getElem? ha)
  mono i a b ha hb := by
    obtain ⟨hi, rfl⟩ := List.getElem?_eq_some_iff.1 ha
    obtain ⟨hi', rfl⟩ := List.getElem?_eq_some_iff.1 hb
    exact List.pairwise_iff_getElem.1 hl i (i + 1) hi hi' i.lt_succ_self

variable {T}

lemma exists_le (h : T.entry i = some a) (hn : n ≤ i) : ∃ b, T.entry n = some b ∧ b.1 ≤ a.1 := by
  induction i, hn using Nat.le_induction generalizing a with
  | base => exact ⟨a, h, le_rfl⟩
  | succ i _ ih =>
    cases hi : T.entry i with
    | none =>
      rw [T.closed i hi] at h
      cases h
    | some a' =>
      obtain ⟨b, hb, hle⟩ := ih hi
      exact ⟨b, hb, hle.trans (T.mono i a' a hi h)⟩

lemma start_le_time (h : T.entry i = some a) : start ≤ a.1 := by
  obtain ⟨b, hb, hle⟩ := exists_le h (Nat.zero_le i)
  exact (T.start_le b hb).trans hle

lemma Comes.start_le (h : T.Comes n x) : start ≤ x := by
  obtain ⟨i, -, payload, hi, -⟩ := h
  exact start_le_time hi

lemma start_le_of_mem (h : x ∈ T.records) : start ≤ x := by
  obtain ⟨n, h⟩ := h
  exact h.start_le

lemma Comes.succ (h : T.Comes n x) : T.Comes (n + 1) x := by
  obtain ⟨i, hi, h⟩ := h
  exact ⟨i, hi.trans n.lt_succ_self, h⟩

/-- One more payload. -/
lemma comes_succ {payload : Bytes} (h : T.entry n = some (y, payload)) :
    T.Comes (n + 1) x ↔ T.Comes n x ∨ x = y ∧ isHistoryRecord payload = .ok true := by
  constructor
  · rintro ⟨i, hi, payload', hentry, hr⟩
    rcases (Nat.lt_succ_iff_lt_or_eq.1 hi) with hi | rfl
    · exact .inl ⟨i, hi, payload', hentry, hr⟩
    · rw [h] at hentry
      cases hentry
      exact .inr ⟨rfl, hr⟩
  · rintro (hc | ⟨rfl, hr⟩)
    · exact hc.succ
    · exact ⟨n, n.lt_succ_self, payload, h, hr⟩

lemma payloads_succ {payload : Bytes} (h : T.entry n = some (y, payload)) :
    T.payloads (n + 1) = T.payloads n ++ [payload] := by
  simp [payloads, List.range_succ, List.filterMap_append, h]

lemma next_le (T : Timetable start) (n : ℕ) (till : ℚ) : T.next n till ≤ till := by
  unfold next
  split
  · exact min_le_left _ _
  · exact le_rfl

/-- Nothing arrives before the next instant. -/
lemma next_le_time {till : ℚ} (h : T.entry i = some a) (hn : n ≤ i) : T.next n till ≤ a.1 := by
  obtain ⟨b, hb, hle⟩ := exists_le h hn
  unfold next
  rw [hb]
  exact (min_le_right _ _).trans hle

end Timetable

/-! ### The loop -/

/-- Where `_collect_bulk` is: at the head of its loop, in a wait whose timer ends at `till`, or
done. -/
inductive Collector
  | looping
  | waiting (till : ℚ)
  | returned (time : ℚ)
  deriving DecidableEq

/-- A client with a clock; `arrived` counts the payloads so far. -/
structure Clocked (β : Type) where
  now : ℚ
  phase : Collector
  client : State β
  arrived : ℕ

/-- What can happen next: time goes on, the next payload arrives, the collecting call goes on, the
timer of its wait ends, or something happens that is not about the collection. -/
inductive Tick (β : Type)
  | pass
  | arrive
  | loop
  | expire
  | other (e : Event β)

/-- What is about the collection of some call. -/
def Tick.own : Tick β → Bool
  | .other _ => false
  | _ => true

/-- Neither a step of call `c` nor a payload nor a drop. -/
def Event.aside (c : ℕ) : Event β → Bool
  | .notify _ | .disconnect => false
  | e => e.call ≠ some c

namespace Clocked

variable (c : ℕ) (deadline : ℚ) {start : ℚ} (T : Timetable start)

/-- One round of `_collect_bulk`, up to the wait. A wait for an event that is set is over at
once. -/
def loopHead (x : Clocked β) : Option (Clocked β) :=
  let remaining := deadline - x.now
  if remaining ≤ 0 then
    (x.client.step (.idle c)).map fun s => { x with client := s, phase := .returned x.now }
  else if x.client.bulkEvent then
    (x.client.step (.run c)).map fun s => { x with client := s }
  else some { x with phase := .waiting (x.now + min bulkIdleTimeout remaining) }

/-- Time goes on in a wait that nothing has ended, to the next instant at which something
happens. -/
def step (x : Clocked β) (tick : Tick β) : Option (Clocked β) :=
  match tick, x.phase with
  | _, .returned _ => none
  | .pass, .waiting till =>
    if x.client.bulkEvent = false ∧ x.now < T.next x.arrived till then
      some { x with now := T.next x.arrived till }
    else none
  | .pass, .looping => none
  | .arrive, _ =>
    match T.entry x.arrived with
    | some (time, payload) =>
      if time = x.now then
        (x.client.step (.notify payload)).map fun s =>
          { x with client := s, arrived := x.arrived + 1 }
      else none
    | none => none
  | .loop, .looping => x.loopHead c deadline
  | .loop, .waiting _ =>
    if x.client.bulkEvent then
      (x.client.step (.run c)).map fun s => { x with client := s, phase := .looping }
    else none
  | .expire, .waiting till =>
    if till ≤ x.now then
      (x.client.step (.idle c)).map fun s => { x with client := s, phase := .returned x.now }
    else none
  | .expire, .looping => none
  | .other e, _ => if e.aside c then (x.client.step e).map fun s => { x with client := s } else none

end Clocked

/-- `_collect_bulk`, called at `start` by call `c` of the client. -/
def collectBulk (c : ℕ) (timeout : ℚ) {start : ℚ} (T : Timetable start) (s : State β) :
    System (Clocked β) (Tick β) :=
  ⟨⟨start, .looping, s, 0⟩, fun x tick => x.step c (start + timeout) T tick⟩

/-! ### What one tick can do -/

/-- The transitions of the clocked client. -/
inductive Moves (c : ℕ) (deadline : ℚ) {start : ℚ} (T : Timetable start) (x : Clocked β) :
    Tick β → Clocked β → Prop
  | pass {till} (hp : x.phase = .waiting till) (he : x.client.bulkEvent = false)
      (hn : x.now < T.next x.arrived till) :
      Moves c deadline T x .pass { x with now := T.next x.arrived till }
  | arrive {payload s} (hp : ∀ e, x.phase ≠ .returned e)
      (ht : T.entry x.arrived = some (x.now, payload))
      (hs : x.client.step (.notify payload) = some s) :
      Moves c deadline T x .arrive { x with client := s, arrived := x.arrived + 1 }
  | deadline {s} (hp : x.phase = .looping) (hd : deadline ≤ x.now)
      (hs : x.client.step (.idle c) = some s) :
      Moves c deadline T x .loop { x with client := s, phase := .returned x.now }
  | again {s} (hp : x.phase = .looping) (hd : x.now < deadline) (he : x.client.bulkEvent = true)
      (hs : x.client.step (.run c) = some s) : Moves c deadline T x .loop { x with client := s }
  | wait (hp : x.phase = .looping) (hd : x.now < deadline) (he : x.client.bulkEvent = false) :
      Moves c deadline T x .loop
        { x with phase := .waiting (min deadline (x.now + bulkIdleTimeout)) }
  | wake {till s} (hp : x.phase = .waiting till) (he : x.client.bulkEvent = true)
      (hs : x.client.step (.run c) = some s) :
      Moves c deadline T x .loop { x with client := s, phase := .looping }
  | expire {till s} (hp : x.phase = .waiting till) (hn : till ≤ x.now)
      (hs : x.client.step (.idle c) = some s) :
      Moves c deadline T x .expire { x with client := s, phase := .returned x.now }
  | other {e s} (hp : ∀ e, x.phase ≠ .returned e) (he : e.aside c = true)
      (hs : x.client.step e = some s) : Moves c deadline T x (.other e) { x with client := s }

section

variable {c : ℕ} {deadline start : ℚ} {T : Timetable start} {x y : Clocked β} {tick : Tick β}

lemma Moves.of_loopHead (hp : x.phase = .looping) (h : x.loopHead c deadline = some y) :
    Moves c deadline T x .loop y := by
  unfold Clocked.loopHead at h
  simp only at h
  split_ifs at h with hd he
  · obtain ⟨s, hs, rfl⟩ := Option.map_eq_some_iff.1 h
    exact .deadline hp (sub_nonpos.1 hd) hs
  · obtain ⟨s, hs, rfl⟩ := Option.map_eq_some_iff.1 h
    exact .again hp (sub_pos.1 (not_le.1 hd)) he hs
  · cases h
    have htill : x.now + min bulkIdleTimeout (deadline - x.now) =
        min deadline (x.now + bulkIdleTimeout) := by
      rw [← min_add_add_left, add_sub_cancel, min_comm]
    rw [htill]
    exact .wait hp (sub_pos.1 (not_le.1 hd)) (by simpa using he)

/-- Every tick is one of the transitions. -/
theorem Moves.of_step (h : x.step c deadline T tick = some y) : Moves c deadline T x tick y := by
  unfold Clocked.step at h
  split at h
  · cases h
  · next till hp =>
    split_ifs at h with hn
    cases h
    exact .pass hp hn.1 hn.2
  · cases h
  · next hp =>
    split at h
    · next time payload ht =>
      split_ifs at h with hn
      subst hn
      obtain ⟨s, hs, rfl⟩ := Option.map_eq_some_iff.1 h
      exact .arrive hp ht hs
    · cases h
  · next hp => exact .of_loopHead hp h
  · next till hp =>
    split_ifs at h with he
    obtain ⟨s, hs, rfl⟩ := Option.map_eq_some_iff.1 h
    exact .wake hp he hs
  · next till hp =>
    split_ifs at h with hn
    obtain ⟨s, hs, rfl⟩ := Option.map_eq_some_iff.1 h
    exact .expire hp hn hs
  · cases h
  · next e hp =>
    split_ifs at h with he
    obtain ⟨s, hs, rfl⟩ := Option.map_eq_some_iff.1 h
    exact .other hp he hs

end

/-! ### The client meanwhile -/

/-- Call `c` collects records and has not been asked to cancel. -/
def State.Collecting (s : State β) (c : ℕ) (count : ℤ) : Prop :=
  ∃ k cn, s.lock = some (.collecting c count k) ∧ s.calls c = some ⟨.inside, cn⟩ ∧
    cn.mustCancel = false

section

variable {s s' : State β} {e : Event β} {c : ℕ} {count : ℤ}

lemma Event.call_of_aside (h : e.aside c = true) : e.call ≠ some c := by
  cases e with
  | notify | disconnect => cases h
  | sendStart | sendUnwind | sendEnd | link => exact Option.some_ne_none c ∘ Eq.symm
  | _ => simpa [Event.aside] using h

namespace State.Collecting

lemma of_frame (h : s.Collecting c count) (hst : s.step e = some s') (he : e.call ≠ some c) :
    s'.Collecting c count := by
  obtain ⟨k, cn, hl, hc, hm⟩ := h
  have hst' : Step s e s' := .of_step hst
  exact ⟨k, cn, hst'.lock_frame hl he, (hst'.calls_frame he).trans hc, hm⟩

/-- A wait that has been woken clears the event. -/
lemma step_run (h : s.Collecting c count) (he : s.bulkEvent = true) :
    s.step (.run c) = some { s with bulkEvent := false } := by
  obtain ⟨k, cn, hl, hc, hm⟩ := h
  simp [State.step, State.runCall, State.runCollecting, hc, hl, hm, he]

/-- The end of the collection hands over the buffer. -/
lemma exists_step_idle (h : s.Collecting c count) :
    ∃ s', s.step (.idle c) = some s' ∧
      s'.blocks = ⟨c, .history count, .ok s.bulk⟩ :: s.blocks := by
  obtain ⟨k, cn, hl, hc, hm⟩ := h
  simp [State.step, State.idleCall, hc, hl, hm, State.release]

lemma lock_ne_none (h : s.Collecting c count) : s.lock ≠ none := by
  obtain ⟨k, cn, hl, -⟩ := h
  simp [hl]

end State.Collecting

/-- A payload sets the event if it is a record. -/
lemma Step.bulkEvent_of_notify {payload : Bytes} (h : Step s (.notify payload) s') :
    s'.bulkEvent = true ↔ s.bulkEvent = true ∨ isHistoryRecord payload = .ok true := by
  have hn : isHistoryRecord payload ≠ .ok true → (s.bulkEvent = true ↔
      s.bulkEvent = true ∨ isHistoryRecord payload = .ok true) := fun hn => (or_iff_left hn).symm
  cases h with
  | record hr => simp [hr]
  | answer hp =>
    exact hn fun hr => absurd hp.isReply (by simp [isReply_eq_false_of_isHistoryRecord hr])
  | ignore hr => exact hn (by simp [hr])

/-- What others do leaves the buffer alone while the lock is taken. -/
lemma Step.bulk_of_aside (h : Step s e s') {hd : Holder β} (hl : s.lock = some hd)
    (he : e.aside hd.call = true) : s'.bulk = s.bulk ∧ s'.bulkEvent = s.bulkEvent := by
  have hcall := Event.call_of_aside he
  cases h with
  | record | answer | ignore | disconnect => cases he
  | enter _ _ hn =>
    rw [hl] at hn
    cases hn
  | awaitSend _ hl' | awaitReply _ hl' | reply _ hl' | failed _ hl' | raised _ hl' | next _ hl'
  | collect _ hl' | wake _ hl' | stop _ hl' | idle _ hl' | cancel _ hl' | expire _ hl' =>
    rw [hl] at hl'
    cases hl'
    exact absurd rfl hcall
  | _ => exact ⟨rfl, rfl⟩

end

/-! ### While the call collects -/

section

variable {c : ℕ} {count : ℤ} {start deadline w t : ℚ} {T : Timetable start} {s₀ s : State β}
  {x y : Clocked β} {tick : Tick β}

/-- The wait of the loop began at `w`, and a record that has come since has set the event. -/
structure Clocked.Waits (x : Clocked β) (deadline : ℚ) (T : Timetable start) (till w : ℚ) :
    Prop where
  began : w = start ∨ T.Comes x.arrived w
  le_now : w ≤ x.now
  early : w < deadline
  till_eq : till = min deadline (w + bulkIdleTimeout)
  now_le : x.now ≤ till
  since : ∀ y, T.Comes x.arrived y → y ≤ w ∨ y = x.now ∧ x.client.bulkEvent = true
  event : x.client.bulkEvent = true → T.Comes x.arrived x.now

/-- Whatever `_collect_bulk` is about to do next, there was no reason to end before. -/
inductive Clocked.InPhase (x : Clocked β) (deadline : ℚ) (T : Timetable start) : Collector → Prop
  | looping (h : x.now = start ∨ T.Comes x.arrived x.now) : InPhase x deadline T .looping
  | waiting {till w} (h : x.Waits deadline T till w) : InPhase x deadline T (.waiting till)

/-- The collection of call `c` goes on; it began with the client `s₀`. -/
structure Clocked.Collects (x : Clocked β) (c : ℕ) (count : ℤ) (deadline : ℚ)
    (T : Timetable start) (s₀ : State β) : Prop where
  collecting : x.client.Collecting c count
  going : Going bulkIdleTimeout start deadline T.records x.now
  past : ∀ i a, i < x.arrived → T.entry i = some a → a.1 ≤ x.now
  future : ∀ i a, x.arrived ≤ i → T.entry i = some a → x.now ≤ a.1
  bulk : x.client.bulk = s₀.bulk ++ historyRecords (T.payloads x.arrived)
  inPhase : x.InPhase deadline T x.phase

/-- The last record before `t`, if nothing arrives from now until then. -/
lemma Timetable.isGreatest_sofar {n : ℕ} (hw : w = start ∨ T.Comes n w) (hlt : w < t)
    (hmax : ∀ y, T.Comes n y → y < t → y ≤ w) (hnext : ∀ i a, n ≤ i → T.entry i = some a → t ≤ a.1) :
    IsGreatest (sofar start T.records t) w := by
  refine ⟨hw.imp_right fun h => ⟨⟨n, h⟩, hlt⟩, ?_⟩
  rintro y (rfl | ⟨⟨m, i, -, payload, hi, hr⟩, hy⟩)
  · exact hw.elim ge_of_eq Comes.start_le
  · rcases lt_or_ge i n with hin | hin
    · exact hmax y ⟨i, hin, payload, hi, hr⟩ hy
    · exact absurd hy (hnext i _ hin hi).not_gt

lemma bulkIdleTimeout_pos : 0 < bulkIdleTimeout := by norm_num [bulkIdleTimeout]

namespace Clocked.Collects

lemma at_head (h : x.Collects c count deadline T s₀) (hp : x.phase = .looping) :
    x.now = start ∨ T.Comes x.arrived x.now := by
  have hphase := h.inPhase
  rw [hp] at hphase
  cases hphase with
  | looping hl => exact hl

lemma in_wait (h : x.Collects c count deadline T s₀) {till : ℚ} (hp : x.phase = .waiting till) :
    ∃ w, x.Waits deadline T till w := by
  have hphase := h.inPhase
  rw [hp] at hphase
  cases hphase with
  | waiting hw => exact ⟨_, hw⟩

lemma init (hs : s₀.Collecting c count) :
    (⟨start, .looping, s₀, 0⟩ : Clocked β).Collects c count deadline T s₀ where
  collecting := hs
  going := .init
  past _ _ hi := absurd hi (Nat.not_lt_zero _)
  future _ _ _ ha := Timetable.start_le_time ha
  bulk := (List.append_nil _).symm
  inPhase := .looping (.inl rfl)

/-- Time goes on. -/
lemma pass (h : x.Collects c count deadline T s₀) {till : ℚ} (hp : x.phase = .waiting till)
    (he : x.client.bulkEvent = false) (hn : x.now < T.next x.arrived till) :
    ({ x with now := T.next x.arrived till } : Clocked β).Collects c count deadline T s₀ := by
  obtain ⟨w, hw⟩ := h.in_wait hp
  have hle : T.next x.arrived till ≤ till := T.next_le _ _
  have hsince : ∀ y, T.Comes x.arrived y → y ≤ w := fun y hy =>
    (hw.since y hy).resolve_right fun hev => by simp [he] at hev
  have hfuture : ∀ i a, x.arrived ≤ i → T.entry i = some a → T.next x.arrived till ≤ a.1 :=
    fun i a hi ha => Timetable.next_le_time ha hi
  have hgreatest : IsGreatest (sofar start T.records (T.next x.arrived till)) w :=
    Timetable.isGreatest_sofar hw.began (hw.le_now.trans_lt hn) (fun y hy _ => hsince y hy) hfuture
  refine ⟨h.collecting, h.going.advance hgreatest hw.le_now hn.le (hle.trans_eq hw.till_eq),
    fun i a hi ha => (h.past i a hi ha).trans hn.le, hfuture, h.bulk, ?_⟩
  simp only [hp]
  exact .waiting ⟨hw.began, hw.le_now.trans hn.le, hw.early, hw.till_eq, hle,
    fun y hy => .inl (hsince y hy), fun hev => by simp [he] at hev⟩

/-- A payload arrives. -/
lemma arrive (h : x.Collects c count deadline T s₀) {payload : Bytes}
    (ht : T.entry x.arrived = some (x.now, payload)) (hs : x.client.step (.notify payload) = some s) :
    ({ x with client := s, arrived := x.arrived + 1 } : Clocked β).Collects c count deadline T s₀ := by
  have hst : Step x.client (.notify payload) s := .of_step hs
  have hcollecting : s.Collecting c count := h.collecting.of_frame hs (Option.some_ne_none c).symm
  have hbulk := hst.bulk_of_locked h.collecting.lock_ne_none hcollecting.lock_ne_none
  have hevent := hst.bulkEvent_of_notify
  refine ⟨hcollecting, h.going, fun i a hi ha => ?_,
    fun i a hi ha => h.future i a (Nat.le_of_succ_le hi) ha, ?_, ?_⟩
  · rcases Nat.lt_succ_iff_lt_or_eq.1 hi with hi | rfl
    · exact h.past i a hi ha
    · rw [ht] at ha
      cases ha
      exact le_rfl
  · rw [hbulk, h.bulk, Timetable.payloads_succ ht, historyRecords, historyRecords, historyRecords,
      List.filter_append, List.append_assoc]
    rfl
  · have hphase := h.inPhase
    generalize x.phase = phase at hphase
    cases hphase with
    | looping hl => exact .looping (hl.imp_right Timetable.Comes.succ)
    | waiting hw =>
      refine .waiting ⟨hw.began.imp_right Timetable.Comes.succ, hw.le_now, hw.early, hw.till_eq,
        hw.now_le, fun y hy => ?_, fun hev => ?_⟩
      · rcases (Timetable.comes_succ ht).1 hy with hy | ⟨rfl, hr⟩
        · exact (hw.since y hy).imp_right (And.imp_right fun hev => hevent.2 (.inl hev))
        · exact .inr ⟨rfl, hevent.2 (.inr hr)⟩
      · rcases hevent.1 hev with hev | hr
        · exact (hw.event hev).succ
        · exact (Timetable.comes_succ ht).2 (.inr ⟨rfl, hr⟩)

/-- The loop goes on at its head. -/
lemma toHead (h : x.Collects c count deadline T s₀) (he : x.client.bulkEvent = true)
    (hs : x.client.step (.run c) = some s) (hn : x.now = start ∨ T.Comes x.arrived x.now) :
    ({ x with client := s, phase := .looping } : Clocked β).Collects c count deadline T s₀ := by
  rw [h.collecting.step_run he] at hs
  cases hs
  exact ⟨h.collecting, h.going, h.past, h.future, h.bulk, .looping hn⟩

/-- The loop waits. -/
lemma wait (h : x.Collects c count deadline T s₀) (hp : x.phase = .looping)
    (hd : x.now < deadline) (he : x.client.bulkEvent = false) :
    ({ x with phase := .waiting (min deadline (x.now + bulkIdleTimeout)) } : Clocked β).Collects
      c count deadline T s₀ := by
  have hle : x.now ≤ min deadline (x.now + bulkIdleTimeout) :=
    le_min hd.le (le_add_of_nonneg_right bulkIdleTimeout_pos.le)
  refine ⟨h.collecting, h.going, h.past, h.future, h.bulk,
    .waiting ⟨h.at_head hp, le_rfl, hd, rfl, hle, ?_, fun hev => by simp [he] at hev⟩⟩
  rintro y ⟨i, hi, payload, hentry, -⟩
  exact .inl (h.past i _ hi hentry)

/-- Something else happens. -/
lemma other (h : x.Collects c count deadline T s₀) {e : Event β} (he : e.aside c = true)
    (hs : x.client.step e = some s) :
    ({ x with client := s } : Clocked β).Collects c count deadline T s₀ := by
  have hcollecting : s.Collecting c count := h.collecting.of_frame hs (Event.call_of_aside he)
  obtain ⟨k, cn, hl, -⟩ := h.collecting
  obtain ⟨hbulk, hevent⟩ := (Step.of_step hs).bulk_of_aside hl he
  refine ⟨hcollecting, h.going, h.past, h.future, hbulk.trans h.bulk, ?_⟩
  have hphase := h.inPhase
  generalize x.phase = phase at hphase
  cases hphase with
  | looping hl => exact .looping hl
  | waiting hw =>
    exact .waiting ⟨hw.began, hw.le_now, hw.early, hw.till_eq, hw.now_le,
      fun y hy => (hw.since y hy).imp_right (And.imp_right hevent.trans),
      fun hev => hw.event (hevent ▸ hev)⟩

end Clocked.Collects

/-! ### The end of the collection -/

/-- The collection of call `c` has come to its end at `e`. -/
structure Clocked.Collected (x : Clocked β) (c : ℕ) (count : ℤ) (deadline : ℚ)
    (T : Timetable start) (s₀ : State β) (e : ℚ) : Prop where
  late : deadline < start → e = start
  endsAt : start ≤ deadline → EndsAt bulkIdleTimeout start deadline T.records e
  all : ∀ i a, T.entry i = some a → a.1 < e → i < x.arrived
  taken : ∃ blocks, x.client.blocks =
    ⟨c, .history count, .ok (s₀.bulk ++ historyRecords (T.payloads x.arrived))⟩ :: blocks

namespace Clocked.Collects

/-- The buffer is handed over where the collection ends. -/
private lemma hand (h : x.Collects c count deadline T s₀) (hs : x.client.step (.idle c) = some s)
    (hlate : deadline < start → x.now = start)
    (hends : start ≤ deadline → EndsAt bulkIdleTimeout start deadline T.records x.now) :
    ({ x with client := s, phase := .returned x.now } : Clocked β).Collected c count deadline T s₀
      x.now := by
  refine ⟨hlate, hends, fun i a hi hlt => ?_, ?_⟩
  · by_contra hge
    exact absurd hlt (h.future i a (not_lt.1 hge) hi).not_gt
  · obtain ⟨s', hs', hblocks⟩ := h.collecting.exists_step_idle
    rw [hs] at hs'
    cases hs'
    rw [h.bulk] at hblocks
    exact ⟨_, hblocks⟩

/-- The loop ends at its head, because the deadline has come. -/
lemma ends_at_deadline (h : x.Collects c count deadline T s₀) (hd : deadline ≤ x.now)
    (hs : x.client.step (.idle c) = some s) :
    ({ x with client := s, phase := .returned x.now } : Clocked β).Collected c count deadline T s₀
      x.now := by
  exact h.hand hs h.going.eq_start fun hle =>
    h.going.endsAt_deadline bulkIdleTimeout_pos.le hle (fun _ => Timetable.start_le_of_mem) hd

/-- The loop ends in a wait whose timer has run out. -/
lemma ends_waiting (h : x.Collects c count deadline T s₀) {till : ℚ} (hp : x.phase = .waiting till)
    (hn : till ≤ x.now) (hs : x.client.step (.idle c) = some s) :
    ({ x with client := s, phase := .returned x.now } : Clocked β).Collected c count deadline T s₀
      x.now := by
  obtain ⟨w, hw⟩ := h.in_wait hp
  have hnow : x.now = min deadline (w + bulkIdleTimeout) :=
    (le_antisymm hw.now_le hn).trans hw.till_eq
  have hlt : w < x.now := by
    rw [hnow]
    exact lt_min hw.early (lt_add_of_pos_right w bulkIdleTimeout_pos)
  have hmax : ∀ y, T.Comes x.arrived y → y < x.now → y ≤ w := fun y hy hlt =>
    (hw.since y hy).resolve_right fun hev => hlt.ne hev.1
  exact h.hand hs h.going.eq_start fun _ =>
    h.going.endsAt (Timetable.isGreatest_sofar hw.began hlt hmax h.future) hnow

end Clocked.Collects

/-- The collection of call `c` goes on as it should, or it has come to its end where it should. -/
def Clocked.Sound (x : Clocked β) (c : ℕ) (count : ℤ) (deadline : ℚ) (T : Timetable start)
    (s₀ : State β) : Prop :=
  x.Collects c count deadline T s₀ ∨
    ∃ e, x.phase = .returned e ∧ x.Collected c count deadline T s₀ e

lemma Clocked.Collects.not_returned (h : x.Collects c count deadline T s₀) (e : ℚ) :
    x.phase ≠ .returned e := by
  intro hp
  have hphase := h.inPhase
  rw [hp] at hphase
  cases hphase

lemma Clocked.Sound.collects (h : x.Sound c count deadline T s₀) (hp : ∀ e, x.phase ≠ .returned e) :
    x.Collects c count deadline T s₀ :=
  h.resolve_right fun ⟨e, he, _⟩ => hp e he

/-- No tick spoils a collection. -/
lemma Clocked.Sound.step (h : x.Sound c count deadline T s₀) (hm : Moves c deadline T x tick y) :
    y.Sound c count deadline T s₀ := by
  cases hm with
  | pass hp he hn => exact .inl ((h.collects (by simp [hp])).pass hp he hn)
  | arrive hp ht hs => exact .inl ((h.collects hp).arrive ht hs)
  | deadline hp hd hs => exact .inr ⟨_, rfl, (h.collects (by simp [hp])).ends_at_deadline hd hs⟩
  | again hp hd he hs =>
    have hx := h.collects (by simp [hp])
    have hy := hx.toHead he hs (hx.at_head hp)
    rw [← hp] at hy
    exact .inl hy
  | wait hp hd he => exact .inl ((h.collects (by simp [hp])).wait hp hd he)
  | wake hp he hs =>
    have hx := h.collects (by simp [hp])
    obtain ⟨w, hw⟩ := hx.in_wait hp
    exact .inl (hx.toHead he hs (.inr (hw.event he)))
  | expire hp hn hs => exact .inr ⟨_, rfl, (h.collects (by simp [hp])).ends_waiting hp hn hs⟩
  | other hp he hs => exact .inl ((h.collects hp).other he hs)

/-! ### The collection does come to its end -/

/-- As long as the collection goes on, something about it can happen next. -/
lemma Clocked.Collects.exists_step (h : x.Collects c count deadline T s₀) :
    ∃ tick y, tick.own = true ∧ x.step c deadline T tick = some y := by
  obtain ⟨s', hidle, -⟩ := h.collecting.exists_step_idle
  have hphase := h.inPhase
  generalize hp : x.phase = phase at hphase
  cases hphase with
  | looping =>
    refine ⟨.loop, ?_⟩
    simp only [Clocked.step, hp, Clocked.loopHead, hidle, Tick.own, true_and]
    split_ifs with hd he
    · exact ⟨_, rfl⟩
    · rw [h.collecting.step_run he]
      exact ⟨_, rfl⟩
    · exact ⟨_, rfl⟩
  | @waiting till w hw =>
    by_cases he : x.client.bulkEvent = true
    · refine ⟨.loop, ?_⟩
      simp only [Clocked.step, hp, if_pos he, h.collecting.step_run he]
      exact ⟨_, rfl, rfl⟩
    by_cases hn : till ≤ x.now
    · refine ⟨.expire, ?_⟩
      simp only [Clocked.step, hp, if_pos hn, hidle]
      exact ⟨_, rfl, rfl⟩
    by_cases hnext : x.now < T.next x.arrived till
    · refine ⟨.pass, ?_⟩
      simp only [Clocked.step, hp, if_pos (And.intro (Bool.eq_false_of_not_eq_true he) hnext)]
      exact ⟨_, rfl, rfl⟩
    -- the wait is not over and time cannot go on, so there is a payload to come now
    · unfold Timetable.next at hnext
      split at hnext
      · next a ha =>
        obtain ⟨time, payload⟩ := a
        have htime : time = x.now := by
          refine le_antisymm ?_ (h.future _ _ le_rfl ha)
          exact (min_le_iff.1 (not_lt.1 hnext)).resolve_left hn
        obtain ⟨t, ht, -⟩ := Step.of_onNotify x.client payload
        refine ⟨.arrive, ?_⟩
        simp only [Clocked.step, hp, ha, htime, if_true, State.step, ht, Except.toOption]
        exact ⟨_, rfl, rfl⟩
      · exact absurd (not_lt.1 hnext) hn

/-- What is left to do before time can go on, and the end of the wait. -/
def Clocked.todo (x : Clocked β) (T : Timetable start) : ℕ :=
  match x.phase with
  | .returned _ => 0
  | .looping => if x.client.bulkEvent then 4 else 3
  | .waiting till =>
    if x.client.bulkEvent then 4 else if x.now < T.next x.arrived till then 2 else 1

lemma Clocked.todo_le (x : Clocked β) (T : Timetable start) : x.todo T ≤ 4 := by
  unfold Clocked.todo
  split
  · exact Nat.zero_le 4
  · split_ifs <;> decide
  · split_ifs <;> decide

lemma Clocked.todo_pos (x : Clocked β) (T : Timetable start) (hp : ∀ e, x.phase ≠ .returned e) :
    0 < x.todo T := by
  unfold Clocked.todo
  split
  · next e he => exact absurd he (hp e)
  · split_ifs <;> decide
  · split_ifs <;> decide

/-- A payload that comes by the deadline is among the first `n`, if the next one does not. -/
lemma Clocked.Collects.arrived_lt (h : x.Collects c count deadline T s₀) {n : ℕ}
    (hn : ∀ a, T.entry n = some a → max start deadline < a.1) {payload : Bytes}
    (ht : T.entry x.arrived = some (x.now, payload)) : x.arrived < n := by
  by_contra hge
  obtain ⟨b, hb, hle⟩ := Timetable.exists_le ht (not_lt.1 hge)
  exact absurd (hn b hb) (hle.trans h.going.le_max).not_gt

/-- Every payload to come and everything left to do pays for the ticks that are about the
collection. -/
lemma Clocked.Sound.budget (h : x.Sound c count deadline T s₀) {n : ℕ}
    (hn : ∀ a, T.entry n = some a → max start deadline < a.1) (hm : Moves c deadline T x tick y) :
    4 * (n - y.arrived) + y.todo T + (if tick.own then 1 else 0) ≤
      4 * (n - x.arrived) + x.todo T := by
  cases hm with
  | pass hp he hnow => simp [Clocked.todo, hp, he, hnow, Tick.own]
  | @arrive payload s hp ht hs =>
    have hlt := (h.collects hp).arrived_lt hn ht
    have hpos := x.todo_pos T hp
    have hle := Clocked.todo_le { x with client := s, arrived := x.arrived + 1 } T
    simp only [Tick.own, if_true]
    omega
  | deadline hp hd hs =>
    have hpos := x.todo_pos T (by simp [hp])
    simp only [Clocked.todo, Tick.own, if_true] at hpos ⊢
    omega
  | again hp hd he hs =>
    rw [(h.collects (by simp [hp])).collecting.step_run he] at hs
    cases hs
    simp [Clocked.todo, hp, he, Tick.own]
  | wait hp hd he =>
    simp only [Clocked.todo, hp, he, Tick.own, Bool.false_eq_true, if_false, if_true]
    split_ifs <;> omega
  | wake hp he hs =>
    rw [(h.collects (by simp [hp])).collecting.step_run he] at hs
    cases hs
    simp [Clocked.todo, hp, he, Tick.own]
  | expire hp hnow hs =>
    have hpos := x.todo_pos T (by simp [hp])
    simp only [Clocked.todo, Tick.own, if_true] at hpos ⊢
    omega
  | other hp he hs =>
    obtain ⟨k, cn, hl, -⟩ := (h.collects hp).collecting
    obtain ⟨-, hevent⟩ := (Step.of_step hs).bulk_of_aside hl he
    simp [Clocked.todo, hevent, Tick.own]

end

/-! ### Collections -/

section

variable {c : ℕ} {count : ℤ} {start timeout : ℚ} {T : Timetable start} {s : State β}
  {x : Clocked β} {ticks : List (Tick β)} {P : Clocked β → Tick β → Prop}

private lemma sound_step (u : Clocked β) (tick : Tick β) (v : Clocked β)
    (hu : u.Sound c count (start + timeout) T s)
    (hst : (collectBulk c timeout T s).step u tick = some v) :
    v.Sound c count (start + timeout) T s :=
  hu.step (.of_step hst)

lemma sound_of_run (h : Run (collectBulk c timeout T s) P (collectBulk c timeout T s).init ticks x)
    (hs : s.Collecting c count) : x.Sound c count (start + timeout) T s :=
  h.invariant (fun u tick v hu _ => sound_step u tick v hu) (.inl (.init hs))

/-- The ticks of a collection are bounded by the payloads that come by the deadline. -/
lemma countP_own_le (h : Run (collectBulk c timeout T s) P (collectBulk c timeout T s).init ticks x)
    (hs : s.Collecting c count) {n : ℕ}
    (hn : ∀ a, T.entry n = some a → max start (start + timeout) < a.1) :
    ticks.countP Tick.own ≤ 4 * n + 4 := by
  have hbudget : ∀ u tick v, u.Sound c count (start + timeout) T s →
      (collectBulk c timeout T s).step u tick = some v →
      4 * (n - v.arrived) + v.todo T + (if tick.own then 1 else 0) ≤
        4 * (n - u.arrived) + u.todo T :=
    fun u tick v hu hst => hu.budget hn (.of_step hst)
  have hrun : ticks.countP Tick.own + (4 * (n - x.arrived) + x.todo T) ≤
      4 * (n - 0) + (collectBulk c timeout T s).init.todo T :=
    h.countP_add_le sound_step hbudget (.inl (.init hs))
  have htodo := Clocked.todo_le (collectBulk c timeout T s).init T
  omega

/-- What happens to the client is a run of the machine. -/
theorem client_run (timeoutHint : Option String) (password : Option ℤ)
    (h : Run (collectBulk c timeout T s) P (collectBulk c timeout T s).init ticks x) :
    ∃ es, Run (machine β timeoutHint password) Always s es x.client := by
  refine h.expand Clocked.client fun u tick v hst => ?_
  have hone : ∀ {e : Event β} {t : State β}, u.client.step e = some t →
      ∃ es, Run (machine β timeoutHint password) Always u.client es t := fun hst =>
    ⟨_, .single trivial hst⟩
  cases Moves.of_step hst with
  | pass | wait => exact ⟨[], .nil _⟩
  | arrive _ _ hs | deadline _ _ hs | again _ _ _ hs | wake _ _ hs | expire _ _ hs | other _ _ hs =>
    exact hone hs

/-- A history read that begins to collect has not been asked to cancel. -/
lemma Step.collecting {s s' : State β} {e : Event β} (hst : Step s e s')
    {k : Except Exc (List Bytes) → Program (Except Exc β)}
    (hl : s'.lock = some (.collecting c count k)) (hn : s.lock ≠ s'.lock) :
    s'.Collecting c count := by
  cases hst with
  | collect hc hl' =>
    cases hl
    exact ⟨_, _, rfl, Function.update_self _ _ _, rfl⟩
  | enter =>
    obtain ⟨fl, hd, -⟩ := (State.goesOn_enter _ _ _ _ _).lock hl
    cases hd
  | next =>
    obtain ⟨fl, hd, -⟩ := (State.goesOn_nextFrame _ _ _ _ _ _).lock hl
    cases hd
  | awaitSend | awaitReply | reply | failed | raised | stop | idle => cases hl
  | expire =>
    rw [State.interrupt_lock] at hl
    cases hl
  | cancel => exact absurd (State.interrupt_lock _ _ _ _).symm hn
  | _ => exact absurd rfl hn

/-- A collection ends at the first gap of `BULK_IDLE_TIMEOUT` between records, or at the deadline,
with everything that came before. Until then it can always go on, and where only so many payloads
come by the deadline it takes only so many ticks. -/
theorem collection_ends (hs : s.Collecting c count)
    (h : Run (collectBulk c timeout T s) P (collectBulk c timeout T s).init ticks x) :
    (∀ e, x.phase = .returned e →
      (timeout < 0 → e = start) ∧
      (0 ≤ timeout → e ≤ start + timeout ∧
        EndsAt bulkIdleTimeout start (start + timeout) T.records e ∧
        ((∀ y, y = start ∨ y ∈ T.records → y + bulkIdleTimeout ∉ T.records) →
          ∀ e', EndsAt bulkIdleTimeout start (start + timeout) T.records e' → e = e')) ∧
      (∀ i a, T.entry i = some a → a.1 < e → i < x.arrived) ∧
      ∃ blocks, x.client.blocks =
        ⟨c, .history count, .ok (s.bulk ++ historyRecords (T.payloads x.arrived))⟩ :: blocks) ∧
    ((∀ e, x.phase ≠ .returned e) → x.now ≤ max start (start + timeout) ∧
      ∃ tick y, tick.own = true ∧ (collectBulk c timeout T s).step x tick = some y) ∧
    ∀ n, (∀ a, T.entry n = some a → max start (start + timeout) < a.1) →
      ticks.countP Tick.own ≤ 4 * n + 4 := by
  have hsound := sound_of_run h hs
  refine ⟨fun e he => ?_, fun hp => ?_, fun n hn => countP_own_le h hs hn⟩
  · rcases hsound with hx | ⟨e', he', hx⟩
    · exact absurd he (hx.not_returned e)
    · rw [he] at he'
      cases he'
      refine ⟨fun hneg => hx.late (add_lt_of_neg_right start hneg), fun hpos => ?_, hx.all, hx.taken⟩
      have hle : start ≤ start + timeout := le_add_of_nonneg_right hpos
      exact ⟨(hx.endsAt hle).le_deadline, hx.endsAt hle, fun hties e' he' =>
        (hx.endsAt hle).unique he' bulkIdleTimeout_pos.le hle hties⟩
  · have hx := hsound.collects hp
    exact ⟨hx.going.le_max, hx.exists_step⟩

/-- A history read that begins to collect in a run of the client has not been asked to cancel, so its
collection ends as above, and what happens meanwhile goes on with the run. -/
theorem collection_in_run {timeoutHint : Option String} {password : Option ℤ} {es : List (Event β)}
    {u : State β} {e : Event β} {k : Except Exc (List Bytes) → Program (Except Exc β)}
    (hu : ClientRun timeoutHint password Always es u) (hst : u.step e = some s)
    (hl : s.lock = some (.collecting c count k)) (hn : u.lock ≠ s.lock)
    (h : Run (collectBulk c timeout T s) P (collectBulk c timeout T s).init ticks x) :
    s.Collecting c count ∧
      ∃ es', ClientRun timeoutHint password Always (es ++ e :: es') x.client := by
  obtain ⟨es', hrun⟩ := client_run timeoutHint password h
  exact ⟨(Step.of_step hst).collecting hl hn, es', hu.append (.cons trivial hst hrun)⟩

end

/-- The client of a read that has just begun to collect. -/
def collectingClient : State (List ChargingSession) :=
  ((machine _ none none).exec Always (.init _ none none) collectingEvents).getD
    (.init _ none none)

/-- Two sessions and a reply. -/
def briefTable : Timetable 0 :=
  .ofList [(1 / 10, recordA), (1 / 10, [0x10, 0xac, 0x37, 0x00, 0, 0, 0, 2]), (3 / 10, recordB)]
    (by simp; norm_num) (by simp; norm_num)

/-- The loop waits for each of them, and then for the gap. -/
def briefTicks : List (Tick (List ChargingSession)) :=
  [.loop, .pass, .arrive, .loop, .arrive, .loop, .pass, .arrive, .loop, .loop, .pass, .expire]

theorem collection_ends_brief :
    ClientRun none none Always collectingEvents collectingClient ∧ ∃ x,
      Run (collectBulk 0 5 briefTable collectingClient) Always
        (collectBulk 0 5 briefTable collectingClient).init briefTicks x ∧
      EndsAt bulkIdleTimeout 0 (0 + 5) briefTable.records (7 / 10) := by
  have hs : collectingClient.Collecting 0 10 := ⟨_, _, rfl, rfl, rfl⟩
  have hphase : ((collectBulk 0 5 briefTable collectingClient).exec Always
      (collectBulk 0 5 briefTable collectingClient).init briefTicks).map Clocked.phase =
      some (.returned (7 / 10)) := by decide +kernel
  obtain ⟨x, hx, hphase⟩ := Option.map_eq_some_iff.1 hphase
  have h := Run.of_exec hx
  exact ⟨Run.of_exec rfl, x, h, (((collection_ends hs h).1 _ hphase).2.1 (by norm_num)).2.1⟩

end SpinevBle
