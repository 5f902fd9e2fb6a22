import SpinevBle.Charger.History
import SpinevBle.Charger.Traces
import SpinevBle.Lib.Arrivals
import SpinevBle.Protocol.Sessions

/-!
# What a history read collects

The buffer of records belongs to the client. A read empties it when it takes the lock, every record
that comes while it has the lock is put there, and when the wait is over the read takes what there
is. Nothing else that comes in the meantime makes a difference to it.
-/

namespace SpinevBle

open Arrivals Asyncio Interaction Transition

variable {β : Type} {s s' t : State β} {e : Event β} {c : ℕ} {count : ℤ}

/-! ### Sessions among the payloads -/

/-- The payloads that go into the buffer. -/
def historyRecords (payloads : List Bytes) : List Bytes :=
  payloads.filter fun payload => (isHistoryRecord payload).toOption = some true

/-- What decodes as a session looks like a history record. -/
lemma isHistoryRecord_of_decode {payload : Bytes} {session : ChargingSession}
    (h : decodeSessionRecord payload = some session) : isHistoryRecord payload = .ok true := by
  obtain ⟨⟨hlen, hfirst, hlast⟩, -⟩ := decodeSessionRecord_eq_some_iff.1 h
  have hfirst' : byteAt payload 0 = .ok recordStartMarker :=
    byteAt_eq_ok.2 (List.head?_eq_getElem? ▸ hfirst)
  have hlast' : byteAt payload (payload.length - 1) = .ok recordEndMarker :=
    byteAt_eq_ok.2 (List.getLast?_eq_getElem? ▸ hlast)
  unfold isHistoryRecord
  rw [if_pos (.inl hlen), hfirst', hlast']
  rfl

/-- The sessions of the buffer are those of all payloads. -/
lemma filterMap_historyRecords (payloads : List Bytes) :
    (historyRecords payloads).filterMap decodeSessionRecord =
      payloads.filterMap decodeSessionRecord := by
  rw [historyRecords, List.filterMap_filter]
  refine List.filterMap_congr fun payload _ => ?_
  cases h : decodeSessionRecord payload with
  | none => exact ite_self none
  | some session => simp [isHistoryRecord_of_decode h, Except.toOption]

lemma distinctSessions_eq (records : List Bytes) :
    distinctSessions records = distinct (records.filterMap decodeSessionRecord) := by
  rw [distinct, List.foldl_filterMap]
  refine congrFun (congrFun (congrArg List.foldl (funext fun sessions => funext fun raw => ?_)) _) _
  cases decodeSessionRecord raw <;> rfl

/-- A read that finds the records of some payloads returns their sessions in the order of first
arrival. -/
lemma firstArrivals_distinctSessions (payloads : List Bytes) :
    FirstArrivals (payloads.filterMap decodeSessionRecord)
      (distinctSessions (historyRecords payloads)) := by
  rw [distinctSessions_eq, filterMap_historyRecords]
  exact firstArrivals_distinct _

/-! ### The buffer during a read -/

/-- The payload that an event brings, if it brings one. -/
def Event.payloads : Event β → List Bytes
  | .notify payload => [payload]
  | _ => []

/-- Call `c` has the lock, for a history read. -/
def State.Reads (s : State β) (c : ℕ) (count : ℤ) : Prop :=
  ∃ hd, s.lock = some hd ∧ hd.call = c ∧ hd.job = .history count

/-- Only a new record changes the buffer while the lock is taken. -/
lemma Step.bulk_of_locked (h : Step s e s') (hl : s.lock ≠ none) (hl' : s'.lock ≠ none) :
    s'.bulk = s.bulk ++ historyRecords e.payloads := by
  have hsame : s.bulk = s.bulk ++ historyRecords [] := (List.append_nil _).symm
  cases h with
  | enter _ _ hn => exact absurd hn hl
  | reply | failed | raised | stop | idle => exact absurd rfl hl'
  | next =>
    refine Eq.trans ?_ hsame
    unfold State.nextFrame
    split <;> rfl
  | cancel | expire => exact (State.interrupt_bulk _ _ _ _).trans hsame
  | record hr => simp [historyRecords, Event.payloads, hr, Except.toOption]
  | @answer payload _ _ hp =>
    have hn : isHistoryRecord payload ≠ .ok true := fun hr =>
      absurd hp.isReply (by simp [isReply_eq_false_of_isHistoryRecord hr])
    obtain ⟨b, hb⟩ := exists_isHistoryRecord payload
    have hb' : b = false := by
      cases b with
      | true => exact absurd hb hn
      | false => rfl
    simp [historyRecords, Event.payloads, hb, hb', Except.toOption, State.answerWaiter]
  | ignore hr => simp [historyRecords, Event.payloads, hr, Except.toOption]
  | _ => exact hsame

/-- In the course of a read the buffer gets all records that come, and nothing else. -/
lemma bulk_of_run {timeoutHint : Option String} {password : Option ℤ}
    {P : State β → Event β → Prop} {es : List (Event β)}
    (h : Run (machine β timeoutHint password) (fun s e => P s e ∧ s.Reads c count) s es t)
    (ht : t.Reads c count) : t.bulk = s.bulk ++ historyRecords (es.flatMap Event.payloads) := by
  induction h with
  | nil s => exact (List.append_nil _).symm
  | @cons s u t e es hP hst hrun ih =>
    have hu : u.Reads c count := by
      cases hrun with
      | nil => exact ht
      | cons hP' => exact hP'.2
    obtain ⟨hd, hl, -⟩ := hP.2
    obtain ⟨hd', hl', -⟩ := hu
    have hstep : u.bulk = s.bulk ++ historyRecords e.payloads :=
      (Step.of_step hst).bulk_of_locked (by simp [hl]) (by simp [hl'])
    rw [ih ht, hstep, List.append_assoc, List.flatMap_cons, historyRecords, historyRecords,
      ← List.filter_append, historyRecords]

/-- A read that takes the lock empties the buffer. -/
lemma State.enter_history (s : State β) (c : ℕ) (cn : Cancellation)
    (k : Except Exc (List Bytes) → Program (Except Exc β)) :
    (s.enter c cn (.history count) k).bulk = [] ∧
      (s.enter c cn (.history count) k).bulkEvent = false := by
  unfold State.enter
  simp only
  split <;> exact ⟨rfl, rfl⟩

/-! ### The read as a whole -/

/-- The step at which call `c` takes the lock for a history read and empties the buffer. -/
structure Clears (s : State β) (c : ℕ) (count : ℤ) (s' : State β) : Prop where
  free : s.lock = none
  step : s.step (.run c) = some s'
  reads : s'.Reads c count
  bulk : s'.bulk = []
  bulkEvent : s'.bulkEvent = false

/-- The step at which the read of call `c` takes what is in the buffer, and leaves the lock. -/
structure Snapshots (s : State β) (c : ℕ) (count : ℤ) (records : List Bytes) (s' : State β) :
    Prop where
  reads : s.Reads c count
  step : s.step (.idle c) = some s'
  taken : records = s.bulk
  blocks : s'.blocks = ⟨c, .history count, .ok records⟩ :: s.blocks

/-- Whoever begins a history read has just emptied the buffer. -/
lemma Clears.of_step (hst : s.step e = some s') (hs : ¬ s.Reads c count) (hs' : s'.Reads c count) :
    e = .run c ∧ Clears s c count s' := by
  have hreads := hs'
  obtain ⟨hd, hl, rfl, hj⟩ := hs'
  rcases (Step.of_step hst).lock_origin hl with ⟨hd', hl', hcall, hjob⟩ | ⟨rfl, hfree, k, cn, hc, hm⟩
  · exact absurd ⟨hd', hl', hcall, hjob.trans hj⟩ hs
  · have hempty : s'.bulk = [] ∧ s'.bulkEvent = false := by
      generalize hd.job = j at hj k
      subst hj
      simp only [State.step, State.runCall, hc, hm, hfree, Option.bind_eq_bind, Option.bind_some,
        Bool.false_eq_true, if_false, Option.isNone_none, if_true, Option.some.injEq] at hst
      subst hst
      exact s.enter_history _ cn k
    exact ⟨rfl, hfree, hst, hreads, hempty.1, hempty.2⟩

/-- A history read that has ended with records has taken them from the buffer. -/
lemma Snapshots.of_step (hst : s.step e = some s') (hs : s.Consistent) {records : List Bytes}
    (hb : ⟨c, .history count, .ok records⟩ ∉ s.blocks)
    (hb' : ⟨c, .history count, .ok records⟩ ∈ s'.blocks) :
    e = .idle c ∧ Snapshots s c count records s' := by
  rcases (Step.of_step hst).blocks_cases hs with heq | ⟨b, heq, hend⟩
  · exact absurd (heq ▸ hb') hb
  · rw [heq, List.mem_cons, or_iff_left hb] at hb'
    subst hb'
    cases hend with
    | idle hl => exact ⟨rfl, ⟨_, hl, rfl, rfl⟩, hst, rfl, heq⟩

/-- What a history call has returned are the sessions of a block of its own. -/
lemma exists_block_of_history {timeoutHint : Option String} {password : Option ℤ}
    {P : State β → Event β → Prop} {es : List (Event β)}
    (h : ClientRun timeoutHint password P es s) {f : List ChargingSession → β} {n : ℕ}
    (hspawn : .spawn c (f <$> asyncGetHistory count).run n ∈ es) {a : β} {cn : Cancellation}
    (hc : s.calls c = some ⟨.finished (.ok a), cn⟩) :
    ∃ records, ⟨c, .history count, .ok records⟩ ∈ s.blocks ∧ a = f (distinctSessions records) := by
  rw [run_asyncGetHistory] at hspawn
  cases traced_of_run h hspawn (.finished hc) with
  | went hres hl =>
    rcases hres.of_op with ⟨-, hp⟩ | ⟨r, tr, rfl, hleft⟩
    · cases hp
    · obtain ⟨rfl, hp⟩ := hleft.of_pure
      cases r with
      | error x => cases hp
      | ok records =>
        cases hp
        exact ⟨records, (State.mem_blocksOf.1 (hl.mem (.head _))).1, rfl⟩
  | cancelled hp => cases hp

/-- The payloads that came between the clearing and the snapshot of the history read of call `c`,
which had the lock all the while. -/
def ReadsBetween (timeoutHint : Option String) (password : Option ℤ) (es : List (Event β)) (c : ℕ)
    (count : ℤ) (payloads : List Bytes) : Prop :=
  ∃ es₁ es₂ es₃ t u v w records, es = es₁ ++ .run c :: (es₂ ++ .idle c :: es₃) ∧
    ClientRun timeoutHint password Always es₁ t ∧ Clears t c count u ∧
    Run (machine β timeoutHint password) (fun s _ => s.Reads c count) u es₂ v ∧
    Snapshots v c count records w ∧ payloads = es₂.flatMap Event.payloads

/-- Where the records of a block come from. -/
lemma readsBetween_of_block {timeoutHint : Option String} {password : Option ℤ}
    {P : State β → Event β → Prop} {es : List (Event β)}
    (h : ClientRun timeoutHint password P es s) {records : List Bytes}
    (hb : ⟨c, .history count, .ok records⟩ ∈ s.blocks) :
    ∃ payloads, ReadsBetween timeoutHint password es c count payloads ∧
      records = historyRecords payloads := by
  obtain ⟨es', e, es₃, v, w, rfl, hv, hold, -, hlast, hnew, -⟩ :=
    h.exists_step (fun u => ⟨c, .history count, .ok records⟩ ∈ u.blocks) List.not_mem_nil hb
  obtain ⟨rfl, hsnap⟩ := Snapshots.of_step hlast (State.consistent_of_run hv) hold hnew
  have hinit : ¬ (State.init β timeoutHint password).Reads c count := by
    rintro ⟨hd, hl, -⟩
    cases hl
  obtain ⟨es₁, e, es₂, t, u, rfl, ht, hout, -, hfirst, hin, hread⟩ :=
    hv.exists_last_step (fun u => u.Reads c count) hinit hsnap.reads
  obtain ⟨rfl, hclear⟩ := Clears.of_step hfirst hout hin
  have hread' : Run (machine β timeoutHint password) (fun s _ => s.Reads c count) u es₂ v :=
    hread.mono fun _ _ hp => hp.2
  refine ⟨es₂.flatMap Event.payloads,
    ⟨es₁, es₂, es₃, t, u, v, w, records, ?_, ht.always, hclear, hread', hsnap, rfl⟩, ?_⟩
  · rw [List.append_assoc, List.cons_append]
  · rw [hsnap.taken, bulk_of_run hread hsnap.reads, hclear.bulk, List.nil_append]

/-! ### Replies in between -/

/-- What `_on_notify` makes of a payload that is no record has nothing to do with the buffer. -/
lemma State.onNotify_buffer (s : State β) {payload : Bytes}
    (hr : isHistoryRecord payload = .ok false) (bulk : List Bytes) (bulkEvent : Bool) :
    ({ s with bulk := bulk, bulkEvent := bulkEvent } : State β).onNotify payload =
      (s.onNotify payload).map fun s' => { s' with bulk := bulk, bulkEvent := bulkEvent } := by
  simp only [State.onNotify, hr, bind, Except.bind, Bool.false_eq_true, if_false]
  split_ifs
  · cases byteAt payload 2 with
    | error => rfl
    | ok register =>
      cases byteAt payload 3 with
      | error => rfl
      | ok flag =>
        cases hw : s.waiters.lookup register with
        | none => simp only [hw]; rfl
        | some w =>
          simp only [hw]
          split_ifs <;> rfl
  · rfl

/-- In whichever order a record and another payload come, the record goes to the buffer, and nothing
else, and the other payload does what it would do without the record. -/
structure Apart (s : State β) (record reply : Bytes) : Prop where
  puts : s.step (.notify record) = some { s with bulk := s.bulk ++ [record], bulkEvent := true }
  spares : ∃ s', s.step (.notify reply) = some s' ∧ s'.bulk = s.bulk ∧ s'.bulkEvent = s.bulkEvent
  comm : (s.step (.notify record)).bind (fun t => t.step (.notify reply)) =
    (s.step (.notify reply)).bind fun t => t.step (.notify record)

lemma State.step_record (s : State β) {record : Bytes} (hr : isHistoryRecord record = .ok true) :
    s.step (.notify record) = some { s with bulk := s.bulk ++ [record], bulkEvent := true } := by
  simp [State.step, State.onNotify, hr, bind, Except.bind, pure, Except.pure, Except.toOption]

lemma apart (s : State β) {record reply : Bytes} (hr : isHistoryRecord record = .ok true)
    (hn : isHistoryRecord reply = .ok false) : Apart s record reply := by
  obtain ⟨s', hs', -⟩ := Step.of_onNotify s reply
  have hstep : s.step (.notify reply) = some s' := by rw [State.step, hs']; rfl
  have hbuffer := s.onNotify_buffer hn s.bulk s.bulkEvent
  have hsame : s' = { s' with bulk := s.bulk, bulkEvent := s.bulkEvent } := by
    rw [hs'] at hbuffer
    exact Except.ok.inj hbuffer
  have hbulk : s'.bulk = s.bulk := by rw [hsame]
  have hevent : s'.bulkEvent = s.bulkEvent := by rw [hsame]
  refine ⟨s.step_record hr, ⟨s', hstep, hbulk, hevent⟩, ?_⟩
  rw [s.step_record hr, hstep, Option.bind_some, Option.bind_some, s'.step_record hr, State.step,
    s.onNotify_buffer hn, hs', hbulk]
  rfl

/-! ### Histories -/

/-- A history call that returns has collected, between the clearing of the buffer and the snapshot,
the records among the payloads, and its sessions are theirs in the order of first arrival, each
once. What else comes, then or before, makes no difference to it, nor does it make a difference to
that. -/
theorem history_exact {timeoutHint : Option String} {password : Option ℤ}
    {P : State β → Event β → Prop} {es : List (Event β)}
    (h : ClientRun timeoutHint password P es s) {f : List ChargingSession → β} {n : ℕ}
    (hspawn : .spawn c (f <$> asyncGetHistory count).run n ∈ es) {a : β} {cn : Cancellation}
    (hc : s.calls c = some ⟨.finished (.ok a), cn⟩) :
    (∃ payloads sessions, ReadsBetween timeoutHint password es c count payloads ∧
      FirstArrivals (payloads.filterMap decodeSessionRecord) sessions ∧ a = f sessions) ∧
    ∀ (t : State β) record reply, isHistoryRecord record = .ok true →
      isHistoryRecord reply = .ok false → Apart t record reply := by
  obtain ⟨records, hb, rfl⟩ := exists_block_of_history h hspawn hc
  obtain ⟨payloads, hread, rfl⟩ := readsBetween_of_block h hb
  exact ⟨⟨payloads, _, hread, firstArrivals_distinctSessions payloads, rfl⟩,
    fun t record reply => apart t⟩

/-- A session of 2 January 2020. -/
def recordA : Bytes :=
  [0x7c, 0x03, 0x04, 0x05, 0x00, 0x23, 0x78, 0x01, 0x02, 0x00, 0x23, 0x09, 0x0f, 0x1e, 0x00,
    0x23, 0x78, 0x01, 0x02, 0x00, 0x23, 0x00, 0x00, 0x04, 0xd2, 0x25]

/-- A session of the day after. -/
def recordB : Bytes :=
  [0x7c, 0x01, 0x02, 0x03, 0x00, 0x23, 0x78, 0x01, 0x03, 0x00, 0x23, 0x04, 0x05, 0x06, 0x00,
    0x23, 0x78, 0x01, 0x03, 0x00, 0x23, 0x00, 0x00, 0x02, 0xb7, 0x25]

/-- A read that gets a session twice, with a reply and a record without a date in between, after a
record that nobody has asked for. -/
def repeatedEvents : List (Event (List ChargingSession)) :=
  .notify recordB :: collectingEvents ++ [.notify recordA, .notify [0x10, 0xac, 0x37, 0x00, 0, 0, 0, 2],
    .notify recordB, .run 0, .notify (0x7c :: List.replicate 24 0 ++ [0x25]), .notify recordA, .run 0,
    .idle 0, .run 0]

theorem history_exact_repeated :
    ∃ s a cn, ClientRun none none Always repeatedEvents s ∧
      s.calls 0 = some ⟨.finished (.ok a), cn⟩ ∧
      ∃ payloads sessions, ReadsBetween none none repeatedEvents 0 10 payloads ∧
        FirstArrivals (payloads.filterMap decodeSessionRecord) sessions ∧ a = id sessions := by
  have h : ClientRun none none Always repeatedEvents _ := Run.of_exec rfl
  exact ⟨_, _, _, h, rfl, (history_exact h (.tail _ (.tail _ (.head _))) rfl).1⟩

end SpinevBle
