import SpinevBle.Charger.Matching

/-!
# Replies are used once and in order

A payload carries no number that would tell it from another one like it. What the requests of a
client have returned, one after the other, is nevertheless a selection of what the charger has sent,
in the order in which it came: the only reply in hand is that of the request in flight.
-/

namespace SpinevBle

open Asyncio Interaction Transition

variable {β : Type} {s s' : State β} {e : Event β}

/-! ### Replies -/

/-- The reply that a request has returned. -/
def Block.reply? : Block → Option Bytes
  | ⟨_, .request _ _, .ok payload⟩ => some payload
  | _ => none

@[simp] lemma Block.reply?_error (c : ℕ) (j : Job) (x : Exc) :
    Block.reply? ⟨c, j, .error x⟩ = none := by
  cases j <;> rfl

/-- What the charger has sent. -/
def Event.payload? : Event β → Option Bytes
  | .notify payload => some payload
  | _ => none

/-- The replies that requests have returned, oldest first. -/
def State.replies (s : State β) : List Bytes := s.blocks.reverse.filterMap Block.reply?

/-- The reply of the request in flight, if it is in. -/
def State.inHand (s : State β) : List Bytes :=
  match s.lock with
  | some (.delivering _ (.request _ _) _ _ fl) =>
    match s.futures fl.id with
    | .result payload => [payload]
    | _ => []
  | _ => []

lemma State.inHand_cases (s : State β) :
    s.inHand = [] ∨ ∃ c frame register i payload, s.Requesting c frame register i ∧
      s.futures i = .result payload ∧ s.inHand = [payload] := by
  unfold State.inHand
  split
  · next c frame register k n fl hl =>
    split
    · next payload hf => exact .inr ⟨c, frame, register, _, payload, ⟨k, n, fl, hl, rfl⟩, hf, rfl⟩
    · exact .inl rfl
  · exact .inl rfl

lemma State.Requesting.inHand {c : ℕ} {frame : Frame} {register : UInt8} {i : ℕ} {payload : Bytes}
    (h : s.Requesting c frame register i) (hf : s.futures i = .result payload) :
    s.inHand = [payload] := by
  obtain ⟨k, n, fl, hl, rfl⟩ := h
  simp [State.inHand, hl, hf]

/-! ### One step -/

private lemma lock_of_goesOn {t : State β} {c n : ℕ} {cn : Cancellation} {j : Job}
    {k : Except Exc j.Value → Program (Except Exc β)} {b : Block} (hg : t.GoesOn c cn j k n s')
    (hb : s'.blocks = b :: t.blocks) : s'.lock = none := by
  cases hg with
  | launch => exact absurd hb (List.cons_ne_self _ _).symm
  | release => rfl

/-- A job that comes to an end leaves the lock free. -/
lemma Step.lock_of_block (h : Step s e s') {b : Block} (hb : s'.blocks = b :: s.blocks) :
    s'.lock = none := by
  have hsame : ∀ {t : State β}, t.blocks = s.blocks → t.blocks ≠ b :: s.blocks := fun ht hn =>
    (List.cons_ne_self _ _).symm (ht.symm.trans hn)
  cases h with
  | enter => exact lock_of_goesOn (s.goesOn_enter _ _ _ _) hb
  | next => exact lock_of_goesOn (State.goesOn_nextFrame _ _ _ _ _ _) hb
  | reply | failed | raised | stop | idle => rfl
  | cancel | expire => exact absurd hb (hsame (State.interrupt_blocks _ _ _ _))
  | _ => exact absurd hb (hsame rfl)

/-- A reply in hand was there before, or it has just come. -/
lemma Step.inHand_sublist (h : Step s e s') (hs : s.Consistent) :
    s'.inHand.Sublist (s.inHand ++ e.payload?.toList) := by
  rcases s'.inHand_cases with hi | ⟨c, frame, register, i, payload, ⟨k, n, fl, hl, rfl⟩, hf, hi⟩
  · rw [hi]
    exact List.nil_sublist _
  rw [hi]
  have hc := h.futures_cases fl.id
  rw [hf] at hc
  cases hc with
  | answer => exact List.sublist_append_right _ _
  | same hf' =>
    rcases h.lock_cases hl with ⟨fl', hl', hid⟩ | hnew
    · have hreq : s.Requesting c frame register fl.id := ⟨k, n, fl', hl', hid⟩
      rw [hreq.inHand hf'.symm]
      exact List.sublist_append_left _ _
    · rw [(hs.unborn _ hnew.ge).2] at hf'
      cases hf'

/-- A step uses a reply that was in hand, or takes one that comes. -/
lemma Step.replies_sublist (h : Step s e s') (hs : s.Consistent) :
    (s'.replies ++ s'.inHand).Sublist (s.replies ++ s.inHand ++ e.payload?.toList) := by
  rcases h.blocks_cases hs with hb | ⟨b, hb, hend⟩
  · rw [State.replies, hb, List.append_assoc]
    exact (h.inHand_sublist hs).append_left _
  · have hfree : s'.inHand = [] := by rw [State.inHand, h.lock_of_block hb]
    have hreplies : s'.replies = s.replies ++ b.reply?.toList := by
      rw [State.replies, hb, List.reverse_cons, List.filterMap_append]
      cases hr : b.reply? <;> simp [State.replies, hr]
    rw [hfree, hreplies, List.append_nil, List.append_assoc]
    refine List.Sublist.append_left ?_ _
    cases hend with
    | reply hl ht hd hf =>
      have hreq : s.Requesting _ _ _ _ := ⟨_, _, _, hl, rfl⟩
      rw [hreq.inHand hf]
      exact List.sublist_append_left _ _
    | error =>
      rw [Block.reply?_error]
      exact List.nil_sublist _
    | written | nothing | badCount | stop | idle => exact List.nil_sublist _

/-! ### All runs -/

/-- What requests have returned and the reply in hand are among what has come, in order. -/
lemma replies_sublist_of_run {timeoutHint : Option String} {password : Option ℤ}
    {P : State β → Event β → Prop} {es : List (Event β)} {t : State β}
    (h : Run (machine β timeoutHint password) P s es t) (hs : s.Consistent) :
    (t.replies ++ t.inHand).Sublist (s.replies ++ s.inHand ++ es.filterMap Event.payload?) := by
  induction h with
  | nil s => simp
  | @cons s u t e es _ hst _ ih =>
    have hst : Step s e u := Step.of_step hst
    have hes : (e :: es).filterMap Event.payload? =
        e.payload?.toList ++ es.filterMap Event.payload? := by
      cases hp : e.payload? <;> simp [hp]
    rw [hes, ← List.append_assoc]
    exact (ih (hs.step hst)).trans ((hst.replies_sublist hs).append_right _)

/-- In every run of one client, whatever its calls and in whatever order they take the lock, the
replies that requests have returned are among the payloads that have come, in the order in which
they came and each used once. -/
theorem replies_in_order {timeoutHint : Option String} {password : Option ℤ}
    {es : List (Event β)} (h : ClientRun timeoutHint password Always es s) :
    s.replies.Sublist (es.filterMap Event.payload?) :=
  (List.sublist_append_left _ _).trans (replies_sublist_of_run h (.init _ _))

/-- The state is read, and its answer comes twice. -/
def readStateTwice : List (Event ℕ) :=
  readStateEvents ++ [.notify [0x10, 0xAC, 0x67, 0x00, 0x00, 0x00, 0x00, 0x02],
    .sendEnd 0 .returned, .run 0]

theorem replies_in_order_read_state :
    ∃ s, ClientRun none none Always readStateTwice s ∧
      s.replies = [[0x10, 0xAC, 0x67, 0x00, 0x00, 0x00, 0x00, 0x02]] ∧
      s.replies.Sublist (readStateTwice.filterMap Event.payload?) := by
  have h : ClientRun none none Always readStateTwice _ := Run.of_exec rfl
  exact ⟨_, h, rfl, replies_in_order h⟩

end SpinevBle
