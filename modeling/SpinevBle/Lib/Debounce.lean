import Mathlib.Algebra.Order.Group.Defs
import Mathlib.Order.Bounds.Basic

/-!
# Waiting for a gap

A wait that every arrival begins anew comes to an end once nothing has arrived for the time `idle`,
or at its deadline. What arrives at the very instant at which the wait would end may be in time or
too late: both are allowed here, and nothing else depends on it.
-/

namespace Debounce

variable {α : Type*} [LinearOrder α] {idle start deadline now t x e e' : α} {arrivals : Set α}

/-- The start of the wait and what arrives before `t`. -/
def sofar (start : α) (arrivals : Set α) (t : α) : Set α := {x | x = start ∨ x ∈ arrivals ∧ x < t}

lemma isGreatest_start (h : ∀ x ∈ arrivals, start ≤ x) :
    IsGreatest (sofar start arrivals start) start :=
  ⟨.inl rfl, fun _ hx => hx.elim le_of_eq fun ⟨hx, hlt⟩ => absurd hlt (h _ hx).not_gt⟩

variable [AddCommGroup α]

/-- At `t` the deadline is still to come, and so is the end of the time after the start or after
some arrival. -/
def Busy (idle start deadline : α) (arrivals : Set α) (t : α) : Prop :=
  t < deadline ∧ ∃ x, (x = start ∨ x ∈ arrivals) ∧ x ≤ t ∧ t < x + idle

/-- The wait ends at `e`, which is the deadline or the time `idle` after the last arrival before,
and nowhere before `e` was there a reason to end it. -/
structure EndsAt (idle start deadline : α) (arrivals : Set α) (e : α) : Prop where
  last : ∃ x, IsGreatest (sofar start arrivals e) x ∧ e = min deadline (x + idle)
  busy : ∀ t, start ≤ t → t < e → Busy idle start deadline arrivals t

lemma EndsAt.le_deadline (h : EndsAt idle start deadline arrivals e) : e ≤ deadline := by
  obtain ⟨x, -, rfl⟩ := h.last
  exact min_le_left _ _

/-! ### While the wait goes on -/

/-- Until `now` there was no reason to end the wait. -/
structure Going (idle start deadline : α) (arrivals : Set α) (now : α) : Prop where
  started : start ≤ now
  paced : now = start ∨
    ∃ x, IsGreatest (sofar start arrivals now) x ∧ now ≤ min deadline (x + idle)
  busy : ∀ t, start ≤ t → t < now → Busy idle start deadline arrivals t

namespace Going

lemma init : Going idle start deadline arrivals start :=
  ⟨le_rfl, .inl rfl, fun _ hs ht => absurd ht hs.not_gt⟩

lemma le_max (h : Going idle start deadline arrivals now) : now ≤ max start deadline := by
  rcases h.paced with rfl | ⟨x, -, hn⟩
  · exact le_max_left _ _
  · exact (hn.trans (min_le_left _ _)).trans (le_max_right _ _)

/-- A wait whose deadline is past at the start is over there. -/
lemma eq_start (h : Going idle start deadline arrivals now) (hd : deadline < start) : now = start :=
  le_antisymm (max_eq_left hd.le ▸ h.le_max) h.started

/-- Time goes on to `t`, no further than the wait lasts. -/
lemma advance (h : Going idle start deadline arrivals now)
    (hx : IsGreatest (sofar start arrivals t) x) (hxn : x ≤ now) (hn : now ≤ t)
    (ht : t ≤ min deadline (x + idle)) : Going idle start deadline arrivals t := by
  refine ⟨h.started.trans hn, .inr ⟨x, hx, ht⟩, fun u hs hu => ?_⟩
  rcases lt_or_ge u now with hlt | hge
  · exact h.busy u hs hlt
  · obtain ⟨hd, hi⟩ := le_min_iff.1 ht
    exact ⟨hu.trans_le hd, x, hx.1.imp_right And.left, hxn.trans hge, hu.trans_le hi⟩

/-- The time of a wait without an arrival is over. -/
lemma endsAt (h : Going idle start deadline arrivals now)
    (hx : IsGreatest (sofar start arrivals now) x) (hn : now = min deadline (x + idle)) :
    EndsAt idle start deadline arrivals now :=
  ⟨⟨x, hx, hn⟩, h.busy⟩

end Going

variable [IsOrderedAddMonoid α]

/-- A wait is not begun anew when its deadline has come. -/
lemma Going.endsAt_deadline (h : Going idle start deadline arrivals now) (hidle : 0 ≤ idle)
    (hs : start ≤ deadline) (ha : ∀ x ∈ arrivals, start ≤ x) (hn : deadline ≤ now) :
    EndsAt idle start deadline arrivals now := by
  rcases h.paced with rfl | ⟨x, hx, hle⟩
  · obtain rfl := le_antisymm hs hn
    exact h.endsAt (isGreatest_start ha) (min_eq_left (le_add_of_nonneg_right hidle)).symm
  · obtain ⟨hd, hi⟩ := le_min_iff.1 hle
    obtain rfl := le_antisymm hd hn
    exact h.endsAt hx (min_eq_left hi).symm

/-! ### The end is determined -/

namespace EndsAt

lemma start_le (h : EndsAt idle start deadline arrivals e) (hidle : 0 ≤ idle)
    (hs : start ≤ deadline) : start ≤ e := by
  obtain ⟨x, ⟨-, hmax⟩, rfl⟩ := h.last
  exact le_min hs ((hmax (.inl rfl)).trans (le_add_of_nonneg_right hidle))

private lemma not_lt (h : EndsAt idle start deadline arrivals e)
    (h' : EndsAt idle start deadline arrivals e') (hs : start ≤ e)
    (hties : ∀ x, x = start ∨ x ∈ arrivals → x + idle ∉ arrivals) : ¬ e < e' := by
  intro hlt
  obtain ⟨hd, y, hy, hye, hey⟩ := h'.busy e hs hlt
  obtain ⟨x, ⟨hx, hmax⟩, he⟩ := h.last
  have he : e = x + idle :=
    (min_choice _ _).elim (fun hm => absurd (he.trans hm) hd.ne) fun hm => he.trans hm
  rcases hye.lt_or_eq with hye | rfl
  · have hyx : y ≤ x := hmax (hy.imp_right fun hy => ⟨hy, hye⟩)
    exact absurd hey (he ▸ (add_le_add_left hyx idle).not_gt)
  · rcases hy with rfl | hy
    · exact absurd hey (he ▸ (add_le_add_left (hmax (.inl rfl)) idle).not_gt)
    · exact hties x (hx.imp_right And.left) (he ▸ hy)

/-- The arrivals determine the end, unless one of them comes at the very instant at which the wait
would end. -/
theorem unique (h : EndsAt idle start deadline arrivals e)
    (h' : EndsAt idle start deadline arrivals e') (hidle : 0 ≤ idle) (hs : start ≤ deadline)
    (hties : ∀ x, x = start ∨ x ∈ arrivals → x + idle ∉ arrivals) : e = e' :=
  le_antisymm (le_of_not_gt (h'.not_lt h (h'.start_le hidle hs) hties))
    (le_of_not_gt (h.not_lt h' (h.start_le hidle hs) hties))

end EndsAt

end Debounce
