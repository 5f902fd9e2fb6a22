import Mathlib.Tactic.Common

/-!
# Operations one after another

What a sequential object does is a relation between its states before and after an operation, where
an operation carries what it has returned. A history is a list of operations, newest first, that the
object may have done one after another.
-/

namespace Transition

variable {σ τ ω : Type*}

/-- An operation that was done, with the states before and after it. -/
structure Stage (σ ω : Type*) where
  before : σ
  op : ω
  after : σ

/-- The same operation, seen through an abstraction of the states. -/
def Stage.map (f : σ → τ) (st : Stage σ ω) : Stage τ ω := ⟨f st.before, st.op, f st.after⟩

/-- The object may do this one after another, from `s` on. -/
inductive Serial (R : σ → ω → σ → Prop) (s : σ) : List (Stage σ ω) → σ → Prop
  | nil : Serial R s [] s
  | cons {H t b u} (h : Serial R s H t) (hb : R t b u) : Serial R s (⟨t, b, u⟩ :: H) u

namespace Serial

variable {R : σ → ω → σ → Prop} {s t : σ} {H : List (Stage σ ω)}

/-- Every operation of a history is one of the object. -/
lemma forall_mem (h : Serial R s H t) : ∀ st ∈ H, R st.before st.op st.after := by
  induction h with
  | nil => exact fun st hst => by cases hst
  | cons _ hb ih => exact List.forall_mem_cons.2 ⟨hb, ih⟩

/-- An abstraction of the states takes a history to a history. -/
lemma map {Q : τ → ω → τ → Prop} (f : σ → τ) (h : Serial R s H t)
    (hQ : ∀ st ∈ H, Q (f st.before) st.op (f st.after)) :
    Serial Q (f s) (H.map (Stage.map f)) (f t) := by
  induction h with
  | nil => exact .nil
  | cons _ _ ih =>
    obtain ⟨hb, hQ⟩ := List.forall_mem_cons.1 hQ
    exact (ih hQ).cons hb

end Serial

end Transition
