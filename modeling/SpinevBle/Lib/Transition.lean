import Mathlib.Data.List.Basic
import Mathlib.Tactic.Common

/-!
# Labelled transition systems and their runs

A system is an initial state and a partial step function: an event that is not enabled in a
state has no successor there. A run is recorded with its events, so that a statement about a
run can speak of what happened before and after one event of it.

Runs carry a side condition `P` on the steps they take (a state and the event taken from it).
`Always` is the trivial one; the others single out the runs in which an environment behaves.
-/

namespace Transition

/-- A transition system with a partial, computable step function. -/
structure System (σ ε : Type*) where
  init : σ
  step : σ → ε → Option σ

variable {σ ε : Type*} {M : System σ ε} {P Q : σ → ε → Prop}

/-- The side condition that allows every step. -/
def Always (_ : σ) (_ : ε) : Prop := True

/-- `Run M P s es t`: the events `es` lead from `s` to `t`, each step satisfying `P`. -/
inductive Run (M : System σ ε) (P : σ → ε → Prop) : σ → List ε → σ → Prop
  | nil (s : σ) : Run M P s [] s
  | cons {s t u : σ} {e : ε} {es : List ε} (hP : P s e) (hstep : M.step s e = some t)
      (hrun : Run M P t es u) : Run M P s (e :: es) u

namespace Run

lemma single {s t : σ} {e : ε} (hP : P s e) (hstep : M.step s e = some t) :
    Run M P s [e] t :=
  .cons hP hstep (.nil t)

lemma append {s t u : σ} {es fs : List ε} (h : Run M P s es t) (h' : Run M P t fs u) :
    Run M P s (es ++ fs) u := by
  induction h with
  | nil => exact h'
  | cons hP hstep _ ih => exact .cons hP hstep (ih h')

/-- A run over a concatenation passes through an intermediate state. -/
lemma of_append {s u : σ} {es fs : List ε} (h : Run M P s (es ++ fs) u) :
    ∃ t, Run M P s es t ∧ Run M P t fs u := by
  induction es generalizing s with
  | nil => exact ⟨s, .nil s, h⟩
  | cons e es ih =>
    cases h with
    | cons hP hstep hrun =>
      obtain ⟨t, h₁, h₂⟩ := ih hrun
      exact ⟨t, .cons hP hstep h₁, h₂⟩

lemma mono (hPQ : ∀ s e, P s e → Q s e) {s t : σ} {es : List ε} (h : Run M P s es t) :
    Run M Q s es t := by
  induction h with
  | nil s => exact .nil s
  | cons hP hstep _ ih => exact .cons (hPQ _ _ hP) hstep ih

lemma always {s t : σ} {es : List ε} (h : Run M P s es t) : Run M Always s es t :=
  h.mono fun _ _ _ => trivial

/-- Every step of a run is taken with one of its events. -/
lemma mem {s t : σ} {es : List ε} (h : Run M P s es t) :
    Run M (fun s e => P s e ∧ e ∈ es) s es t := by
  induction h with
  | nil s => exact .nil s
  | cons hP hstep _ ih =>
    exact .cons ⟨hP, by simp⟩ hstep (ih.mono fun _ _ h => ⟨h.1, List.mem_cons_of_mem _ h.2⟩)

/-- The events of a run determine its last state. -/
lemma unique {s t u : σ} {es : List ε} (h : Run M P s es t) (h' : Run M Q s es u) : t = u := by
  induction h with
  | nil => cases h'; rfl
  | cons _ hstep _ ih =>
    cases h' with
    | cons _ hstep' hrun' =>
      rw [hstep] at hstep'
      cases hstep'
      exact ih hrun'

/-- The invariant rule: what every allowed step preserves, every run preserves. -/
theorem invariant {I : σ → Prop} (hstep : ∀ s e t, I s → P s e → M.step s e = some t → I t)
    {s t : σ} {es : List ε} (h : Run M P s es t) (hs : I s) : I t := by
  induction h with
  | nil => exact hs
  | cons hP hst _ ih => exact ih (hstep _ _ _ hs hP hst)

/-- The rule for a property that needs an invariant `I` of all steps to be preserved. -/
theorem invariant_from {I J : σ → Prop} (hI : ∀ s e t, I s → M.step s e = some t → I t)
    (hJ : ∀ s e t, I s → J s → P s e → M.step s e = some t → J t) {s t : σ} {es : List ε}
    (h : Run M P s es t) (hs : I s) (hj : J s) : J t := by
  have hstep : ∀ s e t, I s ∧ J s → P s e → M.step s e = some t → I t ∧ J t :=
    fun s e t hu hP hst => ⟨hI s e t hu.1 hst, hJ s e t hu.1 hu.2 hP hst⟩
  exact (h.invariant hstep ⟨hs, hj⟩).2

/-- What holds after a step if and only if it held before and the step was allowed holds after a run
if and only if it held before and all its steps were allowed. -/
theorem invariant_iff {I J : σ → Prop} (hI : ∀ s e t, I s → M.step s e = some t → I t)
    (hJ : ∀ s e t, I s → M.step s e = some t → (J t ↔ J s ∧ Q s e)) {s t : σ} {es : List ε}
    (h : Run M P s es t) (hs : I s) : J t ↔ J s ∧ Run M Q s es t := by
  induction h with
  | nil s => exact ⟨fun hj => ⟨hj, .nil s⟩, fun hj => hj.1⟩
  | @cons s u t e es _ hst _ ih =>
    rw [ih (hI s e u hs hst), hJ s e u hs hst]
    constructor
    · rintro ⟨⟨hj, hq⟩, hrun⟩
      exact ⟨hj, .cons hq hst hrun⟩
    · rintro ⟨hj, hrun⟩
      cases hrun with
      | cons hq hst' hrun =>
        rw [hst] at hst'
        cases hst'
        exact ⟨⟨hj, hq⟩, hrun⟩

/-- A run whose steps are all allowed where they are taken. -/
lemma of_forall {s t : σ} {es : List ε} (h : Run M P s es t)
    (hQ : ∀ es₁ e es₂ v, es = es₁ ++ e :: es₂ → Run M P s es₁ v → Q v e) : Run M Q s es t := by
  induction h with
  | nil s => exact .nil s
  | cons hP hst _ ih =>
    refine .cons (hQ [] _ _ _ rfl (.nil _)) hst (ih ?_)
    rintro es₁ e' es₂ v rfl hv
    exact hQ (_ :: es₁) e' es₂ v rfl (.cons hP hst hv)

/-- If a step from a state with `J` leads to one with `J` exactly when it is allowed, a run has `J` in
every state that it passes through exactly when all its steps are allowed. -/
theorem forall_iff {I J : σ → Prop} (hI : ∀ s e t, I s → M.step s e = some t → I t)
    (hJ : ∀ s e t, I s → J s → M.step s e = some t → (J t ↔ Q s e)) {s t : σ} {es : List ε}
    (h : Run M P s es t) (hs : I s) (hj : J s) :
    (∀ es₁ es₂ v, es = es₁ ++ es₂ → Run M Always s es₁ v → J v) ↔ Run M Q s es t := by
  induction h with
  | nil s =>
    refine ⟨fun _ => .nil s, fun _ es₁ es₂ v hes hrun => ?_⟩
    obtain ⟨rfl, -⟩ := List.append_eq_nil_iff.1 hes.symm
    cases hrun
    exact hj
  | @cons s u t e es _ hst _ ih =>
    constructor
    · intro hall
      have hu : J u := hall [e] es u rfl (.single trivial hst)
      refine .cons ((hJ s e u hs hj hst).1 hu) hst ((ih (hI s e u hs hst) hu).1 ?_)
      rintro es₁ es₂ v rfl hrun
      exact hall (e :: es₁) es₂ v rfl (.cons trivial hst hrun)
    · intro hrun es₁ es₂ v hes hv
      cases hrun with
      | cons hq hst' hrun =>
        rw [hst] at hst'
        cases hst'
        cases hv with
        | nil => exact hj
        | cons _ hst' hv =>
          cases hes
          rw [hst] at hst'
          cases hst'
          have hu : J u := (hJ s _ u hs hj hst).2 hq
          exact (ih (hI s _ u hs hst) hu).2 hrun _ es₂ v rfl hv

/-- If a property is false before a run and true after it, one step of the run made it true. -/
theorem exists_step (p : σ → Prop) {s u : σ} {es : List ε} (h : Run M P s es u) (hs : ¬ p s)
    (hu : p u) :
    ∃ es₁ e es₂ v w, es = es₁ ++ e :: es₂ ∧ Run M P s es₁ v ∧ ¬ p v ∧ P v e ∧
      M.step v e = some w ∧ p w ∧ Run M P w es₂ u := by
  induction h with
  | nil => exact absurd hu hs
  | @cons s t u e es hP hstep hrun ih =>
    by_cases ht : p t
    · exact ⟨[], e, es, s, t, rfl, .nil s, hs, hP, hstep, ht, hrun⟩
    · obtain ⟨es₁, e', es₂, v, w, rfl, h₁, hv, hP', hst, hw, h₂⟩ := ih ht hu
      exact ⟨e :: es₁, e', es₂, v, w, rfl, .cons hP hstep h₁, hv, hP', hst, hw, h₂⟩

/-- The step that made it true for the last time. -/
theorem exists_last_step (p : σ → Prop) {s u : σ} {es : List ε} (h : Run M P s es u) (hs : ¬ p s)
    (hu : p u) :
    ∃ es₁ e es₂ v w, es = es₁ ++ e :: es₂ ∧ Run M P s es₁ v ∧ ¬ p v ∧ P v e ∧
      M.step v e = some w ∧ p w ∧ Run M (fun s e => P s e ∧ p s) w es₂ u := by
  have hlast : p s ∧ Run M (fun s e => P s e ∧ p s) s es u ∨
      ∃ es₁ e es₂ v w, es = es₁ ++ e :: es₂ ∧ Run M P s es₁ v ∧ ¬ p v ∧ P v e ∧
        M.step v e = some w ∧ p w ∧ Run M (fun s e => P s e ∧ p s) w es₂ u := by
    clear hs
    induction h with
    | nil s => exact .inl ⟨hu, .nil s⟩
    | @cons s t u e es hP hstep hrun ih =>
      rcases ih hu with ⟨ht, hkeep⟩ | ⟨es₁, e', es₂, v, w, rfl, h₁, hrest⟩
      · by_cases hs : p s
        · exact .inl ⟨hs, .cons ⟨hP, hs⟩ hstep hkeep⟩
        · exact .inr ⟨[], e, es, s, t, rfl, .nil s, hs, hP, hstep, ht, hkeep⟩
      · exact .inr ⟨e :: es₁, e', es₂, v, w, rfl, .cons hP hstep h₁, hrest⟩
  exact hlast.resolve_left fun h => hs h.1

/-- The steps of one kind in a run are no more than a measure allows that each of them decreases and
no step increases. -/
theorem countP_add_le {I : σ → Prop} {V : σ → ℕ} {own : ε → Bool}
    (hI : ∀ s e t, I s → M.step s e = some t → I t)
    (hV : ∀ s e t, I s → M.step s e = some t → V t + (if own e then 1 else 0) ≤ V s) {s t : σ}
    {es : List ε} (h : Run M P s es t) (hs : I s) : es.countP own + V t ≤ V s := by
  induction h with
  | nil => simp
  | @cons s u t e es _ hst _ ih =>
    have hstep := hV s e u hs hst
    have hrest := ih (hI s e u hs hst)
    rw [List.countP_cons]
    omega

/-- What simulates every step simulates every run. -/
theorem map {σ' ε' : Type*} {M' : System σ' ε'} (f : σ → σ') (g : ε → ε')
    (hstep : ∀ s e t, M.step s e = some t → M'.step (f s) (g e) = some (f t)) {s t : σ}
    {es : List ε} (h : Run M P s es t) : Run M' Always (f s) (es.map g) (f t) := by
  induction h with
  | nil s => exact .nil (f s)
  | cons _ hst _ ih => exact .cons trivial (hstep _ _ _ hst) ih

/-- So does what simulates some of the steps while the others stutter. -/
theorem filterMap {σ' ε' : Type*} {M' : System σ' ε'} (f : σ → σ') (g : ε → Option ε')
    (hstep : ∀ s e e' t, g e = some e' → M.step s e = some t → M'.step (f s) e' = some (f t))
    (hskip : ∀ s e t, g e = none → M.step s e = some t → f t = f s) {s t : σ} {es : List ε}
    (h : Run M P s es t) : Run M' Always (f s) (es.filterMap g) (f t) := by
  induction h with
  | nil s => exact .nil (f s)
  | @cons s u t e es _ hst _ ih =>
    cases hg : g e with
    | none =>
      rw [List.filterMap_cons_none hg, ← hskip s e u hg hst]
      exact ih
    | some e' =>
      rw [List.filterMap_cons_some hg]
      exact .cons trivial (hstep s e e' u hg hst) ih

end Run

/-- Events taken one after another make a run. -/
lemma Run.of_foldlM {s t : σ} {es : List ε} (h : es.foldlM M.step s = some t) :
    Run M Always s es t := by
  induction es generalizing s with
  | nil =>
    cases h
    exact .nil _
  | cons e es ih =>
    rw [List.foldlM_cons, Option.bind_eq_bind, Option.bind_eq_some_iff] at h
    obtain ⟨u, hst, h⟩ := h
    exact .cons trivial hst (ih h)

/-- A system each of whose steps is a run of another has no runs but those of the other. -/
theorem Run.expand {σ' ε' : Type*} {M' : System σ' ε'} (f : σ' → σ)
    (hstep : ∀ s e t, M'.step s e = some t → ∃ es, Run M Always (f s) es (f t))
    {P : σ' → ε' → Prop} {s t : σ'} {es : List ε'} (h : Run M' P s es t) :
    ∃ es, Run M Always (f s) es (f t) := by
  induction h with
  | nil s => exact ⟨[], .nil _⟩
  | cons _ hst _ ih =>
    obtain ⟨es, hes⟩ := hstep _ _ _ hst
    obtain ⟨fs, hfs⟩ := ih
    exact ⟨es ++ fs, hes.append hfs⟩

/-- Systems that take the same events to related states have the same runs. -/
theorem Run.lockstep {σ' : Type*} {M' : System σ' ε} {R : σ → σ' → Prop}
    (hstep : ∀ s s' e, R s s' → Option.Rel R (M.step s e) (M'.step s' e)) {s t : σ} {s' : σ'}
    {es : List ε} (h : Run M P s es t) (hs : R s s') : ∃ t', Run M' Always s' es t' ∧ R t t' := by
  induction h generalizing s' with
  | nil s => exact ⟨s', .nil s', hs⟩
  | @cons s u t e es _ hst _ ih =>
    have hrel := hstep s s' e hs
    rw [hst] at hrel
    generalize hst' : M'.step s' e = u' at hrel
    cases hrel with
    | some hu =>
      obtain ⟨t', hrun, ht⟩ := ih hu
      exact ⟨t', .cons trivial hst' hrun, ht⟩

/-! ### Reachability -/

/-- From `s` on, the system can come to a state with `Q`. -/
def CanReach (M : System σ ε) (s : σ) (Q : σ → Prop) : Prop := ∃ es t, Run M Always s es t ∧ Q t

namespace CanReach

variable {Q R : σ → Prop} {s t : σ} {e : ε}

lemma now (h : Q s) : CanReach M s Q := ⟨[], s, .nil s, h⟩

lemma step (hst : M.step s e = some t) (h : CanReach M t Q) : CanReach M s Q := by
  obtain ⟨es, u, hrun, hu⟩ := h
  exact ⟨e :: es, u, .cons trivial hst hrun, hu⟩

lemma trans (h : CanReach M s Q) (hQ : ∀ t, Q t → CanReach M t R) : CanReach M s R := by
  obtain ⟨es, t, hrun, ht⟩ := h
  obtain ⟨fs, u, hrun', hu⟩ := hQ t ht
  exact ⟨es ++ fs, u, hrun.append hrun', hu⟩

lemma mono (h : CanReach M s Q) (hQ : ∀ t, Q t → R t) : CanReach M s R :=
  h.trans fun t ht => .now (hQ t ht)

end CanReach

/-! ### Executing a run -/

/-- Run the events one after another, checking the side condition before each step. -/
def System.exec (M : System σ ε) (P : σ → ε → Prop) [∀ s e, Decidable (P s e)] :
    σ → List ε → Option σ
  | s, [] => some s
  | s, e :: es => if P s e then (M.step s e).bind fun t => M.exec P t es else none

lemma Run.of_exec [∀ s e, Decidable (P s e)] {s t : σ} {es : List ε}
    (h : M.exec P s es = some t) : Run M P s es t := by
  induction es generalizing s with
  | nil =>
    cases h
    exact .nil _
  | cons e es ih =>
    simp only [System.exec, Option.ite_none_right_eq_some, Option.bind_eq_some_iff] at h
    obtain ⟨hP, u, hstep, hexec⟩ := h
    exact .cons hP hstep (ih hexec)

instance (s : σ) (e : ε) : Decidable (Always s e) := inferInstanceAs (Decidable True)

end Transition
