import Mathlib.Data.DFinsupp.WellFounded
import SpinevBle.Lib.Interaction
import SpinevBle.Lib.Transition

/-!
# What a system cannot avoid

Some steps of a system are its own, the others are taken by its surroundings. `Inevitable` says that
its own steps alone lead to a property, whichever of them is taken next, and that they never get
stuck on the way. It follows from a well-founded measure that every own step decreases. Parties that
run interleaved have such a measure if each of them has one.
-/

namespace Transition

variable {σ ε : Type*} {M : System σ ε} {own : σ → ε → Prop} {Q R : σ → Prop} {s : σ}

/-- The own steps of the system lead to `Q`, in whatever order they are taken. -/
inductive Inevitable (M : System σ ε) (own : σ → ε → Prop) (Q : σ → Prop) : σ → Prop
  | now {s : σ} (h : Q s) : Inevitable M own Q s
  | step {s : σ} (hex : ∃ e t, own s e ∧ M.step s e = some t)
      (h : ∀ e t, own s e → M.step s e = some t → Inevitable M own Q t) : Inevitable M own Q s

namespace Inevitable

lemma mono (h : Inevitable M own Q s) (hQR : ∀ t, Q t → R t) : Inevitable M own R s := by
  induction h with
  | now h => exact .now (hQR _ h)
  | step hex _ ih => exact .step hex ih

lemma trans (h : Inevitable M own Q s) (hQR : ∀ t, Q t → Inevitable M own R t) :
    Inevitable M own R s := by
  induction h with
  | now h => exact hQR _ h
  | step hex _ ih => exact .step hex ih

/-- The rule of measures: own steps keep `I` and go down, and only where `Q` holds there is none. -/
theorem of_wellFounded {I : σ → Prop} {r : σ → σ → Prop} (hr : WellFounded r)
    (hI : ∀ s e t, I s → own s e → M.step s e = some t → I t ∧ r t s)
    (hex : ∀ s, I s → Q s ∨ ∃ e t, own s e ∧ M.step s e = some t) (hs : I s) :
    Inevitable M own Q s := by
  induction s using hr.induction with
  | h s ih =>
    rcases hex s hs with hQ | hex
    · exact .now hQ
    · apply Inevitable.step hex
      intro e t ho hst
      obtain ⟨ht, hlt⟩ := hI s e t hs ho hst
      exact ih t hlt ht

end Inevitable

/-! ### Parties -/

/-- One of the parties goes down, and the others stay where they are. -/
def Moves {ι α : Type*} (r : α → α → Prop) (g f : ι → α) : Prop :=
  ∃ i, r (g i) (f i) ∧ ∀ j, j ≠ i → g j = f j

/-- Finitely many parties cannot go down for ever, whoever moves next. -/
theorem wellFounded_moves {ι α : Type*} [LinearOrder ι] [Finite ι] {r : α → α → Prop}
    (hr : WellFounded r) : WellFounded (Moves (ι := ι) r) := by
  apply Subrelation.wf _ (Pi.Lex.wellFounded (fun i j : ι => i < j) fun _ => hr)
  rintro g f ⟨i, hi, hne⟩
  exact ⟨i, fun j hj => hne j hj.ne, hi⟩

end Transition

/-! ### Programs -/

namespace Interaction

universe u v w

variable {Op : Type u} {Res : Op → Type v} {α : Type w}

/-- How far a party is that runs a program: what remains of the program and what the party has still
to do for its first operation, or nothing at all. -/
abbrev Prog.Position (Op : Type u) (Res : Op → Type v) (α : Type w) : Type max u v w :=
  Option (Prog Op Res α × ℕ)

/-- A party goes down when it has finished, when an operation is answered and when it gets closer to
that. -/
inductive Prog.Below : Prog.Position Op Res α → Prog.Position Op Res α → Prop
  | finished (x) : Below none (some x)
  | answered {o k r m n} : Below (some (k r, m)) (some (.op o k, n))
  | closer {p m n} (h : m < n) : Below (some (p, m)) (some (p, n))

lemma Prog.Below.ne_none {x y : Prog.Position Op Res α} (h : Prog.Below x y) : y ≠ none := by
  cases h <;> simp

/-- A program cannot be run for ever: it is only as deep as its answers allow. -/
theorem Prog.wellFounded_below : WellFounded (@Prog.Below Op Res α) := by
  have hnone : Acc (@Prog.Below Op Res α) none := by
    constructor
    rintro _ ⟨⟩
  have hsome : ∀ (p : Prog Op Res α) (n : ℕ), Acc Prog.Below (some (p, n)) := by
    intro p
    induction p with
    | pure a =>
      intro n
      induction n using Nat.strong_induction_on with
      | _ n ih =>
        constructor
        rintro _ (_ | _ | hlt)
        · exact hnone
        · exact ih _ hlt
    | op o k ihk =>
      intro n
      induction n using Nat.strong_induction_on with
      | _ n ih =>
        constructor
        rintro _ (_ | _ | hlt)
        · exact hnone
        · exact ihk _ _
        · exact ih _ hlt
  constructor
  rintro (_ | ⟨p, n⟩)
  · exact hnone
  · exact hsome p n

end Interaction
