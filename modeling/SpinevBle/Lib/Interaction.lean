import Mathlib.Tactic.Common

/-!
# Programs over operations

A program either has finished with a value or issues an operation and continues with whatever
the operation answers. The operations are left to whoever runs the program, so the same program
can be run alone or interleaved with others.

`Prog.Ensures` is the rule by which such a program is verified while others run: between the
issue of an operation and its answer the shared state may move on, so everything that is
learnt from an answer has to be stable along `later`.
-/

namespace Interaction

universe u v w

/-- Programs with operations `Op`, where `o` answers with a `Res o`. -/
inductive Prog (Op : Type u) (Res : Op → Type v) (α : Type w) : Type max u v w
  | pure (a : α)
  | op (o : Op) (k : Res o → Prog Op Res α)

variable {Op : Type u} {Res : Op → Type v} {α β : Type w}

namespace Prog

def bind : Prog Op Res α → (α → Prog Op Res β) → Prog Op Res β
  | .pure a, f => f a
  | .op o k, f => .op o fun r => (k r).bind f

instance : Monad (Prog Op Res) where
  pure := .pure
  bind := .bind

@[simp] lemma pure_eq (a : α) : (Pure.pure a : Prog Op Res α) = .pure a := rfl

@[simp] lemma pure_bind (a : α) (f : α → Prog Op Res β) : (Prog.pure a >>= f) = f a := rfl

@[simp] lemma op_bind (o : Op) (k : Res o → Prog Op Res α) (f : α → Prog Op Res β) :
    (Prog.op o k >>= f) = .op o fun r => k r >>= f := rfl

@[simp] lemma map_pure (f : α → β) (a : α) : f <$> (Prog.pure a : Prog Op Res α) = .pure (f a) :=
  rfl

@[simp] lemma map_op (f : α → β) (o : Op) (k : Res o → Prog Op Res α) :
    f <$> Prog.op o k = .op o fun r => f <$> k r := rfl

instance : LawfulMonad (Prog Op Res) := .mk' (Prog Op Res)
  (fun p => by
    induction p with
    | pure a => rfl
    | op o k ih => exact congrArg (Prog.op o) (funext ih))
  (fun _ _ => rfl)
  (fun p f g => by
    induction p with
    | pure a => rfl
    | op o k ih => exact congrArg (Prog.op o) (funext ih))

end Prog

/-! ### Contracts -/

/-- What the surroundings promise a program: `pre` has to hold when an operation is issued,
`post` is known once it has answered. -/
structure Contract (σ : Type*) (Op : Type u) (Res : Op → Type v) where
  later : σ → σ → Prop
  later_refl : ∀ s, later s s
  later_trans : ∀ {s t r}, later s t → later t r → later s r
  pre : σ → Op → Prop
  post : σ → (o : Op) → Res o → Prop

variable {σ : Type*} {C : Contract σ Op Res}

/-- From state `s` on, whatever else happens, the program issues operations only where `pre`
holds and ends only with values for which `Q` holds from then on. -/
def Prog.Ensures (C : Contract σ Op Res) (Q : σ → α → Prop) : Prog Op Res α → σ → Prop
  | .pure a, s => ∀ t, C.later s t → Q t a
  | .op o k, s => (∀ t, C.later s t → C.pre t o) ∧
      ∀ t r, C.later s t → C.post t o r → (k r).Ensures C Q t

namespace Prog.Ensures

/-- What a program ensures it ensures at every later state as well. -/
lemma later {Q : σ → α → Prop} {p : Prog Op Res α} {s t : σ} (h : p.Ensures C Q s)
    (hst : C.later s t) : p.Ensures C Q t := by
  cases p with
  | pure a => exact fun u hu => h u (C.later_trans hst hu)
  | op o k =>
    exact ⟨fun u hu => h.1 u (C.later_trans hst hu),
      fun u r hu hr => h.2 u r (C.later_trans hst hu) hr⟩

lemma pure {Q : σ → α → Prop} {a : α} {s : σ} (h : (Prog.pure a : Prog Op Res α).Ensures C Q s) :
    Q s a :=
  h s (C.later_refl s)

lemma pre {Q : σ → α → Prop} {o : Op} {k : Res o → Prog Op Res α} {s : σ}
    (h : (Prog.op o k).Ensures C Q s) : C.pre s o :=
  h.1 s (C.later_refl s)

/-- Once the operation has answered, the continuation ensures what the program did. -/
lemma answer {Q : σ → α → Prop} {o : Op} {k : Res o → Prog Op Res α} {s : σ} {r : Res o}
    (h : (Prog.op o k).Ensures C Q s) (hr : C.post s o r) : (k r).Ensures C Q s :=
  h.2 s r (C.later_refl s) hr

/-- The rule of sequential composition. -/
lemma bind {Q : σ → α → Prop} {R : σ → β → Prop} {p : Prog Op Res α} {f : α → Prog Op Res β}
    {s : σ} (h : p.Ensures C Q s) (hf : ∀ t a, C.later s t → Q t a → (f a).Ensures C R t) :
    (p >>= f).Ensures C R s := by
  induction p generalizing s with
  | pure a => exact hf s a (C.later_refl s) h.pure
  | op o k ih =>
    exact ⟨h.1, fun t r hst hr => ih r (h.2 t r hst hr) fun u a htu =>
      hf u a (C.later_trans hst htu)⟩

/-- The rule of consequence. -/
lemma mono {Q R : σ → α → Prop} {p : Prog Op Res α} {s : σ} (h : p.Ensures C Q s)
    (hQR : ∀ t a, Q t a → R t a) : p.Ensures C R s := by
  induction p generalizing s with
  | pure a => exact fun t hst => hQR t a (h t hst)
  | op o k ih => exact ⟨h.1, fun t r hst hr => ih r (h.2 t r hst hr)⟩

/-- Where every operation may be issued, every program is safe. -/
lemma trivial {p : Prog Op Res α} {s : σ} (h : ∀ s o, C.pre s o) :
    p.Ensures C (fun _ _ => True) s := by
  induction p generalizing s with
  | pure a => exact fun _ _ => True.intro
  | op o k ih => exact ⟨fun t _ => h t o, fun t r _ _ => ih r⟩

/-- The rule of constancy: what is stable stays true while a program runs. -/
lemma constancy {Q : σ → α → Prop} {R : σ → Prop} {p : Prog Op Res α} {s : σ}
    (h : p.Ensures C Q s) (hR : ∀ s t, C.later s t → R s → R t) (hs : R s) :
    p.Ensures C (fun t a => Q t a ∧ R t) s := by
  induction p generalizing s with
  | pure a => exact fun t hst => ⟨h t hst, hR s t hst hs⟩
  | op o k ih => exact ⟨h.1, fun t r hst hr => ih r (h.2 t r hst hr) (hR s t hst hs)⟩

end Prog.Ensures

/-! ### Promises -/

/-- A contract that does not mention a state: `asks` are the operations that a program may issue,
`answers` what it may get back. -/
structure Promise (Op : Type u) (Res : Op → Type v) where
  asks : Op → Prop
  answers : (o : Op) → Res o → Prop

def Promise.contract (P : Promise Op Res) : Contract Unit Op Res where
  later _ _ := True
  later_refl _ := trivial
  later_trans _ _ := trivial
  pre _ := P.asks
  post _ := P.answers

/-- Within its promise, a program ends only with values for which `Q` holds. -/
def Prog.Meets (P : Promise Op Res) (Q : α → Prop) (p : Prog Op Res α) : Prop :=
  p.Ensures P.contract (fun _ => Q) ()

namespace Prog.Meets

variable {P : Promise Op Res} {Q : α → Prop}

@[simp] lemma pure_iff {a : α} : (Prog.pure a : Prog Op Res α).Meets P Q ↔ Q a :=
  ⟨fun h => Ensures.pure h, fun h _ _ => h⟩

lemma op_iff {o : Op} {k : Res o → Prog Op Res α} :
    (Prog.op o k).Meets P Q ↔ P.asks o ∧ ∀ r, P.answers o r → (k r).Meets P Q :=
  ⟨fun h => ⟨Ensures.pre h, fun _ hr => Ensures.answer h hr⟩,
    fun h => ⟨fun _ _ => h.1, fun _ r _ hr => h.2 r hr⟩⟩

lemma bind {R : β → Prop} {p : Prog Op Res α} {f : α → Prog Op Res β} (h : p.Meets P Q)
    (hf : ∀ a, Q a → (f a).Meets P R) : (p >>= f).Meets P R :=
  Ensures.bind h fun _ a _ ha => hf a ha

lemma mono {R : α → Prop} {p : Prog Op Res α} (h : p.Meets P Q) (hQR : ∀ a, Q a → R a) :
    p.Meets P R :=
  Ensures.mono h fun _ a ha => hQR a ha

/-- The rule of consequence for promises. -/
lemma weaken {P' : Promise Op Res} {p : Prog Op Res α} (h : p.Meets P Q)
    (hasks : ∀ o, P.asks o → P'.asks o) (hanswers : ∀ o r, P'.answers o r → P.answers o r) :
    p.Meets P' Q := by
  induction p with
  | pure a => exact pure_iff.2 (pure_iff.1 h)
  | op o k ih =>
    obtain ⟨ho, hk⟩ := op_iff.1 h
    exact op_iff.2 ⟨hasks o ho, fun r hr => ih r (hk r (hanswers o r hr))⟩

lemma map {R : β → Prop} {p : Prog Op Res α} {f : α → β} (h : p.Meets P Q)
    (hf : ∀ a, Q a → R (f a)) : (f <$> p).Meets P R := by
  rw [map_eq_pure_bind]
  exact h.bind fun a ha => pure_iff.2 (hf a ha)

end Prog.Meets

/-- Run a program alone, with every operation answered by `answer`. -/
def Prog.eval (answer : (o : Op) → Res o) : Prog Op Res α → α
  | .pure a => a
  | .op o k => (k (answer o)).eval answer

lemma Prog.eval_bind (answer : (o : Op) → Res o) (p : Prog Op Res α) (f : α → Prog Op Res β) :
    (p >>= f).eval answer = (f (p.eval answer)).eval answer := by
  induction p with
  | pure a => rfl
  | op o k ih => exact ih (answer o)

/-! ### Execution on a state -/

/-- Run a program alone from a state, with every operation carried out by `act`. -/
def Prog.exec {σ : Type*} (act : (o : Op) → σ → Res o × σ) : Prog Op Res α → σ → α × σ
  | .pure a, s => (a, s)
  | .op o k, s => (k (act o s).1).exec act (act o s).2

lemma Prog.exec_bind {σ : Type*} (act : (o : Op) → σ → Res o × σ) (p : Prog Op Res α)
    (f : α → Prog Op Res β) (s : σ) :
    (p >>= f).exec act s = (f (p.exec act s).1).exec act (p.exec act s).2 := by
  induction p generalizing s with
  | pure a => rfl
  | op o k ih => exact ih (act o s).1 (act o s).2

lemma Prog.exec_map {σ : Type*} (act : (o : Op) → σ → Res o × σ) (f : α → β)
    (p : Prog Op Res α) (s : σ) :
    (f <$> p).exec act s = (f (p.exec act s).1, (p.exec act s).2) := by
  induction p generalizing s with
  | pure a => rfl
  | op o k ih => exact ih (act o s).1 (act o s).2

/-- What every operation that a program may issue preserves, the program preserves. -/
theorem Prog.Meets.exec {σ : Type*} {P : Promise Op Res} {Q : α → Prop} {I : σ → Prop}
    {act : (o : Op) → σ → Res o × σ} {p : Prog Op Res α} (h : p.Meets P Q)
    (hact : ∀ o s, P.asks o → I s → P.answers o (act o s).1 ∧ I (act o s).2) {s : σ} (hs : I s) :
    Q (p.exec act s).1 ∧ I (p.exec act s).2 := by
  induction p generalizing s with
  | pure a => exact ⟨Meets.pure_iff.1 h, hs⟩
  | op o k ih =>
    obtain ⟨ho, hk⟩ := Meets.op_iff.1 h
    obtain ⟨hans, hs'⟩ := hact o s ho hs
    exact ih _ (hk _ hans) hs'

/-! ### Programs that agree -/

/-- The programs issue the same operations as long as these are answered alike, which is what `R`
says, and end with values related by `Q`. -/
inductive Prog.Agree (R : (o : Op) → Res o → Res o → Prop) (Q : α → β → Prop) :
    Prog Op Res α → Prog Op Res β → Prop
  | pure {a b} (h : Q a b) : Agree R Q (.pure a) (.pure b)
  | op {o k k'} (h : ∀ r r', R o r r' → Agree R Q (k r) (k' r')) : Agree R Q (.op o k) (.op o k')

namespace Prog.Agree

variable {R : (o : Op) → Res o → Res o → Prop} {γ δ : Type w}

/-- A program agrees with itself if alike means equal. -/
lemma refl (p : Prog Op Res α) : p.Agree (fun _ => Eq) Eq p := by
  induction p with
  | pure a => exact .pure rfl
  | op o k ih =>
    refine .op fun r r' hr => ?_
    cases hr
    exact ih r

lemma mono {Q Q' : α → β → Prop} {p : Prog Op Res α} {p' : Prog Op Res β} (h : p.Agree R Q p')
    (hQ : ∀ a b, Q a b → Q' a b) : p.Agree R Q' p' := by
  induction h with
  | pure h => exact .pure (hQ _ _ h)
  | op _ ih => exact .op ih

lemma bind {Q : α → β → Prop} {Q' : γ → δ → Prop} {p : Prog Op Res α} {p' : Prog Op Res β}
    {f : α → Prog Op Res γ} {f' : β → Prog Op Res δ} (h : p.Agree R Q p')
    (hf : ∀ a b, Q a b → (f a).Agree R Q' (f' b)) : (p >>= f).Agree R Q' (p' >>= f') := by
  induction h with
  | pure h => exact hf _ _ h
  | op _ ih => exact .op ih

/-- Programs that agree come to related ends on related states, if the operations that they issue
are answered alike and lead to related states. -/
theorem exec {σ τ : Type*} {P : Promise Op Res} {S : σ → τ → Prop}
    {act : (o : Op) → σ → Res o × σ} {act' : (o : Op) → τ → Res o × τ}
    (hact : ∀ o s t, P.asks o → S s t → P.answers o (act o s).1 ∧
      R o (act o s).1 (act' o t).1 ∧ S (act o s).2 (act' o t).2)
    {Q : α → β → Prop} {Q' : α → Prop} {p : Prog Op Res α} {p' : Prog Op Res β}
    (h : p.Agree R Q p') (hp : p.Meets P Q') {s : σ} {t : τ} (hs : S s t) :
    Q (p.exec act s).1 (p'.exec act' t).1 ∧ S (p.exec act s).2 (p'.exec act' t).2 := by
  induction h generalizing s t with
  | pure h => exact ⟨h, hs⟩
  | @op o k k' _ ih =>
    obtain ⟨hasks, hk⟩ := Meets.op_iff.1 hp
    obtain ⟨hans, hr, hs'⟩ := hact o s t hasks hs
    exact ih _ _ hr (hk _ hans) hs'

end Prog.Agree

/-! ### Execution that is not determined -/

/-- From `s` the program may return `a` and end in `t`, where an operation may do whatever `does`
allows. -/
inductive Prog.Performs {σ : Type*} (does : (o : Op) → σ → Res o → σ → Prop) :
    Prog Op Res α → σ → α → σ → Prop
  | pure {a s} : Performs does (.pure a) s a s
  | op {o k r s t u a} (h : does o s r t) (hk : Performs does (k r) t a u) :
      Performs does (.op o k) s a u

/-- If each operation does something that is allowed, as `abs` sees it, then so does a program. -/
theorem Prog.Meets.performs {σ τ : Type*} {P : Promise Op Res} {Q : α → Prop}
    {act : (o : Op) → σ → Res o × σ} {does : (o : Op) → τ → Res o → τ → Prop}
    {p : Prog Op Res α} (h : p.Meets P Q) (abs : σ → τ)
    (hact : ∀ o s, P.asks o → P.answers o (act o s).1 ∧
      does o (abs s) (act o s).1 (abs (act o s).2)) (s : σ) :
    p.Performs does (abs s) (p.exec act s).1 (abs (p.exec act s).2) := by
  induction p generalizing s with
  | pure a => exact .pure
  | op o k ih =>
    obtain ⟨ho, hk⟩ := Meets.op_iff.1 h
    obtain ⟨hans, hdoes⟩ := hact o s ho
    exact .op hdoes (ih _ (hk _ hans) _)

/-! ### Traces -/

/-- What is left of a program once its operations have been answered as the trace says, oldest
first. -/
inductive Prog.Residual : Prog Op Res α → List (Σ o, Res o) → Prog Op Res α → Prop
  | nil (p : Prog Op Res α) : Residual p [] p
  | cons {o k r tr p} (h : Residual (k r) tr p) : Residual (.op o k) (⟨o, r⟩ :: tr) p

namespace Prog.Residual

variable {p p' : Prog Op Res α} {tr : List (Σ o, Res o)}

/-- One more operation is answered. -/
lemma snoc {o : Op} {k : Res o → Prog Op Res α} (h : p.Residual tr (.op o k)) (r : Res o) :
    p.Residual (tr ++ [⟨o, r⟩]) (k r) := by
  generalize hq : Prog.op o k = q at h
  induction h with
  | nil =>
    subst hq
    exact .cons (.nil _)
  | cons _ ih => exact .cons (ih hq)

/-- A program that has finished stays as it is. -/
lemma of_pure {a : α} (h : (Prog.pure a : Prog Op Res α).Residual tr p) : tr = [] ∧ p = .pure a := by
  cases h with
  | nil => exact ⟨rfl, rfl⟩

/-- Either the first operation has not been answered, or the rest follows from its answer. -/
lemma of_op {o : Op} {k : Res o → Prog Op Res α} (h : (Prog.op o k).Residual tr p) :
    tr = [] ∧ p = .op o k ∨ ∃ r tr', tr = ⟨o, r⟩ :: tr' ∧ (k r).Residual tr' p := by
  cases h with
  | nil => exact .inl ⟨rfl, rfl⟩
  | cons h => exact .inr ⟨_, _, rfl, h⟩

/-- What ends a composed program has ended its first part first. -/
lemma of_bind {p : Prog Op Res α} {f : α → Prog Op Res β} {tr : List (Σ o, Res o)} {b : β}
    (h : (p >>= f).Residual tr (.pure b)) :
    ∃ tr₁ tr₂ a, tr = tr₁ ++ tr₂ ∧ p.Residual tr₁ (.pure a) ∧ (f a).Residual tr₂ (.pure b) := by
  induction p generalizing tr with
  | pure a => exact ⟨[], tr, a, rfl, .nil _, h⟩
  | op o k ih =>
    have h : (Prog.op o fun r => k r >>= f).Residual tr (.pure b) := h
    rcases h.of_op with ⟨-, hp⟩ | ⟨r, tr, rfl, hk⟩
    · cases hp
    · obtain ⟨tr₁, tr₂, a, rfl, h₁, h₂⟩ := ih r hk
      exact ⟨⟨o, r⟩ :: tr₁, tr₂, a, rfl, .cons h₁, h₂⟩

end Prog.Residual

end Interaction
