import Mathlib.Data.Rat.Floor
import Mathlib.Tactic.Common

/-!
# Bytes and exceptions

Payloads are byte lists. An exception is one of the package's own classes, a builtin one, or the
`CancelledError` of asyncio, which is not an `Exception` and so passes every handler of the
package.
-/

namespace SpinevBle

abbrev Bytes := List UInt8

/-- The subclasses of `SpinEvError`. -/
inductive ErrorClass
  | connection
  | timeout
  | protocol
  | password
  | commandRejected
  | busy
  | unsupported
  | type
  | value
  deriving DecidableEq

/-- The builtin classes that the package's code can meet. -/
inductive Builtin
  | timeoutError
  | valueError
  | indexError
  | structError
  | overflowError
  | invalidStateError
  | other
  deriving DecidableEq

/-- An exception, with the text that `str(err)` gives. -/
inductive Exc
  | spinEv (cls : ErrorClass) (message : String)
  | builtin (cls : Builtin) (message : String)
  | cancelledError
  deriving DecidableEq

namespace Exc

def message : Exc → String
  | .spinEv _ m => m
  | .builtin _ m => m
  | .cancelledError => ""

/-- `isinstance(err, SpinEvError)`. -/
def isSpinEvError : Exc → Bool
  | .spinEv _ _ => true
  | _ => false

@[simp] lemma isSpinEvError_spinEv (cls : ErrorClass) (m : String) :
    (spinEv cls m).isSpinEvError = true := rfl

end Exc

/-! ### Code that raises -/

section

variable {α γ : Type} {x : Except Exc α}

@[simp] lemma throw_eq_error (e : Exc) : (throw e : Except Exc α) = .error e := rfl

@[simp] lemma pure_eq_ok (a : α) : (pure a : Except Exc α) = .ok a := rfl

@[simp] lemma bind_ok {a : α} {f : α → Except Exc γ} : (Except.ok a >>= f) = f a := rfl

@[simp] lemma bind_error {e : Exc} {f : α → Except Exc γ} : (Except.error e >>= f) = .error e := rfl

/-- Code returns if each of its parts does. -/
lemma bind_eq_ok {f : α → Except Exc γ} {b : γ} :
    (x >>= f) = .ok b ↔ ∃ a, x = .ok a ∧ f a = .ok b := by
  constructor
  · intro h
    cases x with
    | ok a => exact ⟨a, rfl, h⟩
    | error e => cases h
  · rintro ⟨a, rfl, h⟩
    exact h

/-- A loop whose body never raises is a map. -/
lemma mapM_eq_ok {f : α → Except Exc γ} {g : α → γ} {l : List α} (h : ∀ a ∈ l, f a = .ok (g a)) :
    l.mapM f = .ok (l.map g) := by
  induction l with
  | nil => rfl
  | cons a l ih =>
    rw [List.forall_mem_cons] at h
    rw [List.mapM_cons, h.1, ih h.2]
    rfl

/-- A loop that can raise one exception only raises it if its body does somewhere. -/
lemma mapM_eq_error {f : α → Except Exc γ} {e : Exc} {l : List α}
    (h : ∀ a ∈ l, ∀ e', f a = .error e' → e' = e) (he : ∃ a ∈ l, f a = .error e) :
    l.mapM f = .error e := by
  induction l with
  | nil => simp at he
  | cons a l ih =>
    rw [List.forall_mem_cons] at h
    rw [List.mapM_cons]
    cases ha : f a with
    | error e' =>
      rw [h.1 e' ha]
      rfl
    | ok b =>
      have hl : ∃ a ∈ l, f a = .error e := by simpa [ha] using he
      rw [ih h.2 hl]
      rfl

/-- Code raises only exceptions for which `E` holds. -/
def OnlyRaises (E : Exc → Prop) (x : Except Exc α) : Prop := ∀ e, x = .error e → E e

namespace OnlyRaises

variable {E F : Exc → Prop}

lemma ok (a : α) : OnlyRaises E (.ok a : Except Exc α) := fun _ h => by
  cases h

lemma error_iff {e : Exc} : OnlyRaises E (.error e : Except Exc α) ↔ E e := by
  simp [OnlyRaises]

lemma bind {f : α → Except Exc γ} (h : OnlyRaises E x) (hf : ∀ a, x = .ok a → OnlyRaises E (f a)) :
    OnlyRaises E (x >>= f) := by
  cases x with
  | ok a => exact hf a rfl
  | error e => exact error_iff.2 (error_iff.1 h)

lemma mono (h : OnlyRaises E x) (hEF : ∀ e, E e → F e) : OnlyRaises F x := fun e he => hEF e (h e he)

lemma ite {p : Prop} [Decidable p] {y : Except Exc α} (hx : p → OnlyRaises E x)
    (hy : ¬ p → OnlyRaises E y) : OnlyRaises E (if p then x else y) := by
  split_ifs with h
  · exact hx h
  · exact hy h

end OnlyRaises

end

/-! ### Formatting -/

/-- One upper case hex digit. -/
def hexDigit (n : ℕ) : Char :=
  if n < 10 then Char.ofNat (48 + n) else Char.ofNat (55 + n)

/-- `f"0x{byte:02X}"`. -/
def hex (b : UInt8) : String :=
  "0x" ++ String.ofList [hexDigit (b.toNat / 16), hexDigit (b.toNat % 16)]

end SpinevBle
