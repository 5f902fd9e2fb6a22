import Mathlib.Data.Nat.Notation
import Mathlib.Tactic.IntervalCases

/-!
# Bytes as hex text

Each byte is written as two digits, in lower or in upper case. Both cases are read.
-/

namespace Hex

/-- The case in which the digits above nine are written. -/
inductive Case
  | lower
  | upper
  deriving DecidableEq

/-- The digit ten. -/
def Case.ten : Case → ℕ
  | lower => 97
  | upper => 65

def digit (case : Case) (n : ℕ) : Char :=
  Char.ofNat (if n < 10 then 48 + n else case.ten + (n - 10))

/-- The value of a digit of either case. -/
def value? (c : Char) : Option ℕ :=
  if 48 ≤ c.toNat ∧ c.toNat ≤ 57 then some (c.toNat - 48)
  else if 65 ≤ c.toNat ∧ c.toNat ≤ 70 then some (c.toNat - 55)
  else if 97 ≤ c.toNat ∧ c.toNat ≤ 102 then some (c.toNat - 87)
  else none

lemma value?_digit (case : Case) {n : ℕ} (h : n < 16) : value? (digit case n) = some n := by
  cases case <;> interval_cases n <;> rfl

/-- The two digits of a byte. -/
def pair (case : Case) (b : UInt8) : List Char :=
  [digit case (b.toNat / 16), digit case (b.toNat % 16)]

def text (case : Case) (bytes : List UInt8) : List Char := bytes.flatMap (pair case)

/-- The bytes with a separator between them. -/
def joined (sep : Char) (case : Case) (bytes : List UInt8) : List Char :=
  [sep].intercalate (bytes.map (pair case))

/-- Read bytes of two digits each. -/
def read : List Char → Option (List UInt8)
  | [] => some []
  | [_] => none
  | a :: b :: rest => do
    let high ← value? a
    let low ← value? b
    let bytes ← read rest
    return UInt8.ofNat (16 * high + low) :: bytes

lemma text_cons (case : Case) (b : UInt8) (bytes : List UInt8) :
    text case (b :: bytes) = pair case b ++ text case bytes := rfl

/-- Without the separators, the bytes are left. -/
lemma filter_joined {sep : Char} {p : Char → Bool} (hsep : p sep = false)
    (hp : ∀ case n, n < 16 → p (digit case n) = true) (case : Case) (bytes : List UInt8) :
    (joined sep case bytes).filter p = text case bytes := by
  have hpair : ∀ b, (pair case b).filter p = pair case b := by
    intro b
    have hb := b.toNat_lt
    rw [List.filter_eq_self]
    intro c hc
    simp only [pair, List.mem_cons, List.not_mem_nil, or_false] at hc
    rcases hc with rfl | rfl <;> exact hp case _ (by omega)
  unfold joined
  induction bytes with
  | nil => rfl
  | cons b bytes ih =>
    cases bytes with
    | nil => simpa [text] using hpair b
    | cons b' bytes =>
      rw [List.map_cons, List.map_cons, List.intercalate_cons_cons, List.filter_append,
        List.filter_append, hpair, List.filter_cons_of_neg (by simp [hsep])]
      rw [List.map_cons] at ih
      rw [ih, text_cons case b]
      rfl

/-! ### What is read -/

/-- A character with a value is the digit of this value in one of the cases. -/
lemma eq_digit_of_value? {c : Char} {n : ℕ} (h : value? c = some n) :
    n < 16 ∧ ∃ case, c = digit case n := by
  have hdigit : ∀ case m, c.toNat = (if m < 10 then 48 + m else case.ten + (m - 10)) →
      c = digit case m := by
    intro case m hm
    rw [digit, ← hm, Char.ofNat_toNat]
  unfold value? at h
  split_ifs at h with hnum hupper hlower <;> cases h
  · refine ⟨by omega, .lower, hdigit .lower _ ?_⟩
    rw [if_pos (by omega)]
    omega
  · refine ⟨by omega, .upper, hdigit .upper _ ?_⟩
    rw [if_neg (by omega), Case.ten]
    omega
  · refine ⟨by omega, .lower, hdigit .lower _ ?_⟩
    rw [if_neg (by omega), Case.ten]
    omega

/-- The text has two digits for each byte, and every digit is in either case. -/
inductive Renders : List UInt8 → List Char → Prop
  | nil : Renders [] []
  | cons (b : UInt8) (high low : Case) {bytes text} (h : Renders bytes text) :
      Renders (b :: bytes) (digit high (b.toNat / 16) :: digit low (b.toNat % 16) :: text)

lemma renders_text (case : Case) (bytes : List UInt8) : Renders bytes (text case bytes) := by
  induction bytes with
  | nil => exact .nil
  | cons b bytes ih => exact .cons b case case ih

/-- Exactly the renderings are read, each as what it renders. -/
theorem read_eq_some_iff {text : List Char} {bytes : List UInt8} :
    read text = some bytes ↔ Renders bytes text := by
  constructor
  · intro h
    induction text using read.induct generalizing bytes with
    | case1 =>
      cases h
      exact .nil
    | case2 c => cases h
    | case3 a b rest ih =>
      simp only [read, Option.bind_eq_bind, Option.bind_eq_some_iff, Option.pure_def,
        Option.some.injEq] at h
      obtain ⟨high, hhigh, low, hlow, bytes', hrest, rfl⟩ := h
      obtain ⟨hh, case, rfl⟩ := eq_digit_of_value? hhigh
      obtain ⟨hl, case', rfl⟩ := eq_digit_of_value? hlow
      have hbyte : (UInt8.ofNat (16 * high + low)).toNat = 16 * high + low :=
        UInt8.toNat_ofNat_of_lt' (by rw [UInt8.size]; omega)
      have := Renders.cons (UInt8.ofNat (16 * high + low)) case case' (ih hrest)
      rwa [hbyte, show (16 * high + low) / 16 = high by omega,
        show (16 * high + low) % 16 = low by omega] at this
  · intro h
    induction h with
    | nil => rfl
    | cons b high low _ ih =>
      have hb := b.toNat_lt
      rw [read, value?_digit high (by omega), value?_digit low (by omega), ih]
      have hbyte : UInt8.ofNat (16 * (b.toNat / 16) + b.toNat % 16) = b := by
        rw [Nat.div_add_mod]
        exact UInt8.ofNat_toNat
      simp only [Option.bind_eq_bind, Option.bind_some, Option.pure_def, hbyte]

/-- What was written is read back. -/
lemma read_text (case : Case) (bytes : List UInt8) : read (text case bytes) = some bytes :=
  read_eq_some_iff.2 (renders_text case bytes)

/-- `text'` is `text` with separators put in anywhere. -/
inductive Spread (sep : Char → Prop) : List Char → List Char → Prop
  | nil : Spread sep [] []
  | keep (c : Char) {text text'} (h : Spread sep text text') : Spread sep (c :: text) (c :: text')
  | insert {c : Char} (hc : sep c) {text text'} (h : Spread sep text text') :
      Spread sep text (c :: text')

/-- A text without separators is what is left when they are deleted. -/
lemma Spread.filter {sep : Char → Prop} {p : Char → Bool} (hsep : ∀ c, sep c → p c = false)
    {text text' : List Char} (h : Spread sep text text') (htext : ∀ c ∈ text, p c = true) :
    text'.filter p = text := by
  induction h with
  | nil => rfl
  | keep c _ ih =>
    rw [List.filter_cons_of_pos (htext c List.mem_cons_self),
      ih fun d hd => htext d (List.mem_cons_of_mem c hd)]
  | insert hc _ ih => rw [List.filter_cons_of_neg (by simp [hsep _ hc]), ih htext]

/-- Every character of a rendering is a digit. -/
lemma Renders.digits {bytes : List UInt8} {text : List Char} (h : Renders bytes text) :
    ∀ c ∈ text, ∃ case n, n < 16 ∧ c = digit case n := by
  induction h with
  | nil => simp
  | cons b high low _ ih =>
    have hb := b.toNat_lt
    intro c hc
    rcases List.mem_cons.1 hc with rfl | hc
    · exact ⟨high, _, by omega, rfl⟩
    · rcases List.mem_cons.1 hc with rfl | hc
      · exact ⟨low, _, by omega, rfl⟩
      · exact ih c hc

end Hex
