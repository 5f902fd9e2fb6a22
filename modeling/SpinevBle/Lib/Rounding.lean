import Mathlib.Algebra.Order.Field.Basic
import Mathlib.Algebra.Order.Field.Power
import Mathlib.Algebra.Ring.Parity
import Mathlib.Data.Int.Log
import Mathlib.Data.Rat.Floor
import Mathlib.Order.Monotone.Basic
import Mathlib.Tactic.FieldSimp
import Mathlib.Tactic.Linarith
import Mathlib.Tactic.NormNum
import Mathlib.Tactic.Ring

/-!
# Rounding to the points of a grid

A grid is a strictly increasing sequence of numbers. To round is to take the nearest point, and of
two points that are equally near the one with the even index. The nonnegative numbers of a binary
floating point format, listed by their fields, make a grid, and it is enough to round the
significand. That is how rationals are rounded here, and it costs half a unit of the last place at
most.
-/

namespace Rounding

variable {K : Type*} [Field K] [LinearOrder K] [IsStrictOrderedRing K] {f : ℕ → K} {q : K}
  {n i j : ℕ}

/-! ### Nearest points -/

lemma abs_sub_le_left {a b : K} (h : a < b) : |q - a| ≤ |q - b| ↔ 2 * q ≤ a + b := by
  rw [← sq_le_sq]
  constructor
  · intro hle
    nlinarith
  · intro hle
    nlinarith

lemma abs_sub_le_right {a b : K} (h : a < b) : |q - b| ≤ |q - a| ↔ a + b ≤ 2 * q := by
  rw [← sq_le_sq]
  constructor
  · intro hle
    nlinarith
  · intro hle
    nlinarith

/-- Point `n` is what `q` is rounded to. -/
structure Nearest (f : ℕ → K) (q : K) (n : ℕ) : Prop where
  le : ∀ j, |q - f n| ≤ |q - f j|
  even : ∀ j, j ≠ n → |q - f n| = |q - f j| → Even n

namespace Nearest

/-- It is enough to look at the neighbours. -/
lemma of_neighbours (hf : StrictMono f) (hup : 2 * q ≤ f n + f (n + 1))
    (hlo : ∀ i, i + 1 = n → f i + f n ≤ 2 * q) (heven : 2 * q = f n + f (n + 1) → Even n)
    (heven' : ∀ i, i + 1 = n → 2 * q = f i + f n → Even n) : Nearest f q n := by
  have habove : ∀ j, n < j → f n < f j ∧ f (n + 1) ≤ f j := fun j hj => ⟨hf hj, hf.monotone hj⟩
  have hbelow : ∀ j, j < n → ∃ i, i + 1 = n ∧ f j < f n ∧ f j ≤ f i := by
    intro j hj
    obtain ⟨i, rfl⟩ := Nat.exists_eq_add_of_le' (Nat.zero_lt_of_lt hj)
    exact ⟨i, rfl, hf hj, hf.monotone (Nat.lt_succ_iff.1 hj)⟩
  constructor
  · intro j
    rcases lt_trichotomy j n with hj | rfl | hj
    · obtain ⟨i, hi, hlt, hle⟩ := hbelow j hj
      rw [abs_sub_le_right hlt]
      linarith [hlo i hi]
    · exact le_rfl
    · obtain ⟨hlt, hle⟩ := habove j hj
      rw [abs_sub_le_left hlt]
      linarith
  · intro j hne h
    rcases lt_or_gt_of_ne hne with hj | hj
    · obtain ⟨i, hi, hlt, hle⟩ := hbelow j hj
      have hq := (abs_sub_le_left hlt).1 h.ge
      exact heven' i hi (by linarith [hlo i hi])
    · obtain ⟨hlt, hle⟩ := habove j hj
      have hq := (abs_sub_le_right hlt).1 h.ge
      exact heven (by linarith)

/-- A point is its own nearest point. -/
lemma self (hf : StrictMono f) (n : ℕ) : Nearest f (f n) n where
  le j := by
    rw [sub_self, abs_zero]
    exact abs_nonneg _
  even j hj h := by
    rw [sub_self, abs_zero, eq_comm, abs_eq_zero, sub_eq_zero] at h
    exact absurd (hf.injective h).symm hj

/-- Below an even point is rounded what is below the middle of the gap before it. -/
lemma lt_iff (hf : StrictMono f) (h : Nearest f q i) (hn : Even (n + 1)) :
    i < n + 1 ↔ 2 * q < f n + f (n + 1) := by
  have hgap : f n < f (n + 1) := hf n.lt_succ_self
  constructor
  · intro hi
    have hlt : f i < f (n + 1) := hf hi
    have hin : f i ≤ f n := hf.monotone (Nat.lt_succ_iff.1 hi)
    have hq := (abs_sub_le_left hlt).1 (h.le (n + 1))
    by_contra hge
    have hfi : f i = f n := by linarith
    obtain rfl : i = n := hf.injective hfi
    have htie := (abs_sub_le_right hlt).2 (not_lt.1 hge)
    have hi' : Even i := h.even (i + 1) (by omega) (le_antisymm (h.le _) htie)
    rw [Nat.even_add_one] at hn
    exact hn hi'
  · intro hq
    by_contra hi
    have hni : f (n + 1) ≤ f i := hf.monotone (not_lt.1 hi)
    have hge := (abs_sub_le_right (hgap.trans_le hni)).1 (h.le n)
    linarith

/-- There is one nearest point. -/
lemma unique (hf : StrictMono f) (hi : Nearest f q i) (hj : Nearest f q j) : i = j := by
  have hlt : ∀ {i j : ℕ}, Nearest f q i → Nearest f q j → ¬ i < j := by
    intro i j hi hj hij
    have heq : |q - f i| = |q - f j| := le_antisymm (hi.le j) (hj.le i)
    obtain ⟨a, rfl⟩ := hi.even j hij.ne' heq
    obtain ⟨b, rfl⟩ := hj.even (a + a) hij.ne heq.symm
    have h₁ : f (a + a) < f (a + a + 1) := hf (by omega)
    have h₂ : f (a + a + 1) < f (b + b) := hf (by omega)
    have hle := (abs_sub_le_left h₁).1 (hi.le _)
    have hle' := (abs_sub_le_right h₂).1 (hj.le _)
    linarith
  rcases lt_trichotomy i j with h | h | h
  · exact absurd h (hlt hi hj)
  · exact h
  · exact absurd h (hlt hj hi)

end Nearest

/-! ### Binary formats -/

/-- The number with fields `n` in a format with `m` bits of mantissa and least exponent `b`: below
`2 ^ m` there is no leading one. -/
def value (K : Type*) [Field K] (m : ℕ) (b : ℤ) (n : ℕ) : K :=
  if n / 2 ^ m = 0 then n * 2 ^ (b - m)
  else (2 ^ m + (n % 2 ^ m : ℕ)) * 2 ^ ((n / 2 ^ m : ℕ) + b - 1 - m)

variable {m E k : ℕ} {b : ℤ}

/-- A significand that has come to a power of two carries into the exponent. -/
lemma value_eq (hk : k ≤ 2 ^ (m + 1)) (hE : E = 0 ∨ 2 ^ m ≤ k) :
    value K m b (E * 2 ^ m + k) = k * 2 ^ (E + b - m) := by
  have hpos : 0 < 2 ^ m := by positivity
  have h2 : (2 : K) ≠ 0 := two_ne_zero
  rw [pow_succ] at hk
  rcases lt_or_ge k (2 ^ m) with hlt | hge
  · obtain rfl : E = 0 := hE.resolve_right (not_le.2 hlt)
    simp [value, Nat.div_eq_of_lt hlt]
  · rcases lt_or_ge k (2 ^ m * 2) with hlt' | hge'
    · obtain ⟨r, rfl⟩ := Nat.exists_eq_add_of_le hge
      have hr : r < 2 ^ m := by omega
      have hsplit : E * 2 ^ m + (2 ^ m + r) = r + 2 ^ m * (E + 1) := by ring
      rw [value, hsplit, Nat.add_mul_div_left _ _ hpos, Nat.add_mul_mod_self_left,
        Nat.div_eq_of_lt hr, Nat.mod_eq_of_lt hr, if_neg (by omega)]
      push_cast
      congr 2
      ring
    · obtain rfl : k = 2 ^ m * 2 := le_antisymm hk hge'
      have hsplit : E * 2 ^ m + 2 ^ m * 2 = 0 + 2 ^ m * (E + 2) := by ring
      rw [value, hsplit, Nat.add_mul_div_left _ _ hpos, Nat.add_mul_mod_self_left,
        Nat.zero_div, Nat.zero_mod, if_neg (by omega)]
      push_cast
      rw [add_zero, mul_assoc, ← zpow_one_add₀ h2]
      congr 2
      ring

/-- Every number has a significand and an exponent. -/
lemma exists_significand (m n : ℕ) :
    ∃ E k, n = E * 2 ^ m + k ∧ k < 2 ^ (m + 1) ∧ (E = 0 ∨ 2 ^ m ≤ k) := by
  have hmod := Nat.mod_lt n (Nat.pos_of_ne_zero (NeZero.ne (2 ^ m)))
  have hdiv := Nat.div_add_mod n (2 ^ m)
  rw [pow_succ]
  rcases Nat.eq_zero_or_pos (n / 2 ^ m) with h | h
  · rw [h] at hdiv
    exact ⟨0, n % 2 ^ m, by omega, by omega, .inl rfl⟩
  · refine ⟨n / 2 ^ m - 1, 2 ^ m + n % 2 ^ m, ?_, by omega, .inr (by omega)⟩
    obtain ⟨d, hd⟩ := Nat.exists_eq_add_of_le h
    rw [hd] at hdiv ⊢
    rw [show 1 + d - 1 = d by omega]
    linarith

lemma value_succ (hk : k < 2 ^ (m + 1)) (hE : E = 0 ∨ 2 ^ m ≤ k) :
    value K m b (E * 2 ^ m + k + 1) = (k + 1) * 2 ^ (E + b - m) := by
  have hE' : E = 0 ∨ 2 ^ m ≤ k + 1 := hE.imp_right Nat.le_succ_of_le
  rw [add_assoc, value_eq hk hE']
  push_cast
  rfl

/-- Numbers are ordered as their fields are. -/
lemma strictMono_value : StrictMono (value K m b) := by
  apply strictMono_nat_of_lt_succ
  intro n
  obtain ⟨E, k, rfl, hk, hE⟩ := exists_significand m n
  rw [value_eq hk.le hE, value_succ hk hE]
  have hpos : (0 : K) < 2 ^ (E + b - m) := by positivity
  linarith

/-- The next number is at least one unit of the last place away. -/
lemma le_value_succ (hk : k ≤ 2 ^ (m + 1)) (hE : E = 0 ∨ 2 ^ m ≤ k) :
    (k + 1) * 2 ^ (E + b - m) ≤ value K m b (E * 2 ^ m + k + 1) := by
  rcases hk.lt_or_eq with hk | rfl
  · exact (value_succ hk hE).ge
  · have hlt : 2 ^ m < 2 ^ (m + 1) := Nat.pow_lt_pow_right one_lt_two m.lt_succ_self
    have hsplit : E * 2 ^ m + 2 ^ (m + 1) + 1 = (E + 1) * 2 ^ m + 2 ^ m + 1 := by ring
    rw [hsplit, value_succ hlt (.inr le_rfl)]
    have hexp : ((E + 1 : ℕ) + b - m : ℤ) = 1 + (E + b - m) := by
      push_cast
      ring
    have hpos : (0 : K) < 2 ^ (E + b - m) := by positivity
    rw [hexp, zpow_one_add₀ two_ne_zero]
    push_cast
    rw [pow_succ]
    linarith

/-- It is enough to round the significand. -/
theorem nearest_value {r : K} (hm : 0 < m) (hk : k ≤ 2 ^ (m + 1))
    (hE : E = 0 ∨ 2 ^ m ≤ k ∧ 2 ^ m ≤ r) (hr : |r - k| ≤ 1 / 2)
    (heven : |r - k| = 1 / 2 → Even k) :
    Nearest (value K m b) (r * 2 ^ (E + b - m)) (E * 2 ^ m + k) := by
  have hf := strictMono_value (K := K) (m := m) (b := b)
  have hE' : E = 0 ∨ 2 ^ m ≤ k := hE.imp_right And.left
  have hu : (0 : K) < 2 ^ (E + b - m) := by positivity
  have hn := value_eq (K := K) (b := b) hk hE'
  have hnext := le_value_succ (K := K) (b := b) hk hE'
  obtain ⟨hlo, hhi⟩ := abs_le.1 hr
  have hparity : Even k → Even (E * 2 ^ m + k) := fun h =>
    (((Nat.even_pow.2 ⟨even_two, hm.ne'⟩).mul_left E)).add h
  -- the number before is one unit away, or closer at a power of two, and then `r` is not below `k`
  have hprev : ∀ i, i + 1 = E * 2 ^ m + k →
      value K m b i = (k - 1) * 2 ^ (E + b - m) ∨ value K m b i < k * 2 ^ (E + b - m) ∧ k ≤ r := by
    intro i hi
    have hstep : ∀ k', k = k' + 1 → E = 0 ∨ 2 ^ m ≤ k' →
        value K m b i = (k - 1) * 2 ^ (E + b - m) := by
      rintro k' rfl hk'
      obtain rfl : i = E * 2 ^ m + k' := by omega
      rw [value_eq (by omega) hk']
      push_cast
      ring
    rcases hE with rfl | ⟨hmk, hmr⟩
    · exact .inl (hstep i (by omega) (.inl rfl))
    · rcases hmk.lt_or_eq with hlt | heq
      · exact .inl (hstep (k - 1) (by omega) (.inr (by omega)))
      · refine .inr ⟨hn ▸ hf (by omega), ?_⟩
        rw [← heq]
        exact_mod_cast hmr
  apply Nearest.of_neighbours hf
  · rw [hn]
    nlinarith
  · intro i hi
    rw [hn]
    rcases hprev i hi with h | ⟨h, hkr⟩
    · rw [h]
      nlinarith
    · nlinarith
  · intro h
    rw [hn] at h
    apply hparity
    apply heven
    have : r - k = 1 / 2 := by nlinarith
    rw [this, abs_of_pos (by norm_num)]
  · intro i hi h
    rw [hn] at h
    rcases hprev i hi with h' | ⟨h', hkr⟩
    · rw [h'] at h
      apply hparity
      apply heven
      have : r - k = - (1 / 2) := by nlinarith
      rw [this, abs_neg, abs_of_pos (by norm_num)]
    · nlinarith

/-! ### Rounding a rational -/

/-- Round a nonnegative rational to the nearest integer, half to even. -/
def roundHalfEven (q : ℚ) : ℕ :=
  let n := ⌊q⌋.toNat
  let rest := q - n
  if rest < 1 / 2 then n
  else if 1 / 2 < rest then n + 1
  else if n % 2 = 0 then n else n + 1

/-- An integer is its own nearest integer. -/
lemma roundHalfEven_natCast (n : ℕ) : roundHalfEven n = n := by
  simp [roundHalfEven]

/-- `roundHalfEven` is at most one half away, and that far only from an even number. -/
lemma roundHalfEven_spec {q : ℚ} (hq : 0 ≤ q) :
    |q - roundHalfEven q| ≤ 1 / 2 ∧ (|q - roundHalfEven q| = 1 / 2 → Even (roundHalfEven q)) := by
  have hfloor : ((⌊q⌋.toNat : ℕ) : ℚ) = ⌊q⌋ := by
    exact_mod_cast Int.toNat_of_nonneg (Int.floor_nonneg.2 hq)
  have hlo : ((⌊q⌋.toNat : ℕ) : ℚ) ≤ q := hfloor ▸ Int.floor_le q
  have hhi : q < (⌊q⌋.toNat : ℕ) + 1 := hfloor ▸ Int.lt_floor_add_one q
  unfold roundHalfEven
  simp only
  generalize ⌊q⌋.toNat = n at *
  split_ifs with h₁ h₂ h₃
  · rw [abs_of_nonneg (by linarith)]
    exact ⟨h₁.le, fun h => absurd h h₁.ne⟩
  · push_cast
    rw [abs_of_neg (by linarith)]
    exact ⟨by linarith, fun h => by linarith⟩
  · rw [abs_of_nonneg (by linarith)]
    exact ⟨by linarith, fun _ => Nat.even_iff.2 h₃⟩
  · push_cast
    rw [abs_of_neg (by linarith)]
    refine ⟨by linarith, fun _ => ?_⟩
    rw [Nat.even_add_one, Nat.even_iff]
    exact h₃

/-- Only one integer is less than one half away. -/
lemma roundHalfEven_eq {q : ℚ} (hq : 0 ≤ q) {n : ℕ} (h : |q - n| < 1 / 2) : roundHalfEven q = n := by
  have hdist : |(roundHalfEven q : ℚ) - n| < 1 := by
    have hr := abs_le.1 (roundHalfEven_spec hq).1
    rw [abs_lt] at h ⊢
    constructor <;> linarith
  have hlt : |((roundHalfEven q : ℤ) - n : ℤ)| < 1 := by exact_mod_cast hdist
  have := Int.abs_lt_one_iff.1 hlt
  omega

/-- The exponent that a positive rational has in a format, without a bias. -/
def exponent (b : ℤ) (q : ℚ) : ℤ := max (Int.log 2 q) b

/-- The fields of the number that a nonnegative rational is rounded to, before the overflow check. A
significand that rounds up to the next power of two carries into the exponent by itself. -/
def fields (m : ℕ) (b : ℤ) (q : ℚ) : ℕ :=
  if q = 0 then 0
  else (exponent b q - b).toNat * 2 ^ m + roundHalfEven (q / 2 ^ (exponent b q - m))

/-- The number that a nonnegative rational is rounded to, before the overflow check. -/
def rounded (m : ℕ) (b : ℤ) (q : ℚ) : ℚ := value ℚ m b (fields m b q)

/-- The fields of a power of two: a biased exponent and no mantissa. -/
lemma fields_zpow {e : ℤ} (he : b ≤ e) :
    fields m b ((2 : ℚ) ^ e) = (e - b + 1).toNat * 2 ^ m := by
  have hlog : exponent b ((2 : ℚ) ^ e) = e := by
    have h : Int.log 2 ((2 : ℚ) ^ e) = e := by
      exact_mod_cast Int.log_zpow (R := ℚ) (b := 2) (by norm_num) e
    rw [exponent, h, max_eq_left he]
  have hquot : (2 : ℚ) ^ e / (2 : ℚ) ^ (e - m) = ((2 ^ m : ℕ) : ℚ) := by
    rw [← zpow_sub₀ (by norm_num), sub_sub_cancel, zpow_natCast]
    push_cast
    rfl
  have hexp : (e - b + 1).toNat = (e - b).toNat + 1 := by omega
  rw [fields, if_neg (by positivity), hlog, hquot, roundHalfEven_natCast, hexp]
  ring

section

variable {q : ℚ}

/-- The significand of a positive rational, and the one that it is rounded to. -/
private lemma significand (hq : 0 < q) {e : ℤ} (he : e = exponent b q) :
    roundHalfEven (q / 2 ^ (e - m)) ≤ 2 ^ (m + 1) ∧
      ((e - b).toNat = 0 ∨ 2 ^ m ≤ roundHalfEven (q / 2 ^ (e - m)) ∧
        (2 : ℚ) ^ m ≤ q / 2 ^ (e - m)) := by
  have hu : (0 : ℚ) < 2 ^ (e - m) := by positivity
  have hsplit : ∀ n : ℕ, (2 : ℚ) ^ (e - m + n) = 2 ^ n * 2 ^ (e - m) := by
    intro n
    rw [zpow_add₀ two_ne_zero, zpow_natCast, mul_comm]
  have hr := abs_le.1 (roundHalfEven_spec (div_nonneg hq.le hu.le)).1
  constructor
  · have hlog : q < (2 : ℚ) ^ (Int.log 2 q + 1) := by
      exact_mod_cast Int.lt_zpow_succ_log_self one_lt_two q
    have hhi : q < (2 : ℚ) ^ (e + 1) := by
      refine hlog.trans_le (zpow_le_zpow_right₀ one_le_two ?_)
      have hle : Int.log 2 q ≤ e := he ▸ le_max_left _ _
      linarith
    have hdiv : q / 2 ^ (e - m) < 2 ^ (m + 1) := by
      rw [div_lt_iff₀ hu, ← hsplit (m + 1)]
      refine hhi.trans_eq (congrArg _ ?_)
      push_cast
      ring
    have hlt : (roundHalfEven (q / 2 ^ (e - m)) : ℚ) < (2 ^ (m + 1) + 1 : ℕ) := by
      push_cast
      linarith [hr.1]
    exact Nat.lt_succ_iff.1 (by exact_mod_cast hlt)
  · rcases le_total (Int.log 2 q) b with h | h
    · left
      rw [he, exponent, max_eq_right h, sub_self]
      rfl
    · have hlo : (2 : ℚ) ^ e ≤ q := by
        rw [he, exponent, max_eq_left h]
        exact_mod_cast Int.zpow_log_le_self one_lt_two hq
      have hge : (2 : ℚ) ^ m ≤ q / 2 ^ (e - m) := by
        rw [le_div_iff₀ hu, ← hsplit m]
        simpa using hlo
      refine .inr ⟨?_, hge⟩
      have hlt : ((2 ^ m : ℕ) : ℚ) < (roundHalfEven (q / 2 ^ (e - m)) + 1 : ℕ) := by
        push_cast
        linarith [hr.2]
      exact Nat.lt_succ_iff.1 (by exact_mod_cast hlt)

private lemma toNat_exponent (m : ℕ) (b : ℤ) (q : ℚ) :
    ((exponent b q - b).toNat : ℤ) + b - m = exponent b q - m := by
  have hle : b ≤ exponent b q := le_max_right _ _
  omega

/-- The fields are those of the nearest number. -/
theorem nearest_fields (hm : 0 < m) (hq : 0 ≤ q) :
    Nearest (value ℚ m b) q (fields m b q) := by
  unfold fields
  split_ifs with h0
  · have hzero : q = value ℚ m b 0 := by simp [h0, value]
    rw [hzero]
    exact .self strictMono_value 0
  · obtain ⟨hk, hE⟩ := significand (m := m) (hq.lt_of_ne' h0) (rfl : exponent b q = _)
    have hu : (0 : ℚ) < 2 ^ (exponent b q - m) := by positivity
    obtain ⟨hr, heven⟩ := roundHalfEven_spec (div_nonneg hq hu.le)
    have hnear := nearest_value (b := b) hm hk hE hr heven
    rwa [toNat_exponent, div_mul_cancel₀ _ hu.ne'] at hnear

/-- The significand is rounded. -/
lemma rounded_eq (hq : 0 < q) : rounded m b q =
    roundHalfEven (q / 2 ^ (exponent b q - m)) * 2 ^ (exponent b q - m) := by
  obtain ⟨hk, hE⟩ := significand (m := m) hq (rfl : exponent b q = _)
  rw [rounded, fields, if_neg hq.ne', value_eq hk (hE.imp_right And.left), toNat_exponent]

lemma exponent_eq {e : ℤ} (hb : b ≤ e) (hlo : (2 : ℚ) ^ e ≤ q) (hhi : q < 2 ^ (e + 1)) :
    exponent b q = e := by
  have hq : 0 < q := lt_of_lt_of_le (by positivity) hlo
  have hle : e ≤ Int.log 2 q := (Int.zpow_le_iff_le_log one_lt_two hq).1 (by exact_mod_cast hlo)
  have hlt : Int.log 2 q < e + 1 := (Int.lt_zpow_iff_log_lt one_lt_two hq).1 (by exact_mod_cast hhi)
  rw [exponent, max_eq_left (hb.trans hle)]
  omega

/-- Where there are no subnormal numbers, rounding costs half a unit of the last place at most. -/
theorem abs_sub_rounded_le (h : (2 : ℚ) ^ b ≤ q) : |q - rounded m b q| ≤ q / 2 ^ (m + 1) := by
  have hq : 0 < q := lt_of_lt_of_le (by positivity) h
  have hlog : b ≤ Int.log 2 q := (Int.zpow_le_iff_le_log one_lt_two hq).1 (by exact_mod_cast h)
  have hlo : (2 : ℚ) ^ exponent b q ≤ q := by
    rw [exponent, max_eq_left hlog]
    exact_mod_cast Int.zpow_log_le_self one_lt_two hq
  have hu : (0 : ℚ) < 2 ^ (exponent b q - m) := by positivity
  have hr := (roundHalfEven_spec (div_nonneg hq.le hu.le)).1
  have hunit : (2 : ℚ) ^ (exponent b q - m) = 2 ^ exponent b q / 2 ^ m := by
    rw [zpow_sub₀ two_ne_zero, zpow_natCast]
  calc |q - rounded m b q|
      = |q / 2 ^ (exponent b q - m) - roundHalfEven (q / 2 ^ (exponent b q - m))| *
          2 ^ (exponent b q - m) := by
        rw [rounded_eq hq, ← abs_of_pos hu, ← abs_mul, abs_of_pos hu, sub_mul,
          div_mul_cancel₀ _ hu.ne']
    _ ≤ 1 / 2 * (q / 2 ^ m) := by
        rw [hunit] at hr hu ⊢
        gcongr
    _ = q / 2 ^ (m + 1) := by
        rw [pow_succ]
        ring

/-- Multiples of a number stay apart as long as the rounding is finer than their distance. -/
theorem rounded_mul_injective {x : ℚ} (hx : (2 : ℚ) ^ b ≤ x) {n k : ℕ} (hn : n < 2 ^ m)
    (hk : k < 2 ^ m) (h : rounded m b (n * x) = rounded m b (k * x)) : n = k := by
  have hpos : 0 < x := lt_of_lt_of_le (by positivity) hx
  have hbound : ∀ i : ℕ, i < 2 ^ m → |i * x - rounded m b (i * x)| < x / 2 := by
    intro i hi
    rcases Nat.eq_zero_or_pos i with rfl | hi0
    · simpa [rounded, fields, value] using hpos
    · have h1 : (1 : ℚ) ≤ i := by exact_mod_cast hi0
      have hlt : (i : ℚ) < 2 ^ m := by exact_mod_cast hi
      refine (abs_sub_rounded_le (hx.trans (le_mul_of_one_le_left hpos.le h1))).trans_lt ?_
      rw [div_lt_div_iff₀ (by positivity) two_pos, pow_succ]
      nlinarith
  have hn' := abs_lt.1 (hbound n hn)
  have hk' := abs_lt.1 (hbound k hk)
  rw [h] at hn'
  have hdist : |(n : ℚ) - k| * x < 1 * x := by
    rw [← abs_of_pos hpos, ← abs_mul, abs_of_pos hpos, sub_mul, abs_lt]
    constructor <;> linarith
  have hlt : |((n : ℤ) - k : ℤ)| < 1 := by
    exact_mod_cast lt_of_mul_lt_mul_right hdist hpos.le
  have := Int.abs_lt_one_iff.1 hlt
  omega

end

end Rounding
