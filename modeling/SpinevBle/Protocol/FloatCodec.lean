import SpinevBle.Protocol.Codec
import SpinevBle.Protocol.Float

/-!
# The float codec

A float is written as the binary32 number nearest to it, and what is written reads back as that
number. Every number but the negative zero has one form.
-/

namespace SpinevBle

open Rounding

/-! ### Magnitudes -/

/-- The nonnegative binary32 number with the given exponent and mantissa fields. -/
abbrev magnitudeValue : ℕ → ℚ := value ℚ 23 (-126)

lemma strictMono_magnitudeValue : StrictMono magnitudeValue := strictMono_value

/-- The fields that `packFloat` computes are those of the nearest number. -/
lemma nearest_magnitude (q : ℚ) : Nearest magnitudeValue |q| (binary32Magnitude |q|) :=
  nearest_fields (by norm_num) (abs_nonneg q)

lemma magnitudeValue_nonneg (n : ℕ) : 0 ≤ magnitudeValue n := by
  have h := strictMono_magnitudeValue.monotone n.zero_le
  simpa [value] using h

lemma magnitudeValue_pos {n : ℕ} (hn : n ≠ 0) : 0 < magnitudeValue n := by
  have h := strictMono_magnitudeValue (Nat.pos_of_ne_zero hn)
  simpa [value] using h

/-- The largest number, and the one that would come next. -/
lemma magnitudeValue_last : magnitudeValue (255 * 2 ^ 23 - 1) = 2 ^ 128 - 2 ^ 104 := by
  have h := value_eq (K := ℚ) (m := 23) (b := -126) (E := 253) (k := 2 ^ 24 - 1) (by norm_num)
    (by norm_num)
  norm_num at h ⊢
  exact h

lemma magnitudeValue_overflow : magnitudeValue (255 * 2 ^ 23) = 2 ^ 128 := by
  have h := value_eq (K := ℚ) (m := 23) (b := -126) (E := 254) (k := 2 ^ 23) (by norm_num)
    (by norm_num)
  norm_num at h ⊢
  exact h

/-! ### Packing and unpacking -/

/-- What is packed is the sign and the nearest magnitude, if that is a number. -/
lemma packFloat_eq_ok {q : ℚ} {w : Word} :
    packFloat (.finite q) = .ok w ↔ ∃ n, Nearest magnitudeValue |q| n ∧ n < 255 * 2 ^ 23 ∧
      w = Word.ofNat (if q < 0 then 2 ^ 31 + n else n) := by
  have hnear := nearest_magnitude q
  unfold packFloat
  simp only
  generalize binary32Magnitude |q| = mag at hnear
  constructor
  · intro h
    split_ifs at h with hlt <;> cases h <;> exact ⟨mag, hnear, hlt, by simp [*]⟩
  · rintro ⟨n, hn, hlt, rfl⟩
    obtain rfl : mag = n := hnear.unique strictMono_magnitudeValue hn
    rw [if_pos hlt]

lemma unpackFloat_eq_finite {w : Word} {x : ℚ} :
    unpackFloat w = .finite x ↔ w.toNat % 2 ^ 31 < 255 * 2 ^ 23 ∧
      x = (if w.toNat < 2 ^ 31 then 1 else -1) * magnitudeValue (w.toNat % 2 ^ 31) := by
  have hw := w.toNat_lt
  unfold unpackFloat
  simp only
  generalize w.toNat = n at hw
  have hexp : n / 2 ^ 23 % 2 ^ 8 = n % 2 ^ 31 / 2 ^ 23 := by omega
  have hman : n % 2 ^ 23 = n % 2 ^ 31 % 2 ^ 23 := by omega
  rw [hexp, hman]
  generalize (if n < 2 ^ 31 then (1 : ℚ) else -1) = sign
  have hlt : n % 2 ^ 31 < 2 ^ 31 := Nat.mod_lt _ (by norm_num)
  generalize n % 2 ^ 31 = r at hlt
  have hrange : r / 2 ^ 23 = 255 ↔ ¬ r < 255 * 2 ^ 23 := by omega
  have hvalue : sign * magnitudeValue r = if r / 2 ^ 23 = 0 then sign * (r % 2 ^ 23 : ℕ) / 2 ^ 149
      else sign * (2 ^ 23 + (r % 2 ^ 23 : ℕ)) * (2 : ℚ) ^ (((r / 2 ^ 23 : ℕ) : ℤ) - 150) := by
    unfold magnitudeValue value
    split_ifs with h
    · have hr : r % 2 ^ 23 = r := by omega
      rw [hr]
      norm_num
      ring
    · have hsum : ((r / 2 ^ 23 : ℕ) : ℤ) + -126 - 1 - (23 : ℕ) = ((r / 2 ^ 23 : ℕ) : ℤ) - 150 := by
        omega
      rw [hsum, mul_assoc]
  by_cases h : r < 255 * 2 ^ 23
  · rw [if_neg (by rw [hrange]; exact fun hn => hn h), hvalue]
    simp only [h, true_and]
    split_ifs <;> rw [PyFloat.finite.injEq, eq_comm]
  · rw [if_pos (hrange.2 h)]
    split_ifs <;> simp only [h, false_and]

lemma toNat_of_infinite {w : Word} {negative : Bool} (h : unpackFloat w = .infinite negative) :
    w.toNat = if negative then 0xFF800000 else 0x7F800000 := by
  have hw := w.toNat_lt
  unfold unpackFloat at h
  simp only at h
  split_ifs at h with h₁ h₂
  cases h
  split_ifs with hn <;> simp at hn <;> omega

/-- The midpoint between the largest number and the next is too large already. -/
lemma exists_packFloat {q : ℚ} :
    (∃ w, packFloat (.finite q) = .ok w) ↔ |q| < 2 ^ 128 - 2 ^ 103 := by
  have hnear := nearest_magnitude q
  have hlt := hnear.lt_iff (n := 255 * 2 ^ 23 - 1) strictMono_magnitudeValue (by decide)
  have hsucc : 255 * 2 ^ 23 - 1 + 1 = 255 * 2 ^ 23 := by norm_num
  rw [hsucc, magnitudeValue_last, magnitudeValue_overflow] at hlt
  have hmid : 2 * |q| < 2 ^ 128 - 2 ^ 104 + 2 ^ 128 ↔ |q| < 2 ^ 128 - 2 ^ 103 := by
    constructor <;> intro h <;> linarith
  rw [← hmid, ← hlt]
  constructor
  · rintro ⟨w, hw⟩
    obtain ⟨n, hn, hlt, -⟩ := packFloat_eq_ok.1 hw
    rwa [hnear.unique strictMono_magnitudeValue hn]
  · intro h
    exact ⟨_, packFloat_eq_ok.2 ⟨_, hnear, h, rfl⟩⟩

/-- What is packed has the sign of the value, as long as it is not zero. -/
lemma unpackFloat_of_packFloat {q : ℚ} {w : Word} (h : packFloat (.finite q) = .ok w) :
    ∃ n, Nearest magnitudeValue |q| n ∧ w.toNat % 2 ^ 31 = n ∧
      unpackFloat w = .finite ((if q < 0 then -1 else 1) * magnitudeValue n) := by
  obtain ⟨n, hn, hlt, rfl⟩ := packFloat_eq_ok.1 h
  refine ⟨n, hn, ?_⟩
  split_ifs with hq
  · have hw : (Word.ofNat (2 ^ 31 + n)).toNat = 2 ^ 31 + n := Word.toNat_ofNat (by omega)
    have hmod : (2 ^ 31 + n) % 2 ^ 31 = n := by omega
    rw [unpackFloat_eq_finite, hw, hmod, if_neg (by omega)]
    exact ⟨rfl, hlt, rfl⟩
  · have hw : (Word.ofNat n).toNat = n := Word.toNat_ofNat (by omega)
    have hmod : n % 2 ^ 31 = n := by omega
    rw [unpackFloat_eq_finite, hw, hmod, if_pos (by omega)]
    exact ⟨rfl, hlt, rfl⟩

/-- Every number read is one of the two with its magnitude, and as far from `q` as that at least. -/
private lemma magnitude_of_unpackFloat (q : ℚ) {v : Word} {y : ℚ} (hy : unpackFloat v = .finite y) :
    ∃ j, |y| = magnitudeValue j ∧ abs (|q| - magnitudeValue j) ≤ |q - y| := by
  obtain ⟨-, rfl⟩ := unpackFloat_eq_finite.1 hy
  have hfj := magnitudeValue_nonneg (v.toNat % 2 ^ 31)
  have habs : |(if v.toNat < 2 ^ 31 then 1 else -1) * magnitudeValue (v.toNat % 2 ^ 31)| =
      magnitudeValue (v.toNat % 2 ^ 31) := by
    split_ifs
    · rw [one_mul, abs_of_nonneg hfj]
    · rw [neg_one_mul, abs_neg, abs_of_nonneg hfj]
  refine ⟨_, habs, ?_⟩
  have hle := abs_abs_sub_abs_le q
    ((if v.toNat < 2 ^ 31 then 1 else -1) * magnitudeValue (v.toNat % 2 ^ 31))
  rwa [habs] at hle

/-- A number written is the nearest number read. -/
lemma nearest_of_packFloat {q : ℚ} {w : Word} (h : packFloat (.finite q) = .ok w) :
    ∃ x, unpackFloat w = .finite x ∧ (∀ v y, unpackFloat v = .finite y → |q - x| ≤ |q - y|) ∧
      ∀ v y, unpackFloat v = .finite y → y ≠ x → |q - x| = |q - y| → Even w.toNat := by
  obtain ⟨n, hn, hw, hx⟩ := unpackFloat_of_packFloat h
  refine ⟨_, hx, ?_⟩
  have hfn := magnitudeValue_nonneg n
  have hself : |q - (if q < 0 then -1 else 1) * magnitudeValue n| =
      abs (|q| - magnitudeValue n) := by
    split_ifs with hq
    · rw [abs_of_neg hq, ← abs_neg]
      ring_nf
    · rw [abs_of_nonneg (not_lt.1 hq), one_mul]
  have habs : |(if q < 0 then -1 else 1) * magnitudeValue n| = magnitudeValue n := by
    split_ifs
    · rw [neg_one_mul, abs_neg, abs_of_nonneg hfn]
    · rw [one_mul, abs_of_nonneg hfn]
  generalize (if q < 0 then -1 else 1) * magnitudeValue n = x at hself habs
  constructor
  · intro v y hy
    obtain ⟨j, -, hle⟩ := magnitude_of_unpackFloat q hy
    rw [hself]
    exact (hn.le j).trans hle
  · intro v y hy hne htie
    obtain ⟨j, hj, hle⟩ := magnitude_of_unpackFloat q hy
    have heven : Even n := by
      by_cases hjn : j = n
      · -- the same magnitude with the other sign is as near only to zero
        subst hjn
        have hyx : y = -x := by
          rcases abs_eq_abs.1 (hj.trans habs.symm) with h | h
          · exact absurd h hne
          · exact h
        have hq : q * x = 0 := by
          rw [hyx, ← sq_eq_sq_iff_abs_eq_abs] at htie
          linarith
        rcases mul_eq_zero.1 hq with rfl | rfl
        · have hzero := Nearest.self strictMono_magnitudeValue 0
          have hval : magnitudeValue 0 = 0 := by simp [value]
          rw [hval] at hzero
          rw [abs_zero] at hn
          rw [hn.unique strictMono_magnitudeValue hzero]
          exact ⟨0, rfl⟩
        · exact absurd (by simpa using hyx) hne
      · refine hn.even j hjn (le_antisymm (hn.le j) ?_)
        rw [← hself, htie]
        exact hle
    rw [Nat.even_iff] at heven ⊢
    omega

/-- Every number but the negative zero is written as it was read. -/
lemma packFloat_unpackFloat {w : Word} (hnan : unpackFloat w ≠ .nan)
    (hzero : w ≠ Word.ofNat (2 ^ 31)) : packFloat (unpackFloat w) = .ok w := by
  cases hx : unpackFloat w with
  | nan => exact absurd hx hnan
  | infinite negative =>
    have hw := w.ofNat_toNat
    rw [toNat_of_infinite hx] at hw
    exact congrArg Except.ok hw
  | finite x =>
    obtain ⟨hlt, rfl⟩ := unpackFloat_eq_finite.1 hx
    have hw := w.ofNat_toNat
    have hself := Nearest.self strictMono_magnitudeValue (w.toNat % 2 ^ 31)
    have hnonneg := magnitudeValue_nonneg (w.toNat % 2 ^ 31)
    rw [packFloat_eq_ok]
    refine ⟨w.toNat % 2 ^ 31, ?_, hlt, ?_⟩
    · split_ifs
      · rwa [one_mul, abs_of_nonneg hnonneg]
      · rwa [neg_one_mul, abs_neg, abs_of_nonneg hnonneg]
    · by_cases h : w.toNat < 2 ^ 31
      · rw [if_pos h, one_mul, if_neg (not_lt.2 hnonneg), Nat.mod_eq_of_lt h, hw]
      · have hlt' := w.toNat_lt
        have hne : w.toNat % 2 ^ 31 ≠ 0 := by
          intro hmod
          apply hzero
          rw [← hw]
          congr 1
          omega
        have hpos := magnitudeValue_pos hne
        have hsum : 2 ^ 31 + w.toNat % 2 ^ 31 = w.toNat := by omega
        rw [if_neg h, if_pos (by linarith), hsum, hw]

/-- The value survives, even where the bits of a NaN or the sign of a zero do not. -/
lemma exists_packFloat_unpackFloat (w : Word) :
    ∃ v, packFloat (unpackFloat w) = .ok v ∧ unpackFloat v = unpackFloat w := by
  by_cases hnan : unpackFloat w = .nan
  · rw [hnan]
    refine ⟨Word.ofNat 0x7FC00000, rfl, ?_⟩
    unfold unpackFloat
    rw [Word.toNat_ofNat (by norm_num)]
    norm_num
  · by_cases hzero : w = Word.ofNat (2 ^ 31)
    · subst hzero
      have hx : unpackFloat (Word.ofNat (2 ^ 31)) = .finite 0 := by
        rw [unpackFloat_eq_finite, Word.toNat_ofNat (by norm_num)]
        norm_num [value]
      have hx' : unpackFloat (Word.ofNat 0) = .finite 0 := by
        rw [unpackFloat_eq_finite, Word.toNat_ofNat (by norm_num)]
        norm_num [value]
      rw [hx]
      exact ⟨Word.ofNat 0, by norm_num [packFloat, binary32Magnitude, fields], hx'⟩
    · exact ⟨w, packFloat_unpackFloat hnan hzero, rfl⟩

/-- What a float is written as: the nearest number, of two the one with an even mantissa, unless it is
beyond the largest by half a unit of its last place. What was read is written back as it was, but for
the sign of zero and the bits of a NaN. -/
theorem float_codec :
    (∀ q, (∃ w, packFloat (.finite q) = .ok w) ↔ |q| < 2 ^ 128 - 2 ^ 103) ∧
      (∀ q w, packFloat (.finite q) = .ok w → ∃ x, unpackFloat w = .finite x ∧
        (∀ v y, unpackFloat v = .finite y → |q - x| ≤ |q - y|) ∧
        ∀ v y, unpackFloat v = .finite y → y ≠ x → |q - x| = |q - y| → Even w.toNat) ∧
      (∀ w, unpackFloat w ≠ .nan → w ≠ Word.ofNat (2 ^ 31) → packFloat (unpackFloat w) = .ok w) ∧
      ∀ w, ∃ v, packFloat (unpackFloat w) = .ok v ∧ unpackFloat v = unpackFloat w :=
  ⟨fun _ => exists_packFloat, fun _ _ => nearest_of_packFloat, fun _ => packFloat_unpackFloat,
    exists_packFloat_unpackFloat⟩

/-! ### Bounds -/

/-- The value is a binary32 number, so a bound that can be sent. -/
def PyFloat.IsBinary32 (value : PyFloat) : Prop := ∃ w, unpackFloat w = value

lemma unpackFloat_infinite (negative : Bool) :
    unpackFloat (Word.ofNat (if negative then 0xFF800000 else 0x7F800000)) = .infinite negative := by
  cases negative with
  | true =>
    change unpackFloat (Word.ofNat 0xFF800000) = _
    unfold unpackFloat
    rw [Word.toNat_ofNat (by norm_num)]
    norm_num
  | false =>
    change unpackFloat (Word.ofNat 0x7F800000) = _
    unfold unpackFloat
    rw [Word.toNat_ofNat (by norm_num)]
    norm_num

/-- Rounding does not cross a bound that is a number itself. -/
lemma le_unpackFloat {lo value : PyFloat} {w : Word} (h : packFloat value = .ok w)
    (hlo : lo.IsBinary32) (hle : lo.le value = true) : lo.le (unpackFloat w) = true := by
  obtain ⟨v, hv⟩ := hlo
  cases value with
  | nan => cases lo <;> cases hle
  | infinite negative =>
    cases h
    rwa [unpackFloat_infinite]
  | finite q =>
    obtain ⟨x, hx, hnear, -⟩ := nearest_of_packFloat h
    rw [hx]
    cases lo with
    | nan => cases hle
    | infinite negative => cases negative <;> first | rfl | cases hle
    | finite l =>
      have hlq : l ≤ q := of_decide_eq_true hle
      have hxl := hnear v l hv
      have habs : |q - l| = q - l := abs_of_nonneg (sub_nonneg.2 hlq)
      rw [habs] at hxl
      refine decide_eq_true ?_
      linarith [le_abs_self (q - x)]

lemma unpackFloat_le {hi value : PyFloat} {w : Word} (h : packFloat value = .ok w)
    (hhi : hi.IsBinary32) (hle : value.le hi = true) : (unpackFloat w).le hi = true := by
  obtain ⟨v, hv⟩ := hhi
  cases value with
  | nan => cases hle
  | infinite negative =>
    cases h
    rwa [unpackFloat_infinite]
  | finite q =>
    obtain ⟨x, hx, hnear, -⟩ := nearest_of_packFloat h
    rw [hx]
    cases hi with
    | nan => cases hle
    | infinite negative => cases negative <;> first | rfl | cases hle
    | finite l =>
      have hlq : q ≤ l := of_decide_eq_true hle
      have hxl := hnear v l hv
      have habs : |q - l| = -(q - l) := abs_of_nonpos (sub_nonpos.2 hlq)
      rw [habs] at hxl
      refine decide_eq_true ?_
      linarith [neg_abs_le (q - x)]

/-- The lowest current is a number that the charger has. -/
lemma isBinary32_minCurrentA : minCurrentA.IsBinary32 := by
  refine ⟨Word.ofNat 0x40C00000, ?_⟩
  rw [minCurrentA, unpackFloat_eq_finite, Word.toNat_ofNat (by norm_num)]
  norm_num [value]

end SpinevBle
