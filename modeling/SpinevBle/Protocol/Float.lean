import Mathlib.Data.List.DropRight
import SpinevBle.Lib.Rounding
import SpinevBle.Protocol.Frame

/-!
# Floats on the wire

`struct.pack(">f", value)`: the value rounded to a binary32 number, half to even. Python computes
with doubles, which are binary64 numbers, and prints one as the shortest decimal that reads as it.
Zero has one form only here, since no comparison of the package tells the two zeros apart.
-/

namespace SpinevBle

open Rounding

/-- The double that a nonnegative number is rounded to. -/
def binary64 (q : ℚ) : ℚ := rounded 52 (-1022) q

/-! ### Printing -/

/-- The decimal that is printed for a positive double: its digits as a number, and the power of ten
of the last digit. It reads as the double and has the fewest digits of those that do; of two, it is
the nearer one. -/
def shortestDecimal (q : ℚ) : ℕ × ℤ :=
  let candidates (n : ℕ) : List (ℕ × ℤ) :=
    let power := Int.log 10 q - n
    let below := ⌊q / 10 ^ power⌋.toNat
    let nearest := roundHalfEven (q / 10 ^ power)
    [(nearest, power), (2 * below + 1 - nearest, power)]
  (((List.range 17).flatMap candidates).find? fun d => binary64 (d.1 * 10 ^ d.2) = q).getD (0, 0)

/-- The digits of a number whose first digit stands for `10 ^ exponent`, as `repr` lays them out. -/
def layOut (digits : List Char) (exponent : ℤ) : List Char :=
  if exponent < -4 ∨ 16 ≤ exponent then
    let fraction := if digits.length ≤ 1 then [] else '.' :: digits.tail
    let sign := if exponent < 0 then '-' else '+'
    let power := (toString exponent.natAbs).toList
    digits.take 1 ++ fraction ++ ['e', sign] ++ List.replicate (2 - power.length) '0' ++ power
  else if exponent < 0 then
    ['0', '.'] ++ List.replicate (-exponent - 1).toNat '0' ++ digits
  else
    let whole := exponent.toNat + 1
    let fraction := if digits.length ≤ whole then ['0'] else digits.drop whole
    digits.take whole ++ List.replicate (whole - digits.length) '0' ++ ['.'] ++ fraction

/-- `repr` of a nonnegative double. -/
def decimalText (q : ℚ) : List Char :=
  if q = 0 then ['0', '.', '0']
  else
    let (number, power) := shortestDecimal q
    let digits := (toString number).toList
    layOut (digits.rdropWhile (· = '0')) (power + digits.length - 1)

/-- A Python float. -/
inductive PyFloat
  | nan
  | infinite (negative : Bool)
  | finite (q : ℚ)
  deriving DecidableEq

namespace PyFloat

/-- `a <= b`, which is false as soon as one side is a NaN. -/
def le : PyFloat → PyFloat → Bool
  | .nan, _ | _, .nan => false
  | .infinite true, _ | _, .infinite false => true
  | .infinite false, _ | _, .infinite true => false
  | .finite p, .finite q => decide (p ≤ q)

/-- `str(value)`. -/
def text : PyFloat → String
  | .nan => "nan"
  | .infinite true => "-inf"
  | .infinite false => "inf"
  | .finite q => String.ofList (if q < 0 then '-' :: decimalText |q| else decimalText q)

example : (finite 6).text = "6.0" := by decide +kernel

end PyFloat

/-! ### Packing -/

/-- Exponent and mantissa fields of a nonnegative rational in binary32, before the overflow
check. -/
def binary32Magnitude (q : ℚ) : ℕ := fields 23 (-126) q

/-- `struct.pack(">f", value)`. -/
def packFloat : PyFloat → Except Exc Word
  | .nan => .ok (Word.ofNat 0x7FC00000)
  | .infinite negative => .ok (Word.ofNat (if negative then 0xFF800000 else 0x7F800000))
  | .finite q =>
    let magnitude := binary32Magnitude |q|
    if magnitude < 255 * 2 ^ 23 then
      .ok (Word.ofNat (if q < 0 then 2 ^ 31 + magnitude else magnitude))
    else .error (.builtin .overflowError "float too large to pack with f format")

/-- `struct.unpack(">f", raw)`. -/
def unpackFloat (w : Word) : PyFloat :=
  let n := w.toNat
  let exponent : ℕ := n / 2 ^ 23 % 2 ^ 8
  let mantissa : ℕ := n % 2 ^ 23
  let sign : ℚ := if n < 2 ^ 31 then 1 else -1
  if exponent = 255 then if mantissa = 0 then .infinite (decide (2 ^ 31 ≤ n)) else .nan
  else if exponent = 0 then .finite (sign * mantissa / 2 ^ 149)
  else .finite (sign * (2 ^ 23 + mantissa) * (2 : ℚ) ^ ((exponent : ℤ) - 150))

/-- Decode a 4 byte big endian float. -/
def decodeFloat (raw : Bytes) : Except Exc PyFloat :=
  if raw.length = 4 then .ok (unpackFloat (Word.slice raw 0))
  else .error (.spinEv .protocol s!"expected 4 bytes, got {raw.length}")

/-- Build a write request carrying a 32 bit float. -/
def buildWriteFloat (register : Register) (value : PyFloat) : Except Exc Frame := do
  let raw ← packFloat value
  return ⟨register.value, Operation.write.value, raw⟩

lemma register_buildWriteFloat {register : Register} {value : PyFloat} {frame : Frame}
    (h : buildWriteFloat register value = .ok frame) : frame.register = register.value := by
  unfold buildWriteFloat at h
  rw [bind_eq_ok] at h
  obtain ⟨raw, -, h⟩ := h
  cases h
  rfl

lemma flag_buildWriteFloat {register : Register} {value : PyFloat} {frame : Frame}
    (h : buildWriteFloat register value = .ok frame) : frame.flag = Operation.write.value := by
  unfold buildWriteFloat at h
  rw [bind_eq_ok] at h
  obtain ⟨raw, -, h⟩ := h
  cases h
  rfl

/-- The lowest charging current the charger accepts, in amps. -/
def minCurrentA : PyFloat := .finite 6

/-- The default upper bound for the charging current, in amps. -/
def defaultMaxCurrentA : PyFloat := .finite 32

end SpinevBle
