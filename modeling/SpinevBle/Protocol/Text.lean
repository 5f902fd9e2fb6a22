import Mathlib.Data.List.DropRight
import SpinevBle.Protocol.Frame

/-!
# Text on the wire

A text setting is written as ASCII, zero padded to the width of its field. `decode_string` cuts a
reply at its first zero byte and strips the whitespace around what is left, so not every text that
can be written is read back as it was.
-/

namespace SpinevBle

/-! ### Whitespace -/

/-- `c.isspace()`. -/
def isSpace (c : Char) : Bool :=
  (0x09 ≤ c.toNat && c.toNat ≤ 0x0D) || (0x1C ≤ c.toNat && c.toNat ≤ 0x20) ||
    (0x2000 ≤ c.toNat && c.toNat ≤ 0x200A) ||
    c.toNat ∈ [0x85, 0xA0, 0x1680, 0x2028, 0x2029, 0x202F, 0x205F, 0x3000]

/-- `text.strip()`. -/
def strip (text : List Char) : List Char := (text.dropWhile isSpace).rdropWhile isSpace

/-- Text without whitespace around it. -/
def Stripped (text : List Char) : Prop :=
  (∀ c ∈ text.head?, isSpace c = false) ∧ ∀ c ∈ text.getLast?, isSpace c = false

lemma dropWhile_eq_self_iff {text : List Char} :
    text.dropWhile isSpace = text ↔ ∀ c ∈ text.head?, isSpace c = false := by
  cases text with
  | nil => simp
  | cons c text =>
    cases hc : isSpace c with
    | false => simp [hc]
    | true =>
      simp only [List.dropWhile_cons, hc, if_true, List.head?_cons, Option.mem_some_iff,
        forall_eq', Bool.true_eq_false, iff_false]
      intro h
      have := congrArg List.length h
      have := (List.dropWhile_sublist isSpace (l := text)).length_le
      simp_all

/-- Stripping leaves a text as it is if there is no whitespace around it. -/
lemma strip_eq_self_iff {text : List Char} : strip text = text ↔ Stripped text := by
  have hle := (List.dropWhile_sublist isSpace (l := text))
  constructor
  · intro h
    have hpre : strip text <+: text.dropWhile isSpace := List.rdropWhile_prefix isSpace _
    rw [h] at hpre
    have hd : text.dropWhile isSpace = text := hle.eq_of_length_le hpre.length_le
    refine ⟨dropWhile_eq_self_iff.1 hd, fun c hc => ?_⟩
    rw [strip, hd, List.rdropWhile_eq_self_iff] at h
    cases text with
    | nil => simp at hc
    | cons a text =>
      have hlast := h (List.cons_ne_nil a text)
      rw [List.getLast?_eq_some_getLast (List.cons_ne_nil a text)] at hc
      cases hc
      simpa using hlast
  · rintro ⟨hhead, hlast⟩
    rw [strip, dropWhile_eq_self_iff.2 hhead, List.rdropWhile_eq_self_iff]
    intro hne
    simpa using hlast _ (by rw [List.getLast?_eq_some_getLast hne]; rfl)

/-- Nothing is left to strip of a text that is stripped. -/
lemma stripped_strip (text : List Char) : Stripped (strip text) := by
  refine ⟨fun c hc => ?_, fun c hc => ?_⟩
  · obtain ⟨rest, hrest⟩ : strip text <+: text.dropWhile isSpace :=
      List.rdropWhile_prefix isSpace _
    refine dropWhile_eq_self_iff.1 (List.dropWhile_idempotent isSpace text) c ?_
    rw [← hrest, List.head?_append, Option.mem_def.1 hc]
    rfl
  · have hne : strip text ≠ [] := List.ne_nil_of_mem (List.mem_of_getLast? hc)
    rw [List.getLast?_eq_some_getLast hne] at hc
    cases hc
    exact Bool.eq_false_iff.2 (List.rdropWhile_last_not isSpace (text.dropWhile isSpace) hne)

/-! ### Decoding -/

/-- `raw.decode("ascii", "replace")`. -/
def decodeAscii (raw : Bytes) : List Char :=
  raw.map fun b => if b < 128 then Char.ofNat b.toNat else Char.ofNat 0xFFFD

/-- Decode an ASCII string reply, dropping the padding and the whitespace around the value. -/
def decodeString (raw : Bytes) : String :=
  String.ofList (strip (decodeAscii (raw.takeWhile fun b => b ≠ 0)))

/-- The text in front of the first NUL. -/
def beforeNul (text : List Char) : List Char := text.takeWhile fun c => c.toNat ≠ 0

lemma beforeNul_eq_self_iff {text : List Char} :
    beforeNul text = text ↔ ∀ c ∈ text, c.toNat ≠ 0 := by
  simp [beforeNul, List.takeWhile_eq_self_iff]

end SpinevBle
