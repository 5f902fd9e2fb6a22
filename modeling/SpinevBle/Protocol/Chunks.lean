import SpinevBle.Protocol.Codec
import SpinevBle.Protocol.Text

/-!
# Text in pieces

A text setting travels in numbered pieces of four bytes. Put together again they are the text and
its padding, and decoding that gives back the text, but for what `decode_string` leaves out.
-/

namespace SpinevBle

/-! ### Pieces -/

/-- The pieces of `data`, one after the other, are `data`. -/
private lemma flatMap_slice {data : Bytes} {n : ℕ} (h : 4 * n ≤ data.length) :
    (List.range n).flatMap (fun i => (Word.slice data (4 * i)).bytes) = data.take (4 * n) := by
  induction n with
  | zero => rfl
  | succ n ih =>
    rw [List.range_succ, List.flatMap_append, ih (by omega), List.flatMap_singleton,
      Word.bytes_slice (by omega), Nat.mul_succ, List.take_add]

/-- What the frames of a text carry, put together. -/
def carriedText (frames : List Frame) : Bytes := frames.flatMap fun f => f.raw.bytes

/-- The text in a field of `n` bytes. -/
def padded (value : String) (n : ℕ) : Bytes :=
  asciiBytes value.toList ++ List.replicate (n - value.length) 0

lemma rightpad_eq_padded (value : String) (n : ℕ) :
    (asciiBytes value.toList).rightpad n 0 = padded value n := by
  rw [List.rightpad, length_asciiBytes, padded]

lemma length_padded {value : String} {n : ℕ} (h : value.length ≤ n) :
    (padded value n).length = n := by
  rw [padded, List.length_append, length_asciiBytes, List.length_replicate]
  omega

lemma carriedText_pieces (register : UInt8) {value : String} {n : ℕ} (h : value.length ≤ 4 * n) :
    carriedText ((List.range n).map (piece register value (4 * n))) = padded value (4 * n) := by
  have hlen := length_padded h
  rw [carriedText, List.flatMap_map]
  simp only [piece, rightpad_eq_padded]
  rw [flatMap_slice hlen.ge, List.take_of_length_le hlen.le]

/-- The frames of a text, whichever they are, are its pieces. -/
lemma pieces_of_buildStringWriteOf {register : UInt8} {value : String} {fieldBytes : ℤ}
    {frames : List Frame} (h : buildStringWriteOf register value fieldBytes = .ok frames) :
    ∃ n : ℕ, fieldBytes = 4 * n ∧ n ≤ 255 ∧ value.length ≤ 4 * n ∧ IsAscii value.toList ∧
      frames = (List.range n).map (piece register value (4 * n)) := by
  by_cases hf : FitsField value fieldBytes
  · obtain ⟨hpos, hwhole, hascii, hshort⟩ := id hf
    by_cases hle : fieldBytes ≤ 1020
    · rw [buildStringWriteOf_eq_ok hf hle] at h
      obtain ⟨n, rfl⟩ : ∃ n : ℕ, fieldBytes = 4 * n := ⟨(fieldBytes / 4).toNat, by omega⟩
      have hn : ((4 * n : ℤ)).toNat = 4 * n := by omega
      rw [hn, Nat.mul_div_cancel_left n (by decide)] at h
      cases h
      exact ⟨n, rfl, by omega, by omega, hascii, rfl⟩
    · rw [buildStringWriteOf_eq_valueError hf (by omega)] at h
      cases h
  · obtain ⟨m, hm⟩ := buildStringWriteOf_eq_error register hf
    rw [hm] at h
    cases h

/-! ### Decoding -/

private lemma ofNat_toNat_ascii {c : Char} (h : c.toNat < 128) :
    (UInt8.ofNat c.toNat).toNat = c.toNat :=
  UInt8.toNat_ofNat_of_lt' (h.trans (by decide))

private lemma ofNat_ne_zero_iff {c : Char} (h : c.toNat < 128) :
    UInt8.ofNat c.toNat ≠ 0 ↔ c.toNat ≠ 0 := by
  rw [ne_eq, ← UInt8.toNat_inj, ofNat_toNat_ascii h]
  rfl

/-- ASCII is decoded to what was encoded. -/
private lemma decodeAscii_asciiBytes {text : List Char} (h : IsAscii text) :
    decodeAscii (asciiBytes text) = text := by
  rw [decodeAscii, asciiBytes, List.map_map]
  refine (List.map_congr_left fun c hc => ?_).trans (List.map_id text)
  have hlt : UInt8.ofNat c.toNat < 128 := by
    rw [UInt8.lt_iff_toNat_lt, ofNat_toNat_ascii (h c hc)]
    exact h c hc
  rw [Function.comp_apply, if_pos hlt, ofNat_toNat_ascii (h c hc), Char.ofNat_toNat, id]

private lemma takeWhile_asciiBytes {text : List Char} (h : IsAscii text) (n : ℕ) :
    (asciiBytes text ++ List.replicate n 0).takeWhile (fun b => b ≠ 0) =
      asciiBytes (beforeNul text) := by
  induction text with
  | nil => cases n <;> rfl
  | cons c text ih =>
    obtain ⟨hc, htext⟩ := List.forall_mem_cons.1 h
    have ih := ih htext
    simp only [asciiBytes, beforeNul] at ih ⊢
    by_cases h0 : c.toNat = 0
    · simp [h0]
    · have hb := (ofNat_ne_zero_iff hc).2 h0
      simp only [List.map_cons, List.cons_append, List.takeWhile_cons, hb, h0, ne_eq,
        not_false_eq_true, decide_true, if_true]
      rw [← ih]

/-- A text in its field is decoded up to its first NUL, without the whitespace around it. -/
lemma decodeString_padded {value : String} (h : IsAscii value.toList) (n : ℕ) :
    decodeString (padded value n) = String.ofList (strip (beforeNul value.toList)) := by
  have hbefore : IsAscii (beforeNul value.toList) := fun c hc =>
    h c ((List.takeWhile_sublist _).subset hc)
  rw [decodeString, padded, takeWhile_asciiBytes h, decodeAscii_asciiBytes hbefore]

/-- Nothing is lost of a text without a NUL and without whitespace around it. -/
lemma strip_beforeNul_eq_self_iff {text : List Char} :
    strip (beforeNul text) = text ↔ (∀ c ∈ text, c.toNat ≠ 0) ∧ Stripped text := by
  constructor
  · intro h
    have hsub : (strip (beforeNul text)).Sublist (beforeNul text) :=
      ((List.rdropWhile_prefix isSpace _).sublist).trans (List.dropWhile_sublist isSpace)
    rw [h] at hsub
    have hnul : beforeNul text = text :=
      ((List.takeWhile_sublist _).antisymm hsub)
    rw [hnul] at h
    exact ⟨beforeNul_eq_self_iff.1 hnul, strip_eq_self_iff.1 h⟩
  · rintro ⟨hnul, hstripped⟩
    rw [beforeNul_eq_self_iff.2 hnul, strip_eq_self_iff.2 hstripped]

/-- What a text is read back as. -/
def readBack (value : String) : String := String.ofList (strip (beforeNul value.toList))

lemma readBack_eq_self_iff {value : String} :
    readBack value = value ↔ (∀ c ∈ value.toList, c.toNat ≠ 0) ∧ Stripped value.toList := by
  rw [← strip_beforeNul_eq_self_iff, readBack, ← String.toList_inj, String.toList_ofList]

/-- What a charger reads out is read back as it is. -/
lemma readBack_decodeString (raw : Bytes) : readBack (decodeString raw) = decodeString raw := by
  rw [readBack_eq_self_iff, decodeString, String.toList_ofList]
  refine ⟨fun c hc => ?_, stripped_strip _⟩
  have hsub : (strip (decodeAscii (raw.takeWhile fun b => b ≠ 0))).Sublist _ :=
    (List.rdropWhile_prefix isSpace _).sublist.trans (List.dropWhile_sublist isSpace)
  obtain ⟨b, hb, rfl⟩ := List.mem_map.1 (hsub.subset hc)
  have hne : b ≠ 0 := by simpa using List.mem_takeWhile_imp hb
  by_cases hlt : b < 128
  · rw [if_pos hlt]
    rw [UInt8.lt_iff_toNat_lt] at hlt
    have hchar : ∀ n < 128, n ≠ 0 → (Char.ofNat n).toNat ≠ 0 := by decide
    exact hchar _ hlt fun h0 => hne (UInt8.toNat_inj.1 h0)
  · rw [if_neg hlt]
    decide

/-- The frames that write a text are its pieces, numbered from one, and what they carry is decoded
to the text again if it has no NUL and no whitespace around it. -/
theorem text_chunks {register : UInt8} {value : String} {fieldBytes : ℤ} {frames : List Frame}
    (h : buildStringWriteOf register value fieldBytes = .ok frames) :
    4 * (frames.length : ℤ) = fieldBytes ∧
    (∀ frame ∈ frames, frame.bytes.length = 8 ∧ frame.register = register) ∧
    frames.map (fun frame => frame.flag.toNat) = List.range' 1 frames.length ∧
    IsAscii value.toList ∧
    frames.flatMap (fun frame => frame.raw.bytes) =
      asciiBytes value.toList ++ List.replicate (fieldBytes.toNat - value.length) 0 ∧
    (frames.flatMap fun frame => frame.raw.bytes).length = fieldBytes ∧
    decodeString (frames.flatMap fun frame => frame.raw.bytes) =
      String.ofList (strip (beforeNul value.toList)) ∧
    (decodeString (frames.flatMap fun frame => frame.raw.bytes) = value ↔
      (∀ c ∈ value.toList, c.toNat ≠ 0) ∧ Stripped value.toList) := by
  obtain ⟨n, rfl, hn, hlen, hascii, rfl⟩ := pieces_of_buildStringWriteOf h
  have hfield : ((4 * n : ℤ)).toNat = 4 * n := by omega
  have hcarried := carriedText_pieces register hlen
  have hdecode := decodeString_padded hascii (4 * n)
  rw [carriedText] at hcarried
  rw [hcarried, hfield, hdecode]
  refine ⟨by simp, fun frame hf => ?_, ?_, hascii, rfl, ?_, rfl, readBack_eq_self_iff⟩
  · obtain ⟨i, -, rfl⟩ := List.mem_map.1 hf
    exact ⟨rfl, rfl⟩
  · rw [List.length_map, List.length_range, List.map_map, List.range'_eq_map_range]
    refine List.map_congr_left fun i hi => ?_
    have hi := List.mem_range.1 hi
    simp only [Function.comp_apply, piece]
    rw [UInt8.toNat_ofNat_of_lt' (by simp only [UInt8.size]; omega), Nat.add_comm]
  · rw [length_padded hlen]
    omega

/-- A text of five characters, in a field of eight bytes. -/
theorem text_chunks_hello :
    ∃ frames, buildStringWriteOf 0x63 "hello" 8 = .ok frames ∧
      4 * (frames.length : ℤ) = 8 ∧ frames.map (fun frame => frame.flag.toNat) = [1, 2] ∧
      decodeString (frames.flatMap fun frame => frame.raw.bytes) =
        String.ofList (strip (beforeNul "hello".toList)) := by
  have h : buildStringWriteOf 0x63 "hello" 8 = .ok _ := rfl
  obtain ⟨hlen, -, hflags, -, -, -, hdecode, -⟩ := text_chunks h
  exact ⟨_, h, hlen, hflags, hdecode⟩

end SpinevBle
