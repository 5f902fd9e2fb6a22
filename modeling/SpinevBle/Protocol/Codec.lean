import SpinevBle.Protocol.Records

/-!
# The frame codec

Building a frame and parsing it are inverse to each other, on all of the format: four bytes are the
same as a number below `2 ^ 32`, and what is parsed is what could have been built.
-/

namespace SpinevBle

/-! ### Words are numbers -/

namespace Word

lemma toNat_lt (w : Word) : w.toNat < 2 ^ 32 := by
  obtain ⟨b₀, b₁, b₂, b₃⟩ := w
  have h₀ := b₀.toNat_lt
  have h₁ := b₁.toNat_lt
  have h₂ := b₂.toNat_lt
  have h₃ := b₃.toNat_lt
  simp only [toNat]
  omega

lemma toNat_ofNat {n : ℕ} (h : n < 2 ^ 32) : (ofNat n).toNat = n := by
  simp only [toNat, ofNat, UInt8.toNat_ofNat', Nat.shiftRight_eq_div_pow]
  omega

lemma ofNat_toNat (w : Word) : ofNat w.toNat = w := by
  obtain ⟨b₀, b₁, b₂, b₃⟩ := w
  have h₀ := b₀.toNat_lt
  have h₁ := b₁.toNat_lt
  have h₂ := b₂.toNat_lt
  have h₃ := b₃.toNat_lt
  simp only [toNat, ofNat, Word.mk.injEq, ← UInt8.toNat_inj, UInt8.toNat_ofNat',
    Nat.shiftRight_eq_div_pow]
  omega

lemma toNat_injective : Function.Injective toNat :=
  Function.LeftInverse.injective ofNat_toNat

@[simp] lemma slice_bytes_zero (w : Word) : slice w.bytes 0 = w := rfl

lemma bytes_injective : Function.Injective bytes :=
  Function.LeftInverse.injective (g := fun data => slice data 0) slice_bytes_zero

lemma bytes_slice {data : Bytes} {offset : ℕ} (h : offset + 4 ≤ data.length) :
    (slice data offset).bytes = (data.drop offset).take 4 := by
  have hget : ∀ k, data.getD (offset + k) 0 = (data.drop offset).getD k 0 := fun k => by
    simp [List.getD_eq_getElem?_getD]
  have hlen : 4 ≤ (data.drop offset).length := by
    rw [List.length_drop]
    omega
  have hfirst : data.getD offset 0 = (data.drop offset).getD 0 0 := hget 0
  simp only [slice, bytes, hfirst, hget]
  generalize data.drop offset = rest at hlen
  obtain ⟨b₀, b₁, b₂, b₃, hfour⟩ := List.length_eq_four.1 (List.length_take_of_le hlen)
  rw [← List.take_append_drop 4 rest, hfour]
  rfl

end Word

lemma decodeUInt_bytes (w : Word) : decodeUInt w.bytes = .ok w.toNat := rfl

/-- A packed number is what its bytes decode to. -/
lemma toNat_of_packUInt {n : ℤ} {w : Word} (h : packUInt n = .ok w) : (w.toNat : ℤ) = n := by
  obtain ⟨⟨hpos, hlt⟩, rfl⟩ := packUInt_eq_ok.1 h
  rw [Word.toNat_ofNat (by omega)]
  exact Int.toNat_of_nonneg hpos

lemma packUInt_toNat (w : Word) : packUInt w.toNat = .ok w := by
  have := w.toNat_lt
  rw [packUInt_eq_ok, Int.toNat_natCast, Word.ofNat_toNat]
  exact ⟨by omega, rfl⟩

/-! ### Builders -/

/-- Build a write request carrying an unsigned 32 bit value, for any register. -/
def buildWriteUIntOf (register : UInt8) (value : ℤ) : Except Exc Frame := do
  let raw ← packUInt value
  return ⟨register, Operation.write.value, raw⟩

lemma buildWriteUInt_eq (register : Register) (value : ℤ) :
    buildWriteUInt register value = buildWriteUIntOf register.value value := rfl

lemma buildRead_iff {register parameter : ℤ} {flag : UInt8} {frame : Frame} :
    buildRead register parameter flag = .ok frame ↔
      register = frame.register.toNat ∧ parameter = frame.raw.toNat ∧ flag = frame.flag := by
  unfold buildRead
  rw [bind_eq_ok]
  constructor
  · rintro ⟨r, hr, h⟩
    obtain ⟨⟨hpos, hlt⟩, rfl⟩ := byte_eq_ok.1 hr
    obtain ⟨hregister, hflag, hraw⟩ := buildReadOf_iff.1 h
    refine ⟨?_, (toNat_of_packUInt hraw).symm, hflag.symm⟩
    rw [hregister, UInt8.toNat_ofNat_of_lt' (by simp only [UInt8.size]; omega)]
    exact (Int.toNat_of_nonneg hpos).symm
  · rintro ⟨rfl, rfl, rfl⟩
    exact ⟨frame.register, byte_toNat _, buildReadOf_iff.2 ⟨rfl, rfl, packUInt_toNat _⟩⟩

lemma buildWriteUIntOf_iff {register : UInt8} {value : ℤ} {frame : Frame} :
    buildWriteUIntOf register value = .ok frame ↔
      register = frame.register ∧ value = frame.raw.toNat ∧
        frame.flag = Operation.write.value := by
  have h : buildWriteUIntOf register value = buildReadOf register value Operation.write.value := rfl
  rw [h, buildReadOf_iff]
  constructor
  · rintro ⟨rfl, hflag, hraw⟩
    exact ⟨rfl, (toNat_of_packUInt hraw).symm, hflag⟩
  · rintro ⟨rfl, rfl, hflag⟩
    exact ⟨rfl, hflag, packUInt_toNat _⟩

/-! ### Parsing -/

/-- The parser accepts the bytes of frames and nothing else. -/
lemma parseFrame_eq_some_iff {data : Bytes} {frame : Frame} :
    parseFrame data = some frame ↔ data = frame.bytes := by
  constructor
  · intro h
    unfold parseFrame at h
    split_ifs at h with hshape
    cases h
    rw [not_or, not_not, not_not, startsWithHeader, List.isPrefixOf_iff_prefix] at hshape
    obtain ⟨hlen, rest, rfl⟩ := hshape
    rcases rest with _ | ⟨register, _ | ⟨flag, raw⟩⟩
    · simp [frameHeader, frameLength] at hlen
    · simp [frameHeader, frameLength] at hlen
    · have hraw : raw.length = 4 := by simpa [frameHeader, frameLength] using hlen
      obtain ⟨b₀, b₁, b₂, b₃, rfl⟩ := List.length_eq_four.1 hraw
      rfl
  · rintro rfl
    exact parseFrame_bytes frame

/-- Building and parsing are inverse to each other. -/
theorem frame_codec :
    (∀ (register flag : UInt8) (value : ℕ), value < 2 ^ 32 →
      ∃ frame, buildRead register.toNat value flag = .ok frame ∧
        parseFrame frame.bytes = some ⟨register, flag, frame.raw⟩ ∧
        decodeUInt frame.raw.bytes = .ok value) ∧
    (∀ (register : UInt8) (value : ℕ), value < 2 ^ 32 →
      ∃ frame, buildWriteUIntOf register value = .ok frame ∧
        parseFrame frame.bytes = some ⟨register, Operation.write.value, frame.raw⟩ ∧
        decodeUInt frame.raw.bytes = .ok value) ∧
    (∀ data frame, parseFrame data = some frame →
      ∃ value : ℕ, decodeUInt frame.raw.bytes = .ok value ∧ value < 2 ^ 32 ∧
        ∃ built, buildRead frame.register.toNat value frame.flag = .ok built ∧
          built.bytes = data) ∧
    (∀ data, (∃ frame, parseFrame data = some frame) ↔
      ∃ register parameter flag frame, buildRead register parameter flag = .ok frame ∧
        frame.bytes = data) ∧
    (∀ register parameter flag frame register' parameter' flag' frame',
      buildRead register parameter flag = .ok frame →
      buildRead register' parameter' flag' = .ok frame' → frame.bytes = frame'.bytes →
        register = register' ∧ parameter = parameter' ∧ flag = flag') ∧
    (∀ register value frame register' value' frame',
      buildWriteUIntOf register value = .ok frame →
      buildWriteUIntOf register' value' = .ok frame' → frame.bytes = frame'.bytes →
        register = register' ∧ value = value') ∧
    ∀ frame : Frame, isReply frame.bytes = true ∧ isHistoryRecord frame.bytes = .ok false := by
  refine ⟨fun register flag value hv => ?_, fun register value hv => ?_, fun data frame h => ?_,
    fun data => ⟨?_, ?_⟩, ?_, ?_, fun frame => ⟨rfl, isHistoryRecord_bytes frame⟩⟩
  · have hw := Word.toNat_ofNat hv
    refine ⟨⟨register, flag, Word.ofNat value⟩, buildRead_iff.2 ⟨rfl, ?_, rfl⟩, parseFrame_bytes _, ?_⟩
    · simp only [hw]
    · rw [decodeUInt_bytes, hw]
  · have hw := Word.toNat_ofNat hv
    refine ⟨⟨register, Operation.write.value, Word.ofNat value⟩,
      buildWriteUIntOf_iff.2 ⟨rfl, ?_, rfl⟩, parseFrame_bytes _, ?_⟩
    · simp only [hw]
    · rw [decodeUInt_bytes, hw]
  · exact ⟨_, decodeUInt_bytes _, frame.raw.toNat_lt, frame, buildRead_iff.2 ⟨rfl, rfl, rfl⟩,
      (parseFrame_eq_some_iff.1 h).symm⟩
  · rintro ⟨frame, h⟩
    exact ⟨_, _, _, frame, buildRead_iff.2 ⟨rfl, rfl, rfl⟩, (parseFrame_eq_some_iff.1 h).symm⟩
  · rintro ⟨_, _, _, frame, -, h⟩
    exact ⟨frame, parseFrame_eq_some_iff.2 h.symm⟩
  · intro _ _ _ frame _ _ _ frame' h h' he
    obtain rfl := Frame.bytes_injective he
    obtain ⟨rfl, rfl, rfl⟩ := buildRead_iff.1 h
    obtain ⟨rfl, rfl, rfl⟩ := buildRead_iff.1 h'
    exact ⟨rfl, rfl, rfl⟩
  · intro _ _ frame _ _ frame' h h' he
    obtain rfl := Frame.bytes_injective he
    obtain ⟨rfl, rfl, -⟩ := buildWriteUIntOf_iff.1 h
    obtain ⟨rfl, rfl, -⟩ := buildWriteUIntOf_iff.1 h'
    exact ⟨rfl, rfl⟩

end SpinevBle
