import Mathlib.Data.Nat.Bitwise
import SpinevBle.Const

/-!
# Frames

Eight bytes, `10 AC`, register, flag and a four byte value, all multi byte values big endian.
A `Frame` is what the builders produce and what `parse_frame` returns, so that a frame of the
wrong shape cannot be written down; `Frame.bytes` is its form on the wire.
-/

namespace SpinevBle

/-! ### Packing -/

/-- The four value bytes of a frame. -/
structure Word where
  b₀ : UInt8
  b₁ : UInt8
  b₂ : UInt8
  b₃ : UInt8
  deriving DecidableEq

namespace Word

def bytes (w : Word) : Bytes := [w.b₀, w.b₁, w.b₂, w.b₃]

def ofNat (n : ℕ) : Word :=
  ⟨UInt8.ofNat (n >>> 24), UInt8.ofNat (n >>> 16), UInt8.ofNat (n >>> 8), UInt8.ofNat n⟩

def toNat (w : Word) : ℕ :=
  w.b₀.toNat * 2 ^ 24 + w.b₁.toNat * 2 ^ 16 + w.b₂.toNat * 2 ^ 8 + w.b₃.toNat

/-- The four bytes of `data` from `offset` on. -/
def slice (data : Bytes) (offset : ℕ) : Word :=
  ⟨data.getD offset 0, data.getD (offset + 1) 0, data.getD (offset + 2) 0,
    data.getD (offset + 3) 0⟩

end Word

/-- One element of `bytes([...])`. -/
def byte (n : ℤ) : Except Exc UInt8 :=
  if 0 ≤ n ∧ n < 256 then .ok (UInt8.ofNat n.toNat)
  else .error (.builtin .valueError "bytes must be in range(0, 256)")

/-- What `struct.pack(">I", n)` says of a number that does not fit. One that fits into no unsigned
integer at all is told apart. -/
def packUIntMessage (n : ℤ) : String :=
  if 0 ≤ n ∧ n < 2 ^ 64 then "'I' format requires 0 <= number <= 4294967295"
  else "argument out of range"

/-- `struct.pack(">I", n)`. -/
def packUInt (n : ℤ) : Except Exc Word :=
  if 0 ≤ n ∧ n < 0x100000000 then .ok (Word.ofNat n.toNat)
  else .error (.builtin .structError (packUIntMessage n))

/-- `data[i]`. -/
def byteAt (data : Bytes) (i : ℕ) : Except Exc UInt8 :=
  match data[i]? with
  | some b => .ok b
  | none => .error (.builtin .indexError "index out of range")

/-! ### Frames -/

/-- A decoded protocol frame. -/
structure Frame where
  register : UInt8
  flag : UInt8
  raw : Word
  deriving DecidableEq

namespace Frame

def bytes (f : Frame) : Bytes := frameHeader ++ [f.register, f.flag] ++ f.raw.bytes

@[simp] lemma length_bytes (f : Frame) : f.bytes.length = frameLength := rfl

lemma bytes_eq (f : Frame) :
    f.bytes = [0x10, 0xAC, f.register, f.flag, f.raw.b₀, f.raw.b₁, f.raw.b₂, f.raw.b₃] := rfl

/-- A frame can be read off its bytes. -/
lemma bytes_injective : Function.Injective Frame.bytes := by
  rintro ⟨r, f, w⟩ ⟨r', f', w'⟩ h
  simp only [bytes_eq, List.cons.injEq, and_true, true_and] at h
  obtain ⟨rfl, rfl, h₀, h₁, h₂, h₃⟩ := h
  congr 1
  cases w
  cases w'
  simp_all

end Frame

/-- The register id as an integer, which is what `bytes` packs. -/
def Register.id (r : Register) : ℤ := r.value.toNat

/-- Build a read request. `flag` is the operation read, except for the second alarm bank. -/
def buildReadOf (register : UInt8) (parameter : ℤ := 0) (flag : UInt8 := Operation.read.value) :
    Except Exc Frame := do
  let raw ← packUInt parameter
  return ⟨register, flag, raw⟩

/-- Build a read request for a register given as an integer, which may not be a byte. -/
def buildRead (register : ℤ) (parameter : ℤ := 0) (flag : UInt8 := Operation.read.value) :
    Except Exc Frame := do
  buildReadOf (← byte register) parameter flag

lemma byte_toNat (b : UInt8) : byte b.toNat = .ok b := by
  have hb := b.toNat_lt
  rw [byte, if_pos ⟨by omega, by omega⟩]
  simp

/-- The registers of the library always fit. -/
lemma buildRead_id (register : Register) (parameter : ℤ) (flag : UInt8) :
    buildRead register.id parameter flag = buildReadOf register.value parameter flag := by
  simp [buildRead, Register.id, byte_toNat, bind, Except.bind]

/-- Build a write request carrying an unsigned 32 bit value. -/
def buildWriteUInt (register : Register) (value : ℤ) : Except Exc Frame := do
  let raw ← packUInt value
  return ⟨register.value, Operation.write.value, raw⟩

/-! ### Settings -/

/-- Build a write of the clock time, packed as `00 SS MM HH`. -/
def buildClockTime (hour minute second : ℕ) : Except Exc Frame :=
  if hour < 24 ∧ minute < 60 ∧ second < 60 then
    buildWriteUInt .clockTime ((second <<< 16 ||| minute <<< 8 ||| hour : ℕ) : ℤ)
  else .error (.spinEv .protocol "time component out of range")

/-- Build a write of the clock date, packed as `00 DD MM YY`, month zero based. -/
def buildClockDate (year month day : ℕ) : Except Exc Frame :=
  if 1900 ≤ year ∧ year ≤ 2155 ∧ 1 ≤ month ∧ month ≤ 12 ∧ 1 ≤ day ∧ day ≤ 31 then
    buildWriteUInt .clockDate ((day <<< 16 ||| (month - 1) <<< 8 ||| (year - yearEpoch) : ℕ) : ℤ)
  else .error (.spinEv .protocol "date component out of range")

/-- Build a write of the UTC offset, packed as `00 00 HH MM`. -/
def buildTimezone (hours minutes : ℤ) : Except Exc Frame :=
  if 0 ≤ hours ∧ hours < 24 ∧ 0 ≤ minutes ∧ minutes < 60 then
    buildWriteUInt .timezone ((hours.toNat <<< 8 ||| minutes.toNat : ℕ) : ℤ)
  else .error (.spinEv .protocol "timezone offset out of range")

/-- The frame that applies a batch of configuration writes. -/
def buildCommit : Except Exc Frame := buildWriteUInt .commit commitValue

/-- `value.encode("ascii")`. -/
def encodeAscii (value : String) : Except Exc Bytes :=
  if value.toList.all (fun c => c.toNat < 128) then
    .ok (value.toList.map fun c => UInt8.ofNat c.toNat)
  else .error (.spinEv .protocol "value must be ASCII")

/-- The frames that write a text setting in four byte pieces, numbered from 1 in the flag byte.
The padded payload is a whole number of pieces long. -/
def buildStringWriteOf (register : UInt8) (value : String) (fieldBytes : ℤ) :
    Except Exc (List Frame) := do
  if fieldBytes ≤ 0 ∨ fieldBytes % 4 ≠ 0 then
    throw (.spinEv .protocol "field_bytes must be a positive multiple of 4")
  let payload ← encodeAscii value
  if payload.length > fieldBytes then
    throw (.spinEv .protocol s!"value is {payload.length} bytes, limit is {fieldBytes}")
  let padded := payload.rightpad fieldBytes.toNat 0
  (List.range (fieldBytes.toNat / 4)).mapM fun (i : ℕ) => do
    let seq ← byte (i + 1)
    return ⟨register, seq, Word.slice padded (4 * i)⟩

/-- The same for a register of the library. -/
def buildStringWrite (register : Register) (value : String) (fieldBytes : ℤ) :
    Except Exc (List Frame) :=
  buildStringWriteOf register.value value fieldBytes

/-! ### Text settings -/

/-- All characters are ASCII. -/
def IsAscii (text : List Char) : Prop := ∀ c ∈ text, c.toNat < 128

instance (text : List Char) : Decidable (IsAscii text) :=
  List.decidableBAll (fun c : Char => c.toNat < 128) text

/-- The bytes of an ASCII text. -/
def asciiBytes (text : List Char) : Bytes := text.map fun c => UInt8.ofNat c.toNat

/-- Piece `i` of a text in a field of `n` bytes, with its number. -/
def piece (register : UInt8) (value : String) (n i : ℕ) : Frame :=
  ⟨register, UInt8.ofNat (i + 1), Word.slice ((asciiBytes value.toList).rightpad n 0) (4 * i)⟩

/-- What a text has to be to fit into a field. -/
structure FitsField (value : String) (fieldBytes : ℤ) : Prop where
  pos : 0 < fieldBytes
  whole : fieldBytes % 4 = 0
  ascii : IsAscii value.toList
  short : (value.length : ℤ) ≤ fieldBytes

lemma byte_eq_ok {n : ℤ} {b : UInt8} :
    byte n = .ok b ↔ (0 ≤ n ∧ n < 256) ∧ b = UInt8.ofNat n.toNat := by
  unfold byte
  split_ifs with h <;> simp [h, eq_comm]

lemma packUInt_eq_ok {n : ℤ} {w : Word} :
    packUInt n = .ok w ↔ (0 ≤ n ∧ n < 0x100000000) ∧ w = Word.ofNat n.toNat := by
  unfold packUInt
  split_ifs with h <;> simp [h, eq_comm]

lemma encodeAscii_eq {value : String} (h : IsAscii value.toList) :
    encodeAscii value = .ok (asciiBytes value.toList) := by
  rw [encodeAscii, if_pos (by simpa [IsAscii] using h), asciiBytes]

lemma length_asciiBytes (value : String) : (asciiBytes value.toList).length = value.length := by
  rw [asciiBytes, List.length_map, String.length_toList]

/-- A text that does not fit is refused with an error of the package. -/
lemma buildStringWriteOf_eq_error (register : UInt8) {value : String} {fieldBytes : ℤ}
    (h : ¬ FitsField value fieldBytes) :
    ∃ m, buildStringWriteOf register value fieldBytes = .error (.spinEv .protocol m) := by
  unfold buildStringWriteOf
  by_cases hf : fieldBytes ≤ 0 ∨ fieldBytes % 4 ≠ 0
  · exact ⟨_, by rw [if_pos hf]; rfl⟩
  · rw [if_neg hf]
    by_cases ha : IsAscii value.toList
    · have hlen : (asciiBytes value.toList).length > fieldBytes := by
        by_contra hle
        rw [not_or, not_le, ne_eq, not_not] at hf
        rw [length_asciiBytes] at hle
        exact h ⟨hf.1, hf.2, ha, not_lt.1 hle⟩
      exact ⟨_, by rw [encodeAscii_eq ha]; simp only [bind_ok, if_pos hlen]; rfl⟩
    · have he : encodeAscii value = .error (.spinEv .protocol "value must be ASCII") := by
        rw [encodeAscii, if_neg (by simpa [IsAscii] using ha)]
      exact ⟨_, by rw [he]; rfl⟩

private lemma buildStringWriteOf_of_fits {register : UInt8} {value : String} {fieldBytes : ℤ}
    (h : FitsField value fieldBytes) :
    buildStringWriteOf register value fieldBytes =
      (List.range (fieldBytes.toNat / 4)).mapM fun (i : ℕ) => do
        let seq ← byte (i + 1)
        return ⟨register, seq,
          Word.slice ((asciiBytes value.toList).rightpad fieldBytes.toNat 0) (4 * i)⟩ := by
  have hf : ¬ (fieldBytes ≤ 0 ∨ fieldBytes % 4 ≠ 0) := by
    have := h.pos
    have := h.whole
    omega
  have hlen : ¬ ((asciiBytes value.toList).length > fieldBytes) := by
    rw [length_asciiBytes]
    exact not_lt.2 h.short
  unfold buildStringWriteOf
  rw [if_neg hf, encodeAscii_eq h.ascii]
  simp only [pure_eq_ok, bind_ok, if_neg hlen]

/-- A text that fits is written in as many pieces as the field has, if their number is a byte. -/
lemma buildStringWriteOf_eq_ok {register : UInt8} {value : String} {fieldBytes : ℤ}
    (h : FitsField value fieldBytes) (hle : fieldBytes ≤ 1020) :
    buildStringWriteOf register value fieldBytes =
      .ok ((List.range (fieldBytes.toNat / 4)).map (piece register value fieldBytes.toNat)) := by
  rw [buildStringWriteOf_of_fits h]
  refine mapM_eq_ok fun i hi => ?_
  have hi' : i < 255 := by
    have := List.mem_range.1 hi
    omega
  have hb : byte ((i : ℤ) + 1) = .ok (UInt8.ofNat (i + 1)) :=
    byte_eq_ok.2 ⟨by omega, by norm_cast⟩
  rw [hb]
  rfl

/-- The number of the 256th piece is not a byte. -/
lemma buildStringWriteOf_eq_valueError {register : UInt8} {value : String} {fieldBytes : ℤ}
    (h : FitsField value fieldBytes) (hlt : 1020 < fieldBytes) :
    buildStringWriteOf register value fieldBytes =
      .error (.builtin .valueError "bytes must be in range(0, 256)") := by
  have hwhole := h.whole
  rw [buildStringWriteOf_of_fits h]
  refine mapM_eq_error (fun i _ e he => ?_) ⟨255, List.mem_range.2 (by omega), rfl⟩
  unfold byte at he
  split_ifs at he with hb
  · cases he
  · cases he
    rfl

/-! ### The register and the flag of a frame -/

/-- The pieces of a text are not reads. -/
lemma mem_buildStringWrite {register : Register} {value : String} {fieldBytes : ℤ}
    {frames : List Frame} (h : buildStringWrite register value fieldBytes = .ok frames) :
    ∀ f ∈ frames, f.register = register.value ∧ f.flag ≠ Operation.read.value := by
  unfold buildStringWrite at h
  by_cases hf : FitsField value fieldBytes
  · by_cases hle : fieldBytes ≤ 1020
    · rw [buildStringWriteOf_eq_ok hf hle] at h
      cases h
      intro f hf
      obtain ⟨i, hi, rfl⟩ := List.mem_map.1 hf
      rw [List.mem_range] at hi
      refine ⟨rfl, fun h0 => ?_⟩
      have h0 := congrArg UInt8.toNat h0
      simp only [piece, UInt8.toNat_ofNat', Operation.value] at h0
      have : (i + 1) % 2 ^ 8 = 0 := h0
      omega
    · rw [buildStringWriteOf_eq_valueError hf (by omega)] at h
      cases h
  · obtain ⟨m, hm⟩ := buildStringWriteOf_eq_error register.value hf
    rw [hm] at h
    cases h

lemma buildReadOf_iff {register flag : UInt8} {parameter : ℤ} {frame : Frame} :
    buildReadOf register parameter flag = .ok frame ↔
      frame.register = register ∧ frame.flag = flag ∧ packUInt parameter = .ok frame.raw := by
  unfold buildReadOf
  rw [bind_eq_ok]
  constructor
  · rintro ⟨raw, hraw, h⟩
    cases h
    exact ⟨rfl, rfl, hraw⟩
  · rintro ⟨rfl, rfl, hraw⟩
    exact ⟨_, hraw, rfl⟩

lemma register_buildReadOf {register flag : UInt8} {parameter : ℤ} {frame : Frame}
    (h : buildReadOf register parameter flag = .ok frame) : frame.register = register :=
  (buildReadOf_iff.1 h).1

lemma flag_buildReadOf {register flag : UInt8} {parameter : ℤ} {frame : Frame}
    (h : buildReadOf register parameter flag = .ok frame) : frame.flag = flag :=
  (buildReadOf_iff.1 h).2.1

/-- A write of a word is a read but for its flag. -/
lemma buildWriteUInt_eq_buildReadOf (register : Register) (value : ℤ) :
    buildWriteUInt register value = buildReadOf register.value value Operation.write.value := rfl

lemma register_buildWriteUInt {register : Register} {value : ℤ} {frame : Frame}
    (h : buildWriteUInt register value = .ok frame) : frame.register = register.value :=
  register_buildReadOf h

lemma flag_buildWriteUInt {register : Register} {value : ℤ} {frame : Frame}
    (h : buildWriteUInt register value = .ok frame) : frame.flag = Operation.write.value :=
  flag_buildReadOf h

/-! ### Control commands -/

/-- The password occupies the low three bytes of the control value. -/
def passwordMax : ℤ := 0xFFFFFF

/-- Build a start or stop command. -/
def buildControl (command : Command) (password : ℤ) : Except Exc Frame :=
  if 0 ≤ password ∧ password ≤ passwordMax then
    buildWriteUInt .control ((command.value <<< 24 ||| password.toNat : ℕ) : ℤ)
  else .error (.spinEv .password s!"password must fit in three bytes, got {password}")

/-- A control command fits its word: the command byte and a password of three bytes. -/
lemma control_lt (command : Command) {password : ℤ} (h : 0 ≤ password ∧ password ≤ passwordMax) :
    0 ≤ ((command.value <<< 24 ||| password.toNat : ℕ) : ℤ) ∧
      ((command.value <<< 24 ||| password.toNat : ℕ) : ℤ) < 0x100000000 := by
  have hp : password.toNat < 2 ^ 24 := by
    have : password ≤ 0xFFFFFF := h.2
    omega
  have hc : command.value < 2 ^ 8 := by cases command <;> decide
  exact ⟨Int.natCast_nonneg _, by exact_mod_cast Nat.append_lt hp hc⟩

/-- A command is built for every password of three bytes and for no other. -/
lemma buildControl_eq_ok {command : Command} {password : ℤ} {frame : Frame} :
    buildControl command password = .ok frame ↔
      (0 ≤ password ∧ password ≤ passwordMax) ∧
        frame = ⟨Register.control.value, Operation.write.value,
          Word.ofNat (command.value <<< 24 ||| password.toNat)⟩ := by
  unfold buildControl
  split_ifs with h
  · rw [buildWriteUInt_eq_buildReadOf, buildReadOf_iff, packUInt_eq_ok, Int.toNat_natCast]
    constructor
    · rintro ⟨hregister, hflag, -, hraw⟩
      exact ⟨h, by rw [← hregister, ← hflag, ← hraw]⟩
    · rintro ⟨-, rfl⟩
      exact ⟨rfl, rfl, control_lt command h, rfl⟩
  · simp [h]

/-- The top byte of a command is the command. -/
lemma b₀_control (command : Command) {password : ℤ} (h : 0 ≤ password ∧ password ≤ passwordMax) :
    (Word.ofNat (command.value <<< 24 ||| password.toNat)).b₀ = UInt8.ofNat command.value := by
  have hlt : password.toNat < 2 ^ 24 := by
    have : password ≤ 0xFFFFFF := h.2
    omega
  simp only [Word.ofNat, Nat.shiftRight_or_distrib, Nat.shiftRight_eq_div_pow password.toNat,
    Nat.div_eq_of_lt hlt, Nat.or_zero]
  rw [Nat.shiftLeft_shiftRight]

lemma register_buildControl {command : Command} {password : ℤ} {frame : Frame}
    (h : buildControl command password = .ok frame) :
    frame.register = Register.control.value := by
  obtain ⟨-, rfl⟩ := buildControl_eq_ok.1 h
  rfl

/-! ### Replies -/

/-- `data.startswith(FRAME_HEADER)`. -/
def startsWithHeader (data : Bytes) : Bool := frameHeader.isPrefixOf data

/-- Parse an 8 byte reply. -/
def parseFrame (data : Bytes) : Option Frame :=
  if data.length ≠ frameLength ∨ ¬ startsWithHeader data then none
  else some ⟨data.getD 2 0, data.getD 3 0, Word.slice data 4⟩

lemma parseFrame_bytes (f : Frame) : parseFrame f.bytes = some f := by
  obtain ⟨r, fl, ⟨b₀, b₁, b₂, b₃⟩⟩ := f
  simp [parseFrame, Frame.bytes_eq, startsWithHeader, frameHeader, frameLength, Word.slice]

/-- True if the payload is a register reply, of either length. -/
def isReply (data : Bytes) : Bool := decide (data.length > 4) && startsWithHeader data

/-- Confirm that the charger accepted a start or stop command. -/
def checkControlReply (sent : Frame) (reply : Bytes) : Except Exc Unit :=
  match parseFrame reply with
  | none => .error (.spinEv .protocol "reply is not a control reply")
  | some frame =>
    if frame.register ≠ Register.control.value then
      .error (.spinEv .protocol "reply is not a control reply")
    else if frame.raw = Word.ofNat controlRejected.toNat then
      .error (.spinEv .commandRejected <|
        "the charger refused the command. Check that a vehicle is plugged " ++
        "in and the Bluetooth password is right.")
    else if frame.raw ≠ sent.raw then
      .error (.spinEv .protocol
        "the charger answered a control command with a different command")
    else .ok ()

/-- An echo confirms a command, unless the command looks like a refusal. -/
lemma checkControlReply_echo {f : Frame} (hr : f.register = Register.control.value)
    (hraw : f.raw ≠ Word.ofNat controlRejected.toNat) : checkControlReply f f.bytes = .ok () := by
  simp [checkControlReply, parseFrame_bytes, hr, hraw]

lemma raw_buildControl {command : Command} {password : ℤ} {frame : Frame}
    (h : buildControl command password = .ok frame) :
    frame.raw ≠ Word.ofNat controlRejected.toNat := by
  obtain ⟨hp, rfl⟩ := buildControl_eq_ok.1 h
  intro heq
  have htop := congrArg Word.b₀ heq
  rw [b₀_control command hp] at htop
  cases command <;> exact absurd htop (by decide)

/-- True if the payload looks like a bulk history record rather than a frame. -/
def isHistoryRecord (data : Bytes) : Except Exc Bool := do
  if data.length = sessionRecordLength ∨ data.length = eventRecordLength then
    if (← byteAt data 0) = recordStartMarker then
      return (← byteAt data (data.length - 1)) = recordEndMarker
  return false

lemma isHistoryRecord_bytes (f : Frame) : isHistoryRecord f.bytes = .ok false := rfl

/-! ### What a payload can be -/

/-- The payload answers a frame with this register and flag. -/
structure Answers (payload : Bytes) (register flag : UInt8) : Prop where
  header : frameHeader <+: payload
  long : 4 < payload.length
  register_eq : payload[2]? = some register
  flag_eq : payload[3]? = some flag

instance (payload : Bytes) (register flag : UInt8) : Decidable (Answers payload register flag) :=
  decidable_of_iff (frameHeader <+: payload ∧ 4 < payload.length ∧ payload[2]? = some register ∧
    payload[3]? = some flag) ⟨fun ⟨h, l, r, f⟩ => ⟨h, l, r, f⟩, fun ⟨h, l, r, f⟩ => ⟨h, l, r, f⟩⟩

/-- The bytes of a frame answer a frame with the same register and flag. -/
lemma Frame.answers (f : Frame) : Answers f.bytes f.register f.flag :=
  ⟨⟨_, rfl⟩, by simp [frameLength], rfl, rfl⟩

lemma isReply_iff {data : Bytes} :
    isReply data = true ↔ 4 < data.length ∧ frameHeader <+: data := by
  simp [isReply, startsWithHeader]

lemma byteAt_eq_ok {data : Bytes} {i : ℕ} {b : UInt8} :
    byteAt data i = .ok b ↔ data[i]? = some b := by
  unfold byteAt
  cases data[i]? <;> simp

/-- A payload that answers two frames answers the same register and flag. -/
lemma Answers.unique {payload : Bytes} {r r' f f' : UInt8} (h : Answers payload r f)
    (h' : Answers payload r' f') : r = r' ∧ f = f' :=
  ⟨Option.some.inj (h.register_eq.symm.trans h'.register_eq),
    Option.some.inj (h.flag_eq.symm.trans h'.flag_eq)⟩

lemma Answers.isReply {payload : Bytes} {r f : UInt8} (h : Answers payload r f) :
    isReply payload = true :=
  isReply_iff.2 ⟨h.long, h.header⟩

lemma exists_byteAt {data : Bytes} {i : ℕ} (h : i < data.length) : ∃ b, byteAt data i = .ok b :=
  ⟨data[i], byteAt_eq_ok.2 (List.getElem?_eq_getElem h)⟩

/-- Every reply answers some register and flag. -/
lemma exists_answers {payload : Bytes} (h : SpinevBle.isReply payload = true) :
    ∃ r f, byteAt payload 2 = .ok r ∧ byteAt payload 3 = .ok f ∧ Answers payload r f := by
  obtain ⟨hl, hh⟩ := isReply_iff.1 h
  obtain ⟨r, hr⟩ := exists_byteAt (show 2 < payload.length by omega)
  obtain ⟨f, hf⟩ := exists_byteAt (show 3 < payload.length by omega)
  exact ⟨r, f, hr, hf, hh, hl, byteAt_eq_ok.1 hr, byteAt_eq_ok.1 hf⟩

/-- Asking whether a payload is a history record never raises. -/
lemma exists_isHistoryRecord (payload : Bytes) : ∃ b, isHistoryRecord payload = .ok b := by
  unfold isHistoryRecord
  split_ifs with hl
  · have hpos : 0 < payload.length := by
      rcases hl with hl | hl <;> rw [hl] <;> decide
    obtain ⟨first, hfirst⟩ := exists_byteAt hpos
    obtain ⟨last, hlast⟩ := exists_byteAt (show payload.length - 1 < payload.length by omega)
    by_cases hm : first = recordStartMarker
    · refine ⟨decide (last = recordEndMarker), ?_⟩
      simp [hfirst, hlast, hm, bind, Except.bind, pure, Except.pure]
    · exact ⟨false, by simp [hfirst, hm, bind, Except.bind, pure, Except.pure]⟩
  · exact ⟨false, rfl⟩

/-- A history record starts with another byte than a frame. -/
lemma isReply_eq_false_of_isHistoryRecord {payload : Bytes}
    (h : isHistoryRecord payload = .ok true) : isReply payload = false := by
  by_contra hr
  obtain ⟨-, hh⟩ := isReply_iff.1 (by simpa using hr)
  obtain ⟨rest, rfl⟩ := hh
  unfold isHistoryRecord at h
  split_ifs at h with hl <;>
    simp [byteAt, frameHeader, recordStartMarker, bind, Except.bind, pure, Except.pure] at h

end SpinevBle
