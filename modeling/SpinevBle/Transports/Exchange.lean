import SpinevBle.Lib.Interaction
import SpinevBle.Transports.Replies

/-!
# One request over the tunnel

`OcppTunnelTransport.async_send` as a program. It looks at the transport when it starts and again
when it has a payload, and in between `data_transfer` may have left any other transport behind. What
it does with the answer depends on the text of the answer only: the text has to be the hex of a
register frame, with underscores and whitespace anywhere.
-/

namespace SpinevBle.Ocpp

open Interaction

/-! ### Text that is hex -/

/-- The characters that `_parse_reply` deletes. -/
def Separator (c : Char) : Prop := c = '_' ∨ isSpace c = true

instance : DecidablePred Separator := fun c => inferInstanceAs (Decidable (c = '_' ∨ isSpace c = true))

/-- What is left of the text of a reply. -/
def cleaned (data : String) : List Char := data.toList.filter fun c => ¬ Separator c

/-- It is what `_parse_reply` reads. -/
lemma filter_eq_cleaned (data : String) :
    (data.toList.filter fun c => c ≠ '_' && !isSpace c) = cleaned data := by
  refine List.filter_congr fun c _ => ?_
  rw [Bool.eq_iff_iff]
  simp [Separator]

/-- A text is parsed if it is hex without its separators, as the bytes that it renders. -/
lemma parseReply_eq_ok_iff {data : String} {payload : Bytes} :
    parseReply data = .ok payload ↔ Hex.Renders payload (cleaned data) := by
  rw [parseReply, filter_eq_cleaned, ← Hex.read_eq_some_iff]
  cases Hex.read (cleaned data) <;> simp

/-- Every other text is a protocol error. -/
lemma exists_parseReply_error {data : String} (h : ∀ payload, ¬ Hex.Renders payload (cleaned data)) :
    ∃ m, parseReply data = .error (.spinEv .protocol m) := by
  have hnone : Hex.read (cleaned data) = none := by
    rw [Option.eq_none_iff_forall_ne_some]
    intro payload hp
    exact h payload (Hex.read_eq_some_iff.1 hp)
  rw [parseReply, filter_eq_cleaned, hnone]
  exact ⟨_, rfl⟩

lemma not_separator_digit (case : Hex.Case) {n : ℕ} (hn : n < 16) :
    ¬ Separator (Hex.digit case n) := by
  cases case <;> interval_cases n <;> decide

/-- Separators in a rendering make no difference. -/
lemma cleaned_of_spread {text data : List Char} {payload : Bytes} (h : Hex.Renders payload text)
    (hd : Hex.Spread Separator text data) : cleaned (String.ofList data) = text := by
  rw [cleaned, String.toList_ofList]
  refine hd.filter (fun c hc => by simp [hc]) fun c hc => ?_
  obtain ⟨case, n, hn, rfl⟩ := h.digits c hc
  simp [not_separator_digit case hn]

/-! ### The program -/

/-- `DataTransfer` vendor id under which the charger accepts register frames. -/
def vendorId : String := "CPV07"

/-- `DataTransfer` message id for register frames. -/
def messageId : String := "CC_CONFIG"

/-- What `async_send` does with the transport, the central system and the client. -/
inductive Op (κ : Type)
  | self
  | dataTransfer (vendorId messageId data : String)
  | onFrame (callback : κ) (payload : Bytes)

abbrev Op.Result (κ δ : Type) : Op κ → Type
  | .self => Transport κ δ
  | .dataTransfer _ _ _ => TransferEnd
  | .onFrame _ _ => Unit

variable {κ δ : Type}

abbrev Sending (κ δ : Type) := ExceptT Exc (Prog (Op κ) (Op.Result κ δ))

namespace Sending

def self : Sending κ δ (Transport κ δ) := ExceptT.mk (.op .self fun t => .pure (.ok t))

def dataTransfer (vendorId messageId data : String) : Sending κ δ TransferEnd :=
  ExceptT.mk (.op (.dataTransfer vendorId messageId data) fun e => .pure (.ok e))

def onFrame (callback : κ) (payload : Bytes) : Sending κ δ Unit :=
  ExceptT.mk (.op (.onFrame callback payload) fun _ => .pure (.ok ()))

/-- Code that does nothing but raise or return. -/
def raising {α : Type} (x : Except Exc α) : Sending κ δ α := ExceptT.mk (.pure x)

end Sending

/-- Send the frame as a `DataTransfer` and deliver the reply. -/
def asyncSend (frame : Bytes) : Sending κ δ Unit := do
  let transport ← Sending.self
  let data ← Sending.raising (transport.request frame)
  let e ← Sending.dataTransfer vendorId messageId data
  match ← Sending.raising (reply (frame.getD 2 0) e) with
  | none => return ()
  | some payload =>
    -- the client may have disconnected while the request was in flight
    let transport ← Sending.self
    match transport.onFrame with
    | some callback => Sending.onFrame callback payload
    | none => return ()

/-- What has come of a call: the transport as it is left, the requests that were made and the
callbacks that were called. -/
structure Exchange (κ δ : Type) where
  transport : Transport κ δ
  transfers : List (String × String × String)
  delivered : List (κ × Bytes)

/-- `data_transfer` ends with `e` and leaves the transport `after`. -/
def act (e : TransferEnd) (after : Transport κ δ) :
    (o : Op κ) → Exchange κ δ → o.Result κ δ × Exchange κ δ
  | .self, x => (x.transport, x)
  | .dataTransfer vendorId messageId data, x =>
    (e, { x with transport := after, transfers := x.transfers ++ [(vendorId, messageId, data)] })
  | .onFrame callback payload, x => ((), { x with delivered := x.delivered ++ [(callback, payload)] })

namespace Sending

variable {α γ : Type} {e : TransferEnd} {after : Transport κ δ} {x : Exchange κ δ}

lemma exec_self (f : Transport κ δ → Sending κ δ γ) :
    (self >>= f).run.exec (act e after) x = (f x.transport).run.exec (act e after) x := rfl

lemma exec_raising_ok (a : α) (f : α → Sending κ δ γ) :
    (raising (.ok a) >>= f).run.exec (act e after) x = (f a).run.exec (act e after) x := rfl

lemma exec_dataTransfer (vendorId messageId data : String) (f : TransferEnd → Sending κ δ γ) :
    (dataTransfer vendorId messageId data >>= f).run.exec (act e after) x =
      (f e).run.exec (act e after)
        ⟨after, x.transfers ++ [(vendorId, messageId, data)], x.delivered⟩ := rfl

end Sending

/-- A call of `async_send` on the transport. -/
def Transport.send (t : Transport κ δ) (frame : Bytes) (e : TransferEnd) (after : Transport κ δ) :
    Except Exc Unit × Exchange κ δ :=
  (asyncSend frame).run.exec (act e after) ⟨t, [], []⟩

/-! ### The outcomes -/

/-- The answer is accepted and its text is hex of the register frame `payload`. -/
def Carries (e : TransferEnd) (payload : Bytes) : Prop :=
  ∃ s, e = .returned accepted (.text s) ∧ s ≠ "" ∧ Hex.Renders payload (cleaned s) ∧
    isReply payload = true

/-- The answer is accepted and has no data. -/
def WithoutData (e : TransferEnd) : Prop :=
  ∃ data, e = .returned accepted data ∧ data.isEmpty = true

lemma reply_eq_ok_some_iff {register : UInt8} {e : TransferEnd} {payload : Bytes} :
    reply register e = .ok (some payload) ↔ Carries e payload := by
  rw [reply_eq_ok_iff]
  constructor
  · intro h
    cases h with
    | text hs hp hr => exact ⟨_, rfl, hs, parseReply_eq_ok_iff.1 hp, hr⟩
  · rintro ⟨s, rfl, hs, hp, hr⟩
    exact .text hs (parseReply_eq_ok_iff.2 hp) hr

lemma reply_eq_ok_none_iff {register : UInt8} {e : TransferEnd} :
    reply register e = .ok none ↔ WithoutData e := by
  rw [reply_eq_ok_iff]
  constructor
  · intro h
    cases h with
    | empty h => exact ⟨_, rfl, h⟩
  · rintro ⟨data, rfl, h⟩
    exact .empty h

section

variable {t after : Transport κ δ} {frame : Bytes} {e : TransferEnd}

/-- A connected transport asks for every frame outside the bulk registers. -/
lemma request_eq_ok (ht : t.isConnected = true) (hf : isReply frame = true)
    (hbulk : ∀ register, frame[2]? = some register → register ∉ bulkRegisters) :
    t.request frame = .ok (String.ofList (Hex.text .lower frame)) := by
  have hlen := (isReply_iff.1 hf).1
  obtain ⟨register, hr⟩ := exists_byteAt (show 2 < frame.length by omega)
  have hsome : t.onFrame.isNone = false := by
    rw [← Option.not_isSome]
    simpa [Transport.isConnected] using ht
  simp [Transport.request, hsome, hf, hr, hbulk register (byteAt_eq_ok.1 hr)]

/-- What a call comes to once its `data_transfer` has ended. -/
lemma send_eq {data : String} (h : t.request frame = .ok data) :
    t.send frame e after = match reply (frame.getD 2 0) e with
      | .error err => (.error err, ⟨after, [(vendorId, messageId, data)], []⟩)
      | .ok payload => (.ok (), ⟨after, [(vendorId, messageId, data)],
          (payload.bind fun p => after.onFrame.map fun callback => (callback, p)).toList⟩) := by
  rw [Transport.send, asyncSend, Sending.exec_self, h, Sending.exec_raising_ok,
    Sending.exec_dataTransfer]
  cases reply (frame.getD 2 0) e with
  | error err => rfl
  | ok payload =>
    rw [Sending.exec_raising_ok]
    cases payload with
    | none => rfl
    | some payload =>
      rw [Sending.exec_self]
      change Prog.exec _ (ExceptT.run (match after.onFrame with | some _ => _ | none => _)) _ = _
      cases after.onFrame <;> rfl

end

/-- A reply's text is parsed as the bytes that it renders once its underscores and whitespace are
deleted, and is a protocol error if it renders none. A frame that is sent while connected is one
`DataTransfer`. The payload that the answer carries goes to the callback of the moment if there is
one, an answer without data is passed over, and every other answer raises. -/
theorem replies_exact :
    (∀ data : String,
      (∀ payload, parseReply data = .ok payload ↔ Hex.Renders payload (cleaned data)) ∧
      ((∀ payload, ¬ Hex.Renders payload (cleaned data)) →
        ∃ m, parseReply data = .error (.spinEv .protocol m))) ∧
    (∀ (payload : Bytes) (text data : List Char), Hex.Renders payload text →
      Hex.Spread Separator text data → parseReply (String.ofList data) = .ok payload) ∧
    ∀ (κ δ : Type) (t after : Transport κ δ) (frame : Bytes) (e : TransferEnd),
      t.isConnected = true → isReply frame = true →
      (∀ register, frame[2]? = some register → register ∉ bulkRegisters) →
      e ≠ .raised .cancelledError →
      ∃ result exchange, t.send frame e after = (result, exchange) ∧
        exchange.transfers = [(vendorId, messageId, String.ofList (Hex.text .lower frame))] ∧
        (∀ callback payload, result = .ok () ∧ exchange.delivered = [(callback, payload)] ↔
          Carries e payload ∧ after.onFrame = some callback) ∧
        (result = .ok () ∧ exchange.delivered = [] ↔
          WithoutData e ∨ (∃ payload, Carries e payload) ∧ after.onFrame = none) ∧
        ((∃ err, result = .error err ∧ err.isSpinEvError = true) ∧ exchange.delivered = [] ↔
          ¬ WithoutData e ∧ ∀ payload, ¬ Carries e payload) := by
  refine ⟨fun data => ⟨fun payload => parseReply_eq_ok_iff, exists_parseReply_error⟩,
    fun payload text data h hd => ?_, fun κ δ t after frame e ht hf hbulk he => ?_⟩
  · rw [parseReply_eq_ok_iff, cleaned_of_spread h hd]
    exact h
  · have hsend : t.send frame e after = _ := send_eq (request_eq_ok ht hf hbulk)
    have hcarries : ∀ payload, Carries e payload ↔ reply (frame.getD 2 0) e = .ok (some payload) :=
      fun payload => reply_eq_ok_some_iff.symm
    have hwithout : WithoutData e ↔ reply (frame.getD 2 0) e = .ok none :=
      reply_eq_ok_none_iff.symm
    have herror := fun err => @isSpinEvError_of_reply (frame.getD 2 0) e err he
    simp only [hsend, hcarries, hwithout]
    cases hr : reply (frame.getD 2 0) e with
    | error err => exact ⟨_, _, rfl, rfl, by simp, by simp, by simpa using herror err hr⟩
    | ok payload =>
      cases payload with
      | none => exact ⟨_, _, rfl, rfl, by simp, by simp, by simp⟩
      | some payload =>
        cases after.onFrame with
        | none => exact ⟨_, _, rfl, rfl, by simp, by simp, by simp⟩
        | some callback => exact ⟨_, _, rfl, rfl, by simp [and_comm], by simp, by simp⟩

/-- The answer to a read of the power, spread with spaces and a line break. The callback was
replaced while the request was in flight. -/
theorem replies_exact_power :
    ∃ exchange, (⟨some 7, some ()⟩ : Transport ℕ Unit).send [0x10, 0xAC, 0x84, 0, 0, 0, 0, 0]
        (.returned accepted (.text " 10_AC_84_00 45_71_3d_71\n")) ⟨some 8, none⟩ =
          (.ok (), exchange) ∧
      exchange.transfers = [("CPV07", "CC_CONFIG", "10ac840000000000")] ∧
      exchange.delivered = [(8, [0x10, 0xAC, 0x84, 0, 0x45, 0x71, 0x3D, 0x71])] := by
  have hcarries : Carries (.returned accepted (.text " 10_AC_84_00 45_71_3d_71\n"))
      [0x10, 0xAC, 0x84, 0, 0x45, 0x71, 0x3D, 0x71] :=
    ⟨_, rfl, by decide, parseReply_eq_ok_iff.1 (by decide), by decide⟩
  have hbulk : (0x84 : UInt8) ∉ bulkRegisters := by decide
  obtain ⟨result, exchange, hsend, htransfers, hdelivered, -⟩ := replies_exact.2.2 ℕ Unit
    ⟨some 7, some ()⟩ ⟨some 8, none⟩ [0x10, 0xAC, 0x84, 0, 0, 0, 0, 0]
    (.returned accepted (.text " 10_AC_84_00 45_71_3d_71\n")) rfl (by decide) (by simp [hbulk])
    (by decide)
  obtain ⟨rfl, hd⟩ := (hdelivered 8 _).2 ⟨hcarries, rfl⟩
  exact ⟨exchange, hsend, htransfers.trans (by decide), hd⟩

end SpinevBle.Ocpp
