import SpinevBle.Lib.Hex
import SpinevBle.Protocol.Text

/-!
# The OCPP tunnel

The code of `OcppTunnelTransport`, over callbacks of any type. `async_send` is cut where it awaits
`data_transfer`, which is code of the caller: `request` is what comes before, `reply` what comes
after.
-/

namespace SpinevBle.Ocpp

/-! ### What `data_transfer` does -/

/-- The `data` of a reply: none, text or an object of another type, which may count as false. -/
inductive Data
  | none
  | text (s : String)
  | other (typeName : String) (truthy : Bool)
  deriving DecidableEq

/-- `not data`. -/
def Data.isEmpty : Data → Bool
  | none => true
  | text s => s = ""
  | other _ truthy => !truthy

/-- How a call of `data_transfer` ends. -/
inductive TransferEnd
  | returned (status : String) (data : Data)
  | raised (err : Exc)
  deriving DecidableEq

/-- `DataTransfer` reply status for a request the charger acted on. -/
def accepted : String := "Accepted"

/-- Turn a reply's `data` into the payload Bluetooth would have carried. -/
def parseReply (data : String) : Except Exc Bytes :=
  match Hex.read (data.toList.filter fun c => c ≠ '_' && !isSpace c) with
  | some payload => .ok payload
  | none =>
    .error (.spinEv .protocol s!"DataTransfer reply of {data.length} characters is not hex")

/-! ### The transport -/

/-- Likely cause of a request getting no reply over the tunnel. -/
def timeoutHint : String :=
  "The charger's OCPP connection may be down, or its OCPP stack may have " ++
  "stopped answering."

structure Transport (κ δ : Type*) where
  onFrame : Option κ
  onDisconnect : Option δ

namespace Transport

variable {κ δ : Type*}

def init : Transport κ δ := ⟨none, none⟩

def isConnected (t : Transport κ δ) : Bool := t.onFrame.isSome

def asyncConnect (t : Transport κ δ) (onFrame : κ) (onDisconnect : δ) : Transport κ δ :=
  { t with onFrame := some onFrame, onDisconnect := some onDisconnect }

def asyncDisconnect (t : Transport κ δ) : Transport κ δ :=
  { t with onFrame := none, onDisconnect := none }

/-- `notify_disconnected`, with the callback that it calls. -/
def notifyDisconnected (t : Transport κ δ) : Transport κ δ × Option δ :=
  ({ t with onFrame := none, onDisconnect := none }, t.onDisconnect)

/-- `async_send` up to its call of `data_transfer`, with the text that this is called with. -/
def request (t : Transport κ δ) (frame : Bytes) : Except Exc String := do
  if t.onFrame.isNone then throw (.spinEv .connection "not connected")
  if ¬ isReply frame then
    throw (.spinEv .value s!"{frame.length} bytes are not a register frame")
  let register ← byteAt frame 2
  if register ∈ bulkRegisters then
    throw (.spinEv .unsupported <|
      s!"register {hex register} streams records, which the OCPP " ++
      "tunnel cannot carry")
  return String.ofList (Hex.text .lower frame)

end Transport

/-- The `except` clauses around `data_transfer`. -/
def translate : Exc → Exc
  | .builtin .timeoutError _ => .spinEv .timeout "no DataTransfer reply from the charger"
  | .builtin _ message => .spinEv .connection s!"DataTransfer failed: {message}"
  | err => err

/-- `async_send` once `data_transfer` has ended, with the payload that it has for `on_frame`. -/
def reply (register : UInt8) : TransferEnd → Except Exc (Option Bytes)
  | .raised err => .error (translate err)
  | .returned status data => do
    if status ≠ accepted then
      throw (.spinEv .protocol s!"charger answered the DataTransfer with {status}")
    if data.isEmpty then return none
    match data with
    | .text s =>
      let payload ← parseReply s
      if ¬ isReply payload then
        throw (.spinEv .protocol <|
          s!"charger answered register {hex register} with {payload.length} " ++
          "bytes that are not a register frame. The register may not exist " ++
          "on this firmware.")
      return some payload
    | .other typeName _ =>
      throw (.spinEv .protocol s!"DataTransfer reply data is {typeName}, expected text")
    | .none => return none

/-! ### Answers that are accepted -/

/-- The answers that `async_send` does not raise over, with the payload that it has for
`on_frame`. -/
inductive Accepts : TransferEnd → Option Bytes → Prop
  | empty {data} (h : data.isEmpty = true) : Accepts (.returned accepted data) none
  | text {s payload} (hs : s ≠ "") (hp : parseReply s = .ok payload)
      (hr : isReply payload = true) : Accepts (.returned accepted (.text s)) (some payload)

lemma reply_eq_ok_iff {register : UInt8} {e : TransferEnd} {r : Option Bytes} :
    reply register e = .ok r ↔ Accepts e r := by
  constructor
  · intro h
    cases e with
    | raised err => cases h
    | returned status data =>
      simp only [reply, throw_eq_error, bind_error, pure_eq_ok] at h
      split_ifs at h with hstatus hdata
      · obtain rfl := not_not.1 hstatus
        cases h
        exact .empty hdata
      · obtain rfl := not_not.1 hstatus
        cases data with
        | none => exact absurd rfl hdata
        | other typeName truthy => cases h
        | text s =>
          rw [bind_eq_ok] at h
          obtain ⟨payload, hp, h⟩ := h
          split_ifs at h with hr
          cases h
          exact .text (by simpa [Data.isEmpty] using hdata) hp (by simpa using hr)
  · intro h
    cases h with
    | empty h => simp [reply, h]
    | text hs hp hr => simp [reply, Data.isEmpty, hs, hp, hr]

/-- A reply without data is none. -/
lemma reply_isEmpty (register : UInt8) {data : Data} (h : data.isEmpty = true) :
    reply register (.returned accepted data) = .ok none :=
  reply_eq_ok_iff.2 (.empty h)

/-! ### Replies that are register frames -/

/-- A payload as the charger writes it: hex bytes joined by underscores. -/
def underscored (case : Hex.Case) (payload : Bytes) : String :=
  String.ofList (Hex.joined '_' case payload)

lemma parseReply_underscored (case : Hex.Case) (payload : Bytes) :
    parseReply (underscored case payload) = .ok payload := by
  have hdigit : ∀ case n, n < 16 →
      (Hex.digit case n ≠ '_' && !isSpace (Hex.digit case n)) = true := by
    intro case n hn
    cases case <;> interval_cases n <;> decide
  unfold parseReply underscored
  rw [String.toList_ofList, Hex.filter_joined (by decide) hdigit, Hex.read_text]

lemma underscored_ne_empty (case : Hex.Case) {payload : Bytes} (h : payload ≠ []) :
    underscored case payload ≠ "" := by
  intro he
  have := parseReply_underscored case payload
  rw [he] at this
  exact h (Except.ok.inj this).symm

/-- A register frame gets through, in either case. -/
lemma reply_underscored (register : UInt8) (case : Hex.Case) {payload : Bytes}
    (h : isReply payload = true) :
    reply register (.returned accepted (.text (underscored case payload))) = .ok (some payload) := by
  have hne : payload ≠ [] := by
    rintro rfl
    cases h
  exact reply_eq_ok_iff.2 (.text (underscored_ne_empty case hne) (parseReply_underscored case payload) h)

/-- Any other payload raises, unless it is empty. -/
lemma reply_unframed (register : UInt8) (case : Hex.Case) {payload : Bytes}
    (h : isReply payload = false) (hne : payload ≠ []) :
    ∃ m, reply register (.returned accepted (.text (underscored case payload))) =
      .error (.spinEv .protocol m) := by
  have hempty : (Data.text (underscored case payload)).isEmpty = false := by
    simpa [Data.isEmpty] using underscored_ne_empty case hne
  simp only [reply, ne_eq, not_true_eq_false, if_false, hempty, parseReply_underscored, bind_ok, h,
    Bool.false_eq_true, not_false_eq_true, if_true]
  exact ⟨_, rfl⟩

/-- What is handed on is the payload that the charger has written. -/
lemma eq_of_reply_underscored {register : UInt8} {case : Hex.Case} {payload payload' : Bytes}
    (h : reply register (.returned accepted (.text (underscored case payload))) =
      .ok (some payload')) : payload = payload' := by
  cases reply_eq_ok_iff.1 h with
  | text _ hp => exact Except.ok.inj ((parseReply_underscored case payload).symm.trans hp)

lemma parseReply_error {data : String} {err : Exc} (h : parseReply data = .error err) :
    ∃ m, err = .spinEv .protocol m := by
  unfold parseReply at h
  split at h <;> cases h
  exact ⟨_, rfl⟩

/-- Whatever is wrong with an answer, the error is one of the package, unless the call was
cancelled. -/
lemma isSpinEvError_of_reply {register : UInt8} {e : TransferEnd} {err : Exc}
    (he : e ≠ .raised .cancelledError) (h : reply register e = .error err) :
    err.isSpinEvError = true := by
  cases e with
  | raised err' =>
    cases h
    cases err' with
    | cancelledError => exact absurd rfl he
    | spinEv cls m => rfl
    | builtin cls m => cases cls <;> rfl
  | returned status data =>
    simp only [reply, throw_eq_error, bind_error, pure_eq_ok] at h
    split_ifs at h
    · cases h
      rfl
    · cases data with
      | none => cases h
      | other typeName truthy =>
        cases h
        rfl
      | text s =>
        cases hp : parseReply s with
        | ok payload =>
          simp only [hp, bind_ok] at h
          split_ifs at h
          cases h
          rfl
        | error x =>
          simp only [hp, bind_error] at h
          cases h
          obtain ⟨m, rfl⟩ := parseReply_error hp
          rfl

/-- `CancelledError` passes every handler, and nothing else becomes one. -/
lemma raised_of_reply {register : UInt8} {e : TransferEnd}
    (h : reply register e = .error .cancelledError) : e = .raised .cancelledError := by
  by_contra he
  cases isSpinEvError_of_reply he h

/-- What `async_send` raises before it calls `data_transfer` is no `CancelledError`. -/
lemma request_ne_cancelledError {κ δ : Type*} (t : Transport κ δ) (frame : Bytes) :
    t.request frame ≠ .error .cancelledError := by
  intro h
  unfold Transport.request at h
  simp only [throw_eq_error, bind_error, pure_eq_ok] at h
  split_ifs at h
  · cases h
  · cases hb : byteAt frame 2 with
    | ok register =>
      rw [hb, bind_ok] at h
      split_ifs at h
      cases h
    | error x =>
      rw [hb, bind_error] at h
      cases h
      unfold byteAt at hb
      split at hb <;> cases hb
  · cases h

end SpinevBle.Ocpp
