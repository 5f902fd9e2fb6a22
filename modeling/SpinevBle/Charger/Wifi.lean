import SpinevBle.Charger.Commit
import SpinevBle.Charger.Traces
import SpinevBle.Protocol.Chunks

/-!
# The checks of the WiFi settings

The length and the quotes of both fields are checked by the setter, with the error that it
documents, and the characters only when the frames are built, with another one. So exactly the
fields with other characters and nothing else wrong are refused in a different way than documented.
-/

namespace SpinevBle

open Asyncio Interaction Transition

variable {β : Type} {ssid password : String}

/-! ### The rules -/

/-- What the documentation asks of a field. -/
structure ValidWifiField (value : String) : Prop where
  ascii : IsAscii value.toList
  short : value.length ≤ maxWifiFieldLen
  unquoted : '"' ∉ value.toList

/-- A field is too long or has a quote in it. -/
def Unchecked (value : String) : Prop := maxWifiFieldLen < value.length ∨ '"' ∈ value.toList

instance (value : String) : Decidable (Unchecked value) :=
  inferInstanceAs (Decidable (_ ∨ _))

lemma validWifiField_iff {value : String} :
    ValidWifiField value ↔ IsAscii value.toList ∧ ¬ Unchecked value := by
  rw [Unchecked, not_or, not_lt]
  exact ⟨fun h => ⟨h.ascii, h.short, h.unquoted⟩, fun h => ⟨h.1, h.2.1, h.2.2⟩⟩

/-- The pieces of the SSID, then those of the password. -/
def wifiPieces (ssid password : String) : List Frame :=
  (List.range 8).map (piece Register.wifiSsid.value ssid 32) ++
    (List.range 8).map (piece Register.wifiPassword.value password 32)

lemma checkWifiField_of_unchecked {value : String} (h : Unchecked value) (name : String) :
    ∃ m, checkWifiField name value = .error (.spinEv .value m) := by
  unfold checkWifiField
  split_ifs with hlong hquote
  · exact ⟨_, rfl⟩
  · exact ⟨_, rfl⟩
  · exact absurd h (not_or.2 ⟨hlong, hquote⟩)

lemma checkWifiField_of_checked {value : String} (h : ¬ Unchecked value) (name : String) :
    checkWifiField name value = .ok () := by
  rw [Unchecked, not_or] at h
  rw [checkWifiField, if_neg h.1, if_neg h.2]

/-- A field that is neither too long nor quoted is written if it is ASCII, and refused otherwise. -/
lemma buildStringWrite_wifi {value : String} (h : ¬ Unchecked value) (register : Register) :
    (IsAscii value.toList → buildStringWrite register value wifiFieldBytes =
      .ok ((List.range 8).map (piece register.value value 32))) ∧
    (¬ IsAscii value.toList → ∃ m, buildStringWrite register value wifiFieldBytes =
      .error (.spinEv .protocol m)) := by
  rw [Unchecked, not_or, not_lt] at h
  have hshort : (value.length : ℤ) ≤ wifiFieldBytes := Int.ofNat_le.2 h.1
  constructor
  · intro ha
    have hfits : FitsField value wifiFieldBytes := ⟨by decide, by decide, ha, hshort⟩
    exact buildStringWriteOf_eq_ok hfits (by decide)
  · intro ha
    exact buildStringWriteOf_eq_error register.value fun hfits => ha hfits.ascii

/-! ### What the setter makes of its fields -/

/-- A field that is too long or quoted is refused before anything else is looked at. -/
lemma wifiFrames_of_unchecked (h : Unchecked ssid ∨ Unchecked password) :
    ∃ m, wifiFrames ssid password = .error (.spinEv .value m) := by
  unfold wifiFrames
  by_cases hs : Unchecked ssid
  · obtain ⟨m, hm⟩ := checkWifiField_of_unchecked hs "ssid"
    exact ⟨m, by rw [hm, bind_error]⟩
  · obtain ⟨m, hm⟩ := checkWifiField_of_unchecked (h.resolve_left hs) "password"
    exact ⟨m, by rw [checkWifiField_of_checked hs, bind_ok, hm, bind_error]⟩

section

variable (hs : ¬ Unchecked ssid) (hp : ¬ Unchecked password)

include hs hp

lemma wifiFrames_of_ascii (has : IsAscii ssid.toList) (hap : IsAscii password.toList) :
    wifiFrames ssid password = .ok (wifiPieces ssid password) := by
  unfold wifiFrames
  rw [checkWifiField_of_checked hs, checkWifiField_of_checked hp, bind_ok, bind_ok,
    (buildStringWrite_wifi hs _).1 has, bind_ok, (buildStringWrite_wifi hp _).1 hap, bind_ok]
  rfl

lemma wifiFrames_of_not_ascii (h : ¬ (IsAscii ssid.toList ∧ IsAscii password.toList)) :
    ∃ m, wifiFrames ssid password = .error (.spinEv .protocol m) := by
  unfold wifiFrames
  rw [checkWifiField_of_checked hs, checkWifiField_of_checked hp, bind_ok, bind_ok]
  by_cases has : IsAscii ssid.toList
  · obtain ⟨m, hm⟩ := (buildStringWrite_wifi hp .wifiPassword).2 fun hap => h ⟨has, hap⟩
    exact ⟨m, by rw [(buildStringWrite_wifi hs _).1 has, bind_ok, hm, bind_error]⟩
  · obtain ⟨m, hm⟩ := (buildStringWrite_wifi hs .wifiSsid).2 has
    exact ⟨m, by rw [hm, bind_error]⟩

end

/-! ### Setters as sequences -/

/-- The commit that follows a setting, if one is asked for. -/
def commitJobs (commit : Bool) : List Job :=
  if commit then (buildCommit.toOption.map fun frame => Job.writeFrames [frame]).toList else []

/-- A setter writes its frames and then commits them. -/
lemma sequence_writeSetting (frames : List Frame) (commit : Bool) (f : Unit → β) :
    Sequence (.writeFrames frames :: commitJobs commit) (f <$> writeSetting (.ok frames) commit).run := by
  refine .job (fun v => ?_) fun x => rfl
  cases commit with
  | false => exact .done
  | true => exact .job (fun v => .done) fun x => rfl

/-! ### Validation -/

/-- The frames write the padded value to the register, in eight pieces. -/
structure CarriesField (register : Register) (value : String) (frames : List Frame) : Prop where
  registers : ∀ f ∈ frames, f.register = register.value
  numbers : (frames.map fun f => f.flag.toNat) = List.range' 1 8
  carried : carriedText frames = asciiBytes value.toList ++ List.replicate (32 - value.length) 0

lemma carriesField_pieces {value : String} (h : value.length ≤ maxWifiFieldLen)
    (register : Register) :
    CarriesField register value ((List.range 8).map (piece register.value value 32)) where
  registers f hf := by
    obtain ⟨i, -, rfl⟩ := List.mem_map.1 hf
    rfl
  numbers := rfl
  carried := carriedText_pieces register.value (n := 8) h

/-- Call `c` writes the SSID, then the password, then a commit if one is asked for, and what else it
raises its jobs have raised. -/
def State.SendsWifi (s : State β) (c : ℕ) (ssid password : String) (commit : Bool)
    (p : Program (Except Exc β)) : Prop :=
  ∃ ssidFrames passwordFrames k,
    CarriesField .wifiSsid ssid ssidFrames ∧ CarriesField .wifiPassword password passwordFrames ∧
    p = .op (.locked (.writeFrames (ssidFrames ++ passwordFrames))) k ∧
    s.sentBy c <+: ssidFrames ++ passwordFrames ++ (commitJobs commit).flatMap Job.frames ∧
    (∀ a cn, s.calls c = some ⟨.finished (.ok a), cn⟩ →
      s.sentBy c = ssidFrames ++ passwordFrames ++ (commitJobs commit).flatMap Job.frames) ∧
    ∀ x cn, s.calls c = some ⟨.finished (.error x), cn⟩ →
      NotEntered x ∨ ∃ j, ⟨c, j, .error x⟩ ∈ s.blocks

/-- Call `c` sends nothing and raises `SpinEvValueError`, unless it is cancelled before it
begins. -/
def State.RefusesValue (s : State β) (es : List (Event β)) (c : ℕ) (p : Program (Except Exc β)) :
    Prop :=
  s.sentBy c = [] ∧ (∃ m, p = .pure (.error (.spinEv .value m))) ∧
    ∀ r cn, s.calls c = some ⟨.finished r, cn⟩ →
      (∃ m, r = .error (.spinEv .value m)) ∨ r = .error .cancelledError ∧ .cancel c ∈ es

/-- In every run, a call with these fields writes them if they keep to the rules, and refuses them
as documented otherwise. -/
def WifiAsDocumented (ssid password : String) : Prop :=
  ∀ (β : Type) (timeoutHint : Option String) (known : Option ℤ) (es : List (Event β)) (s : State β)
    (c n : ℕ) (commit : Bool) (f : Unit → β), ClientRun timeoutHint known Always es s →
    .spawn c (f <$> asyncSetWifi ssid password commit).run n ∈ es →
    (ValidWifiField ssid ∧ ValidWifiField password →
      s.SendsWifi c ssid password commit (f <$> asyncSetWifi ssid password commit).run) ∧
    (¬ (ValidWifiField ssid ∧ ValidWifiField password) →
      s.RefusesValue es c (f <$> asyncSetWifi ssid password commit).run)

lemma sendsWifi_of_run {timeoutHint : Option String} {known : Option ℤ} {es : List (Event β)}
    {s : State β} {c n : ℕ} {commit : Bool} {f : Unit → β} (hs : ValidWifiField ssid)
    (hp : ValidWifiField password) (h : ClientRun timeoutHint known Always es s)
    (hspawn : .spawn c (f <$> asyncSetWifi ssid password commit).run n ∈ es) :
    s.SendsWifi c ssid password commit (f <$> asyncSetWifi ssid password commit).run := by
  have hframes := wifiFrames_of_ascii (validWifiField_iff.1 hs).2 (validWifiField_iff.1 hp).2
    hs.ascii hp.ascii
  rw [asyncSetWifi, hframes] at hspawn ⊢
  obtain ⟨hpre, hall, hraised⟩ := (sequence_writeSetting _ commit f).of_run h hspawn
  exact ⟨_, _, _, carriesField_pieces hs.short _, carriesField_pieces hp.short _, rfl, hpre, hall,
    hraised⟩

lemma refusesValue_of_run {timeoutHint : Option String} {known : Option ℤ} {es : List (Event β)}
    {s : State β} {c n : ℕ} {commit : Bool} {f : Unit → β} (hu : Unchecked ssid ∨ Unchecked password)
    (h : ClientRun timeoutHint known Always es s)
    (hspawn : .spawn c (f <$> asyncSetWifi ssid password commit).run n ∈ es) :
    s.RefusesValue es c (f <$> asyncSetWifi ssid password commit).run := by
  obtain ⟨m, hm⟩ := wifiFrames_of_unchecked hu
  rw [asyncSetWifi, hm] at hspawn ⊢
  have hrun : (f <$> writeSetting (.error (.spinEv .value m)) commit).run =
      .pure (.error (.spinEv .value m)) := rfl
  rw [hrun] at hspawn ⊢
  obtain ⟨hsent, hend⟩ := idle_of_run h hspawn
  exact ⟨hsent, ⟨m, rfl⟩, fun r cn hc => (hend r cn hc).imp_left fun hr => ⟨m, hr⟩⟩

/-- The fields are written and refused as documented if and only if both are ASCII or one of them is
too long or quoted. -/
theorem wifi_validation (ssid password : String) :
    WifiAsDocumented ssid password ↔
      IsAscii ssid.toList ∧ IsAscii password.toList ∨ Unchecked ssid ∨ Unchecked password := by
  constructor
  · intro h
    by_contra hne
    rw [not_or, not_or] at hne
    obtain ⟨hna, hs, hp⟩ := hne
    obtain ⟨m, hm⟩ := wifiFrames_of_not_ascii hs hp hna
    have hrun : ClientRun none none Always
        [.spawn 0 (id <$> asyncSetWifi ssid password true).run 0] _ := Run.of_exec rfl
    have hinvalid : ¬ (ValidWifiField ssid ∧ ValidWifiField password) := fun hv =>
      hna ⟨hv.1.ascii, hv.2.ascii⟩
    obtain ⟨-, ⟨m', hp'⟩, -⟩ := (h Unit _ _ _ _ 0 0 true id hrun (.head _)).2 hinvalid
    rw [asyncSetWifi, hm] at hp'
    cases hp'
  · intro h β timeoutHint known es s c n commit f hrun hspawn
    refine ⟨fun hv => sendsWifi_of_run hv.1 hv.2 hrun hspawn, fun hv => ?_⟩
    refine refusesValue_of_run ?_ hrun hspawn
    rcases h with ⟨has, hap⟩ | hu
    · by_contra hu
      rw [not_or] at hu
      exact hv ⟨validWifiField_iff.2 ⟨has, hu.1⟩, validWifiField_iff.2 ⟨hap, hu.2⟩⟩
    · exact hu

/-- An SSID with an accent, given to a client whose link is up. -/
def accentEvents : List (Event Unit) :=
  [.link true, .spawn 0 (id <$> asyncSetWifi "é" "b" true).run 0, .run 0, .run 0]

theorem accent_refused_otherwise :
    (∃ s cn, ClientRun none none Always accentEvents s ∧ s.connected = true ∧
      s.calls 0 = some ⟨.finished (.error (.spinEv .protocol "value must be ASCII")), cn⟩) ∧
    ¬ WifiAsDocumented "é" "b" := by
  have hrun : ClientRun none none Always accentEvents _ := Run.of_exec rfl
  refine ⟨⟨_, _, hrun, rfl, rfl⟩, fun h => ?_⟩
  have hinvalid : ¬ (ValidWifiField "é" ∧ ValidWifiField "b") := fun hv =>
    absurd hv.1.ascii (by decide)
  obtain ⟨-, -, hend⟩ := (h Unit _ _ _ _ 0 0 true id hrun (.tail _ (.head _))).2 hinvalid
  obtain ⟨m, hm⟩ | ⟨hm, -⟩ := hend _ _ rfl
  · cases hm
  · cases hm

end SpinevBle
