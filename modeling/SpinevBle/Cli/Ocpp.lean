import SpinevBle.Cli.Command
import SpinevBle.Lib.IpAddress
import SpinevBle.Link.Record

/-!
# The OCPP command

`spinev-ble ocpp` prints where the charger connects, or points it elsewhere: it reads the settings,
puts in what it was given, and writes the result if that is a change.
-/

namespace SpinevBle

open Interaction IpAddress

/-! ### The host -/

/-- Marks a host that the charger has to resolve. -/
def dnsPrefix : String := "dns:"

/-- The host the way the charger stores it: an IP as is, a name marked. -/
def chargerHost (host : String) : String :=
  let host := strip host.toList
  match ipAddress host with
  | some _ => .ofList host
  | none => if dnsPrefix.toList <+: host then .ofList host else dnsPrefix ++ .ofList host

/-- `host.removeprefix(DNS_PREFIX)`. -/
def removeDnsPrefix (host : String) : String :=
  if dnsPrefix.toList <+: host.toList then .ofList (host.toList.drop dnsPrefix.length) else host

/-- `text.strip("/")`. -/
def stripSlashes (text : String) : String :=
  .ofList ((text.toList.dropWhile (· = '/')).rdropWhile (· = '/'))

/-- The address that the charger connects to for OCPP. -/
def ocppUrl (config : OcppConfig) : String :=
  let host := removeDnsPrefix config.host
  let path := stripSlashes config.path
  let path := if path = "" then "" else "/" ++ path
  s!"ws://{host}:{config.port}{path}/{config.chargePointId}"

lemma toList_chargerHost (host : String) :
    (chargerHost host).toList =
      if (ipAddress (strip host.toList)).isSome ∨ dnsPrefix.toList <+: strip host.toList
      then strip host.toList else dnsPrefix.toList ++ strip host.toList := by
  simp only [chargerHost]
  cases ipAddress (strip host.toList) with
  | some n => simp
  | none =>
    simp only [Option.isSome_none, Bool.false_eq_true, false_or, apply_ite String.toList,
      String.toList_append, String.toList_ofList]

/-- What is marked is no IP address. -/
lemma ipAddress_marked {host : List Char} (h : dnsPrefix.toList <+: host) :
    ipAddress host = none := by
  obtain ⟨rest, rfl⟩ := h
  refine ipAddress_eq_none_iff.2 ⟨?_, ?_⟩
  · exact ipv4Address_eq_none (c := 'd') (by simp [dnsPrefix]) (by decide) rfl
  · exact ipv6Address_eq_none ['d', 'n', 's'] (c := 'n') (by decide) (by decide) (by decide) rfl

/-- A host is marked unless it is an IP address. -/
lemma marked_iff (host : String) :
    dnsPrefix.toList <+: (chargerHost host).toList ↔ ipAddress (strip host.toList) = none := by
  rw [toList_chargerHost]
  constructor
  · intro h
    split_ifs at h with hkept
    · exact ipAddress_marked h
    · exact Option.not_isSome_iff_eq_none.1 fun hip => hkept (.inl hip)
  · intro h
    split_ifs with hkept
    · refine hkept.resolve_left ?_
      rw [h]
      exact Bool.false_ne_true
    · exact List.prefix_append _ _

lemma stripped_chargerHost (host : String) : Stripped (chargerHost host).toList := by
  have hstrip := stripped_strip host.toList
  rw [toList_chargerHost]
  split_ifs
  · exact hstrip
  · refine ⟨?_, fun c hc => ?_⟩
    · rintro c ⟨⟩
      rfl
    · rw [List.getLast?_append, Option.mem_def, Option.or_eq_some_iff] at hc
      rcases hc with hc | ⟨-, hc⟩
      · exact hstrip.2 c hc
      · cases hc
        rfl

/-- The host that is stored is not changed any more. -/
lemma chargerHost_chargerHost (host : String) :
    chargerHost (chargerHost host) = chargerHost host := by
  rw [← String.toList_inj, toList_chargerHost, strip_eq_self_iff.2 (stripped_chargerHost host),
    if_pos]
  by_cases hip : ipAddress (strip host.toList) = none
  · exact .inr ((marked_iff host).2 hip)
  · left
    rw [toList_chargerHost, if_pos (.inl (Option.isSome_iff_ne_none.2 hip))]
    exact Option.isSome_iff_ne_none.2 hip

lemma readBack_chargerHost_iff {host : String} :
    readBack (chargerHost host) = chargerHost host ↔ ∀ c ∈ strip host.toList, c.toNat ≠ 0 := by
  rw [readBack_eq_self_iff, and_iff_left (stripped_chargerHost host), toList_chargerHost]
  split_ifs
  · exact Iff.rfl
  · rw [List.forall_mem_append]
    exact and_iff_right (by simp [dnsPrefix])

/-- The address shows the host as it was given, with or without its mark. -/
lemma removeDnsPrefix_chargerHost (host : String) :
    removeDnsPrefix (chargerHost host) = removeDnsPrefix (.ofList (strip host.toList)) := by
  by_cases hkept : (ipAddress (strip host.toList)).isSome ∨ dnsPrefix.toList <+: strip host.toList
  · rw [← String.ofList_toList (s := chargerHost host), toList_chargerHost, if_pos hkept]
  · have hplain : ¬ dnsPrefix.toList <+: strip host.toList := fun h => hkept (.inr h)
    have hmarked := toList_chargerHost host
    rw [if_neg hkept] at hmarked
    rw [removeDnsPrefix, removeDnsPrefix, hmarked, String.toList_ofList, if_neg hplain,
      if_pos (List.prefix_append _ _)]
    rfl

/-- A host is stored without whitespace around it and not changed any more. It is read back as it
was stored unless it has a NUL, and shown as it was given. It is marked unless it is an IP address;
without two colons, that is one of four octets. -/
theorem charger_host (host : String) :
    Stripped (chargerHost host).toList ∧ chargerHost (chargerHost host) = chargerHost host ∧
    (readBack (chargerHost host) = chargerHost host ↔ ∀ c ∈ strip host.toList, c.toNat ≠ 0) ∧
    removeDnsPrefix (chargerHost host) = removeDnsPrefix (.ofList (strip host.toList)) ∧
    (dnsPrefix.toList <+: (chargerHost host).toList ↔ ipAddress (strip host.toList) = none) ∧
    ((strip host.toList).count ':' < 2 → (dnsPrefix.toList <+: (chargerHost host).toList ↔
      ¬ ∃ octets : List ℕ, octets.length = 4 ∧ (∀ n ∈ octets, n < 256) ∧
        strip host.toList = dotted octets)) := by
  refine ⟨stripped_chargerHost host, chargerHost_chargerHost host, readBack_chargerHost_iff,
    removeDnsPrefix_chargerHost host, marked_iff host, fun hcolons => ?_⟩
  have h6 : ipv6Address (strip host.toList) = none := by
    rw [Option.eq_none_iff_forall_ne_some]
    intro n h
    have := two_colons_of_ipv6Address h
    omega
  rw [marked_iff, ipAddress_eq_none_iff, and_iff_left h6, Option.eq_none_iff_forall_ne_some,
    not_exists]
  constructor
  · rintro h octets ⟨hlen, hlt, htext⟩
    exact h _ (ipv4Address_eq_some_iff.2 ⟨octets, hlen, hlt, htext, rfl⟩)
  · intro h n hn
    obtain ⟨octets, hlen, hlt, htext, -⟩ := ipv4Address_eq_some_iff.1 hn
    exact h octets ⟨hlen, hlt, htext⟩

example : ["192.0.2.10", "2001:db8::1", "01.2.3.4", "dns:a"].map chargerHost =
    ["192.0.2.10", "2001:db8::1", "dns:01.2.3.4", "dns:a"] := by decide +kernel

/-! ### The command -/

def defaultOcppPath : String := "ocpp"

/-- The arguments of the command. -/
structure OcppArgs where
  host : Option String
  port : Option ℤ
  path : Option String
  chargePointId : Option String

def orNotSet (text : String) : String := if text = "" then "not set" else text

def printOcpp (config : OcppConfig) : Cli Unit := do
  .print s!"host             {orNotSet config.host}"
  .print s!"port             {config.port}"
  .print s!"path             {orNotSet config.path}"
  .print s!"charge point id  {orNotSet config.chargePointId}"
  if config.host ≠ "" then
    .print s!"url              {ocppUrl config}"

/-- The settings to write: what was asked for, the rest as they are. -/
def wantedOcpp (current : OcppConfig) (host : String) (args : OcppArgs) : Except Exit OcppConfig :=
  let given := args.chargePointId.getD ""
  let chargePointId := if given = "" then current.chargePointId else given
  if chargePointId = "" then
    throw (.systemExit
      "the charger has no charge point id, pass one with --charge-point-id")
  else
    return { host := chargerHost host
             port := args.port.getD current.port
             path := args.path.getD (if current.path = "" then defaultOcppPath else current.path)
             chargePointId }

/-- What the command does while it is connected. Where it writes settings, it returns them. -/
def pointCharger (args : OcppArgs) : Cli (Option OcppConfig) := do
  let current ← .ask .getOcppConfig
  match args.host with
  | none =>
    printOcpp current
    return none
  | some host =>
    let wanted ← .orExit (wantedOcpp current host args)
    if wanted = current then
      .print "the charger already connects there, nothing to change"
      return none
    .print "current settings, note them to put them back later:"
    printOcpp current
    .ask (.set (.ocppConfig wanted) true)
    return some wanted

def cmdOcpp (args : OcppArgs) : Cli Unit := do
  match ← .withCharger (pointCharger args) with
  | none => return
  | some wanted =>
    .print "\nnew settings written, the charger restarts to apply them:"
    printOcpp wanted

/-! ### What the command changes -/

/-- What a configuration is read back as. -/
def OcppConfig.asRead (config : OcppConfig) : OcppConfig :=
  ⟨readBack config.host, config.port, readBack config.path, readBack config.chargePointId⟩

/-- The configuration that the command writes to a charger with this one, if it writes one. -/
def OcppArgs.change (args : OcppArgs) (current : OcppConfig) : Option OcppConfig :=
  match args.host with
  | none => none
  | some host =>
    match wantedOcpp current host args with
    | .error _ => none
    | .ok wanted =>
      if wanted = current ∨ (ocppFrames wanted).isOk = false then none else some wanted

/-- The settings that the command leaves behind. -/
def OcppArgs.leaves (args : OcppArgs) (settings : SettingsRecord) : SettingsRecord :=
  match args.change settings.ocppConfig with
  | some config => settings.put (.ocppConfig config)
  | none => settings

/-- The configuration that a call has written. -/
def Entry.written : Entry → Option OcppConfig
  | ⟨.set (.ocppConfig config) _, .ok _⟩ => some config
  | _ => none

/-! ### Runs over a charger -/

section

variable {σ : Type} {charger : Firmware σ} {stored : σ → Register → UInt8 → Word} {w : World σ}
  (hint : Option String)

open Cli

lemma calls_cmdOcpp (args : OcppArgs) :
    Calls (fun call => ∀ count, call ≠ .method (.getHistory count)) (cmdOcpp args) := by
  have hprint : ∀ config,
      Calls (fun call => ∀ count, call ≠ .method (.getHistory count)) (printOcpp config) := by
    intro config
    refine (Calls.print _).bind fun _ => (Calls.print _).bind fun _ => (Calls.print _).bind
      fun _ => (Calls.print _).bind fun _ => ?_
    split_ifs
    · exact .print _
    · exact .pure _
  have hpoint : Calls (fun call => ∀ count, call ≠ .method (.getHistory count))
      (pointCharger args) := by
    refine (Calls.ask (by rintro _ ⟨⟩)).bind fun current => ?_
    cases args.host with
    | none => exact (hprint current).bind fun _ => .pure _
    | some host =>
      refine (Calls.orExit _).bind fun wanted => ?_
      split_ifs
      · exact (Calls.print _).bind fun _ => .pure _
      · exact (Calls.print _).bind fun _ => (hprint current).bind fun _ =>
          (Calls.ask (by rintro _ ⟨⟩)).bind fun _ => .pure _
  refine (hpoint.withCharger (by rintro _ ⟨⟩) (by rintro _ ⟨⟩)).bind fun written => ?_
  cases written with
  | none => exact .pure _
  | some wanted => exact (Calls.print _).bind fun _ => hprint wanted

lemma comesTo_printOcpp (peer : Peer σ) (config : OcppConfig) (e : Ending σ) :
    ComesTo peer hint (printOcpp config) e (.ok ()) e := by
  have hline : ∀ line, ComesTo peer hint (print line) e (.ok ()) e := fun line =>
    (Leads.print line).comesTo
  refine (hline _).bind ((hline _).bind ((hline _).bind ((hline _).bind ?_)))
  split_ifs
  · exact hline _
  · exact (Leads.pure ()).comesTo

lemma comesTo_askConfig (log : List Entry) (h : charger.KeepsSettings stored)
    (hw : w.connected = true) :
    ∃ w', ComesTo charger.peer hint (ask .getOcppConfig) (log, w)
      (.ok (w.panel stored).settings.ocppConfig)
      (log ++ [⟨.getOcppConfig, .ok (w.panel stored).settings.ocppConfig⟩], w') ∧
      w'.panel stored = w.panel stored := by
  obtain ⟨w', hgives⟩ := gives_view hint h hw (m := .getOcppConfig) rfl
  refine ⟨w', (Leads.ask hgives).comesTo, ?_⟩
  have hpanel := panel_of_other hint h (m := .getOcppConfig) (by rintro _ _ ⟨⟩) w
  rwa [show (Method.getOcppConfig.program.run.exec (World.act charger.peer hint) w).2 = w' from
    congrArg Prod.snd hgives] at hpanel

lemma comesTo_setConfig (log : List Entry) (w : World σ) (h : charger.KeepsSettings stored)
    (config : OcppConfig) :
    ∃ r w', ComesTo charger.peer hint (ask (.set (.ocppConfig config) true)) (log, w)
      (r.mapError .raised) (log ++ [⟨.set (.ocppConfig config) true, r⟩], w') ∧
      (w.panel stored).Ends ((w.panel stored).write (.ocppConfig config)) r (w'.panel stored) := by
  have hrequest : (Setter.ocppConfig config).isRequest = false := rfl
  obtain ⟨r, w', hgives, hends⟩ := ends_setting hint h hrequest true w
  exact ⟨coarse r, w', (Leads.ask hgives).comesTo, hends⟩

/-- While it is connected, the command makes its change to the settings, and no other. -/
lemma comesTo_pointCharger (h : charger.KeepsSettings stored) (hw : w.connected = true)
    (args : OcppArgs) :
    ∃ r log w', ComesTo charger.peer hint (pointCharger args) ([], w) r (log, w') ∧
      (w'.panel stored).settings = args.leaves (w.panel stored).settings ∧
      log.filterMap Entry.written = (args.change (w.panel stored).settings.ocppConfig).toList := by
  obtain ⟨w₁, hread, hpanel⟩ := comesTo_askConfig hint [] h hw
  set current := (w.panel stored).settings.ocppConfig with hcurrent
  have hconn : (w₁.panel stored).connected = true := (congrArg Panel.connected hpanel).trans hw
  have hprint := comesTo_printOcpp hint charger.peer current ([⟨.getOcppConfig, .ok current⟩], w₁)
  -- Without a change, nothing is called any more.
  have hsame : ∀ r : Except Exit (Option OcppConfig), args.change current = none →
      ComesTo charger.peer hint (pointCharger args) ([], w) r
        ([⟨.getOcppConfig, .ok current⟩], w₁) →
      ∃ r log w', ComesTo charger.peer hint (pointCharger args) ([], w) r (log, w') ∧
        (w'.panel stored).settings = args.leaves (w.panel stored).settings ∧
        log.filterMap Entry.written = (args.change current).toList := by
    intro r hnone hcomes
    refine ⟨r, _, w₁, hcomes, ?_, ?_⟩
    · rw [OcppArgs.leaves, ← hcurrent, hnone, hpanel]
    · rw [hnone]
      rfl
  cases hhost : args.host with
  | none =>
    refine hsame (.ok none) ?_ (hread.bind ?_)
    · simp only [OcppArgs.change, hhost]
    · simp only [hhost]
      exact hprint.bind (Leads.pure none).comesTo
  | some host =>
    cases hwanted : wantedOcpp current host args with
    | error e =>
      refine hsame (.error e) ?_ (hread.bind ?_)
      · simp only [OcppArgs.change, hhost, hwanted]
      · simp only [hhost, hwanted]
        exact (Leads.orExit _).comesTo.bind_error
    | ok wanted =>
      by_cases heq : wanted = current
      · refine hsame (.ok none) ?_ (hread.bind ?_)
        · simp only [OcppArgs.change, hhost, hwanted, heq, true_or, if_true]
        · simp only [hhost, hwanted]
          refine (Leads.orExit _).comesTo.bind ?_
          rw [if_pos heq]
          exact (Leads.print _).comesTo.bind (Leads.pure none).comesTo
      · obtain ⟨r, w', hset, hends⟩ := comesTo_setConfig hint
          [⟨.getOcppConfig, .ok current⟩] w₁ h wanted
        have hcomes : ComesTo charger.peer hint (pointCharger args) ([], w)
            ((r.mapError .raised).map fun _ => some wanted)
            ([⟨.getOcppConfig, .ok current⟩, ⟨.set (.ocppConfig wanted) true, r⟩], w') := by
          refine hread.bind ?_
          simp only [hhost, hwanted]
          refine (Leads.orExit _).comesTo.bind ?_
          rw [if_neg heq]
          refine (Leads.print _).comesTo.bind (hprint.bind ?_)
          cases r with
          | ok _ => exact hset.bind (Leads.pure _).comesTo
          | error e => exact hset.bind_error
        refine ⟨_, _, w', hcomes, ?_⟩
        generalize w'.panel stored = left at hends
        cases hf : (Setter.ocppConfig wanted).frames with
        | error e =>
          have hf' : ocppFrames wanted = .error e := hf
          have hnone : args.change current = none := by
            simp [OcppArgs.change, hhost, hwanted, hf', Except.isOk, Except.toBool]
          rw [Panel.write_error hf] at hends
          cases hends
          refine ⟨?_, ?_⟩
          · rw [OcppArgs.leaves, ← hcurrent, hnone, hpanel]
          · rw [hnone]
            rfl
        | ok frames =>
          have hf' : ocppFrames wanted = .ok frames := hf
          have hsome : args.change current = some wanted := by
            simp [OcppArgs.change, hhost, hwanted, hf', heq, Except.isOk, Except.toBool]
          rw [Panel.write_ok hconn hf] at hends
          cases hends
          refine ⟨?_, ?_⟩
          · rw [OcppArgs.leaves, ← hcurrent, hsome, hpanel]
          · rw [hsome]
            rfl

/-- The command makes its change to the settings, and no other, and closes the link. -/
lemma comesTo_cmdOcpp (h : charger.KeepsSettings stored) (args : OcppArgs) (w : World σ) :
    ∃ r log w', ComesTo charger.peer hint (cmdOcpp args) ([], w) r (log, w') ∧
      w'.panel stored = ⟨args.leaves (w.panel stored).settings, false⟩ ∧
      log.filterMap Entry.written = (args.change (w.panel stored).settings.ocppConfig).toList := by
  obtain ⟨r, log, w', hcomes, hsettings, hwritten⟩ :=
    comesTo_pointCharger hint (w := { w with connected := true }) h rfl args
  have hclosed := hcomes.withCharger (w := w)
  have hpanel : World.panel stored { w' with connected := false } =
      ⟨args.leaves (w.panel stored).settings, false⟩ := congrArg (Panel.mk · false) hsettings
  rcases r with exit | written
  · exact ⟨_, log, _, hclosed.bind_error, hpanel, hwritten⟩
  · refine ⟨.ok (), log, _, hclosed.bind ?_, hpanel, hwritten⟩
    cases written with
    | none => exact (Leads.pure ()).comesTo
    | some wanted => exact (Leads.print _).comesTo.bind (comesTo_printOcpp hint _ wanted _)

end

/-! ### The command again -/

/-- What the command asks for is stored as it was given. -/
def OcppArgs.KeepsTexts (args : OcppArgs) : Prop :=
  (∀ host ∈ args.host, ∀ c ∈ strip host.toList, c.toNat ≠ 0) ∧
    (∀ path ∈ args.path, readBack path = path) ∧
    ∀ chargePointId ∈ args.chargePointId, readBack chargePointId = chargePointId

section

variable {args : OcppArgs} {host : String} {current wanted : OcppConfig}

lemma asRead_recordOf (v : Register → UInt8 → Word) :
    (recordOf v).ocppConfig.asRead = (recordOf v).ocppConfig := by
  simp only [recordOf, OcppConfig.asRead, readBack_decodeString]

lemma wantedOcpp_eq_ok_iff : wantedOcpp current host args = .ok wanted ↔
    wanted.host = chargerHost host ∧ wanted.port = args.port.getD current.port ∧
      wanted.path =
        args.path.getD (if current.path = "" then defaultOcppPath else current.path) ∧
      wanted.chargePointId = (if args.chargePointId.getD "" = "" then current.chargePointId
        else args.chargePointId.getD "") ∧
      wanted.chargePointId ≠ "" := by
  rw [wantedOcpp]
  constructor
  · intro h
    rw [ite_eq_iff] at h
    rcases h with ⟨-, h⟩ | ⟨hid, h⟩ <;> cases h
    exact ⟨rfl, rfl, rfl, rfl, hid⟩
  · rintro ⟨hhost, hport, hpath, hid, hne⟩
    rw [hid] at hne
    obtain ⟨host', port, path, chargePointId⟩ := wanted
    cases hhost
    cases hport
    cases hpath
    cases hid
    exact if_neg hne

lemma change_eq_some_iff : args.change current = some wanted ↔
    ∃ host, args.host = some host ∧ wantedOcpp current host args = .ok wanted ∧
      wanted ≠ current ∧ (ocppFrames wanted).isOk := by
  rw [OcppArgs.change]
  cases args.host with
  | none => simp
  | some host =>
    cases hwanted : wantedOcpp current host args with
    | error e => simp [hwanted]
    | ok config =>
      simp only [hwanted, Option.ite_none_left_eq_some, not_or, Bool.not_eq_false, Option.some_inj]
      constructor
      · rintro ⟨⟨hne, hok⟩, rfl⟩
        exact ⟨host, rfl, hwanted, hne, hok⟩
      · rintro ⟨_, rfl, h, hne, hok⟩
        cases hwanted.symm.trans h
        exact ⟨⟨hne, hok⟩, rfl⟩

/-- A path that is not given has been read, or it is the default. -/
lemma path_not_given (hcurrent : current.asRead = current)
    (h : wantedOcpp current host args = .ok wanted) (hnone : args.path = none) :
    wanted.path ≠ "" ∧ readBack wanted.path = wanted.path := by
  obtain ⟨-, -, hpath, -⟩ := wantedOcpp_eq_ok_iff.1 h
  rw [hnone, Option.getD_none] at hpath
  rw [hpath]
  split_ifs with hempty
  · exact ⟨by decide, by decide⟩
  · exact ⟨hempty, congrArg OcppConfig.path hcurrent⟩

lemma chargePointId_not_given (hcurrent : current.asRead = current)
    (h : wantedOcpp current host args = .ok wanted) (hnone : args.chargePointId.getD "" = "") :
    readBack wanted.chargePointId = wanted.chargePointId := by
  obtain ⟨-, -, -, hid, -⟩ := wantedOcpp_eq_ok_iff.1 h
  rw [if_pos hnone] at hid
  rw [hid]
  exact congrArg OcppConfig.chargePointId hcurrent

/-- Asked again, the command wants the same. -/
lemma wantedOcpp_asRead (hcurrent : current.asRead = current)
    (h : wantedOcpp current host args = .ok wanted) :
    wantedOcpp wanted.asRead host args = .ok wanted := by
  obtain ⟨hhost, hport, hpath, hid, hne⟩ := wantedOcpp_eq_ok_iff.1 h
  refine wantedOcpp_eq_ok_iff.2 ⟨hhost, ?_, ?_, ?_, hne⟩
  · rw [OcppConfig.asRead, hport]
    cases args.port <;> rfl
  · cases hgiven : args.path with
    | some path =>
      rw [hgiven] at hpath
      exact hpath
    | none =>
      obtain ⟨hempty, hread⟩ := path_not_given hcurrent h hgiven
      rw [Option.getD_none, OcppConfig.asRead, hread, if_neg hempty]
  · by_cases hgiven : args.chargePointId.getD "" = ""
    · rw [if_pos hgiven]
      exact (chargePointId_not_given hcurrent h hgiven).symm
    · rw [if_neg hgiven] at hid ⊢
      exact hid

lemma asRead_eq_self_iff (hcurrent : current.asRead = current) (hhost : args.host = some host)
    (h : wantedOcpp current host args = .ok wanted) :
    wanted.asRead = wanted ↔ args.KeepsTexts := by
  obtain ⟨hwhost, -, hpath, hid, -⟩ := wantedOcpp_eq_ok_iff.1 h
  have hread : wanted.asRead = wanted ↔ readBack wanted.host = wanted.host ∧
      readBack wanted.path = wanted.path ∧
      readBack wanted.chargePointId = wanted.chargePointId := by
    obtain ⟨_, _, _, _⟩ := wanted
    simp [OcppConfig.asRead]
  rw [hread, OcppArgs.KeepsTexts, hwhost, readBack_chargerHost_iff, hhost]
  refine and_congr (by simp) (and_congr ?_ ?_)
  · cases hgiven : args.path with
    | some path =>
      rw [hgiven, Option.getD_some] at hpath
      simp [hpath]
    | none => simp [(path_not_given hcurrent h hgiven).2]
  · cases hgiven : args.chargePointId with
    | none =>
      simp [chargePointId_not_given hcurrent h (by rw [hgiven]; rfl)]
    | some chargePointId =>
      rw [hgiven, Option.getD_some] at hid
      by_cases hempty : chargePointId = ""
      · have hstable := chargePointId_not_given hcurrent h (by rw [hgiven]; exact hempty)
        have hnil : readBack "" = "" := by decide
        simp [hstable, hempty, hnil]
      · rw [if_neg hempty] at hid
        simp [hid]

/-- The command writes its change once more if the charger does not keep it as it is. -/
lemma change_asRead (hcurrent : current.asRead = current) (h : args.change current = some wanted) :
    args.change wanted.asRead = none ↔ args.KeepsTexts := by
  obtain ⟨host, hhost, hwanted, -, hok⟩ := change_eq_some_iff.1 h
  rw [← asRead_eq_self_iff hcurrent hhost hwanted]
  simp only [OcppArgs.change, hhost, wantedOcpp_asRead hcurrent hwanted, hok]
  simp [eq_comm]

end

/-! ### Runs of the command -/

section

variable {σ : Type} {charger : Firmware σ} {stored : σ → Register → UInt8 → Word}

lemma plain_cmdOcpp (args : OcppArgs) : (cmdOcpp args).script.Plain := (calls_cmdOcpp args).script

lemma exists_finished_cmdOcpp (h : charger.KeepsSettings stored) (hint : Option String)
    (known : Option ℤ) (args : OcppArgs) (s : σ) :
    ∃ es t, LineRun charger.peer hint known (cmdOcpp args).script s es t ∧ t.session.Finished := by
  obtain ⟨es, t, hrun, hf⟩ := exists_finished h.echoes hint known (plain_cmdOcpp args) s
  obtain ⟨es', hline⟩ := line_of_joinedRun hrun
  exact ⟨es', t, hline, hf⟩

/-- What a finished run of the command has come to. -/
lemma finished_cmdOcpp (h : charger.KeepsSettings stored) {hint : Option String} {known : Option ℤ}
    {args : OcppArgs} {s : σ} {es : List LineEvent} {t : Line σ}
    (ht : LineRun charger.peer hint known (cmdOcpp args).script s es t)
    (hf : t.session.Finished) :
    t.client.connected = false ∧ recordOf (stored t.peer) = args.leaves (recordOf (stored s)) ∧
      t.session.log.filterMap Entry.written =
        (args.change (recordOf (stored s)).ocppConfig).toList := by
  obtain ⟨r, log, w', hcomes, hpanel, hwritten⟩ :=
    comesTo_cmdOcpp hint h args ⟨s, false, known⟩
  have hend := Cli.ending_of_script h.echoes (plain_cmdOcpp args) hcomes ht hf
  obtain ⟨rfl, hworld⟩ := Prod.mk.inj hend
  rw [← hworld] at hpanel
  exact ⟨congrArg Panel.connected hpanel, congrArg Panel.settings hpanel, hwritten⟩

/-- A command without a change leaves everything as it was. -/
lemma leaves_of_none {args : OcppArgs} {settings : SettingsRecord}
    (h : args.change settings.ocppConfig = none) : args.leaves settings = settings := by
  simp only [OcppArgs.leaves, h]

lemma ocppConfig_leaves {args : OcppArgs} {settings : SettingsRecord} {wanted : OcppConfig}
    (h : args.change settings.ocppConfig = some wanted) :
    args.leaves settings = { settings with ocppConfig := wanted.asRead } := by
  simp only [OcppArgs.leaves, h]
  rfl

end

/-- The command can come to its end over every charger that keeps its settings. Then it has closed
the link, and it has changed the configuration as it was asked to and no other setting. The same
command another time writes nothing, unless the charger could not keep what it was given. -/
theorem ocpp_command {σ : Type} {charger : Firmware σ} {stored : σ → Register → UInt8 → Word}
    (h : charger.KeepsSettings stored) (hint : Option String) (known : Option ℤ) (args : OcppArgs)
    (s : σ) :
    (∃ es t, LineRun charger.peer hint known (cmdOcpp args).script s es t ∧ t.session.Finished) ∧
    ∀ es t, LineRun charger.peer hint known (cmdOcpp args).script s es t → t.session.Finished →
      t.client.connected = false ∧ recordOf (stored t.peer) = args.leaves (recordOf (stored s)) ∧
      t.session.log.filterMap Entry.written =
        (args.change (recordOf (stored s)).ocppConfig).toList ∧
      ∀ known es' t', LineRun charger.peer hint known (cmdOcpp args).script t.peer es' t' →
        t'.session.Finished → (t'.session.log.filterMap Entry.written = [] ↔
          args.change (recordOf (stored s)).ocppConfig = none ∨ args.KeepsTexts) := by
  constructor
  · exact exists_finished_cmdOcpp h hint known args s
  · intro es t ht hf
    obtain ⟨hclosed, hleaves, hwritten⟩ := finished_cmdOcpp h ht hf
    refine ⟨hclosed, hleaves, hwritten, fun known es' t' ht' hf' => ?_⟩
    obtain ⟨-, -, hagain⟩ := finished_cmdOcpp h ht' hf'
    rw [hagain, hleaves, Option.toList_eq_nil_iff]
    cases hchange : args.change (recordOf (stored s)).ocppConfig with
    | none => simp [leaves_of_none hchange, hchange]
    | some wanted =>
      rw [ocppConfig_leaves hchange, change_asRead (asRead_recordOf _) hchange]
      simp

/-- Where a charger connects that its vendor has set up. -/
def vendorOcpp : OcppConfig := ⟨"dns:ocpp.example.com", 9000, "ocpp", "XY2123"⟩

/-- A charger that its vendor has set up. -/
def vendorCharger : (UInt8 → UInt8 → Word) × (UInt8 → Word) :=
  ((ocppFrames vendorOcpp).toOption.getD []).foldl (fun s frame => (keepingCharger s frame).1)
    (fun _ _ => .ofNat 0, fun _ => .ofNat 0)

/-- Only the host is given. -/
def homeArgs : OcppArgs := ⟨some " homeassistant.local ", none, none, none⟩

theorem ocpp_command_moved :
    ∃ es t, LineRun keepingCharger.peer none none (cmdOcpp homeArgs).script vendorCharger es t ∧
      t.session.Finished ∧ (recordOf (keptWords t.peer)).ocppConfig =
        ⟨"dns:homeassistant.local", 9000, "ocpp", "XY2123"⟩ := by
  obtain ⟨⟨es, t, ht, hf⟩, h⟩ := ocpp_command keepingCharger_keeps none none homeArgs vendorCharger
  obtain ⟨-, hleaves, -⟩ := h es t ht hf
  refine ⟨es, t, ht, hf, ?_⟩
  rw [hleaves]
  decide +kernel

/-! ### The way back -/

/-- The arguments that are noted to put a configuration back. -/
def OcppConfig.asArgs (config : OcppConfig) : OcppArgs :=
  ⟨some config.host, some config.port, some config.path, some config.chargePointId⟩

/-- The configuration can be given to the command. -/
def OcppConfig.CanBeGiven (config : OcppConfig) : Prop :=
  chargerHost config.host = config.host ∧ config.chargePointId ≠ "" ∧ (ocppFrames config).isOk

section

variable {config other wanted : OcppConfig}

lemma wantedOcpp_asArgs_iff : wantedOcpp other config.host config.asArgs = .ok wanted ↔
    wanted.host = chargerHost config.host ∧ wanted.port = config.port ∧
      wanted.path = config.path ∧
      wanted.chargePointId =
        (if config.chargePointId = "" then other.chargePointId else config.chargePointId) ∧
      wanted.chargePointId ≠ "" :=
  wantedOcpp_eq_ok_iff

/-- A configuration that can be given is the one that is wanted. -/
lemma wantedOcpp_asArgs (h : config.CanBeGiven) :
    wantedOcpp other config.host config.asArgs = .ok config := by
  obtain ⟨hhost, hid, -⟩ := h
  exact wantedOcpp_asArgs_iff.2 ⟨hhost.symm, rfl, rfl, (if_neg hid).symm, hid⟩

/-- If the configuration is read back from what was wanted, it can be given. -/
lemma canBeGiven_of_asRead (hconfig : config.asRead = config) (hother : other.asRead = other)
    (h : wantedOcpp other config.host config.asArgs = .ok wanted) (hok : (ocppFrames wanted).isOk)
    (hread : wanted.asRead = config) : config.CanBeGiven := by
  obtain ⟨hhost, hport, hpath, hid, hne⟩ := wantedOcpp_asArgs_iff.1 h
  have hkept : chargerHost config.host = config.host := by
    obtain ⟨hnul, hstripped⟩ := readBack_eq_self_iff.1 (congrArg OcppConfig.host hconfig)
    have hback : readBack wanted.host = config.host := congrArg OcppConfig.host hread
    rw [hhost] at hback
    rw [← hback]
    rw [readBack_chargerHost_iff.2, chargerHost_chargerHost]
    rwa [strip_eq_self_iff.2 hstripped]
  have hgiven : config.chargePointId ≠ "" := by
    intro hempty
    rw [if_pos hempty] at hid
    have hback : readBack wanted.chargePointId = config.chargePointId :=
      congrArg OcppConfig.chargePointId hread
    have hkept : readBack other.chargePointId = other.chargePointId :=
      congrArg OcppConfig.chargePointId hother
    exact hne (by rw [hid, ← hkept, ← hid, hback, hempty])
  refine ⟨hkept, hgiven, ?_⟩
  have heq : wanted = config := by
    rw [if_neg hgiven] at hid
    obtain ⟨_, _, _, _⟩ := wanted
    cases hhost.trans hkept
    cases hport
    cases hpath
    cases hid
    rfl
  exact heq ▸ hok

/-- The way back from another configuration. -/
lemma leaves_asArgs {settings : SettingsRecord}
    (hconfig : settings.ocppConfig.asRead = settings.ocppConfig) (hother : other.asRead = other)
    (hne : other ≠ settings.ocppConfig) :
    settings.ocppConfig.asArgs.leaves { settings with ocppConfig := other } = settings ↔
      settings.ocppConfig.CanBeGiven := by
  cases hchange : settings.ocppConfig.asArgs.change other with
  | none =>
    rw [leaves_of_none hchange]
    refine iff_of_false (fun heq => hne (congrArg SettingsRecord.ocppConfig heq)) fun hcan => ?_
    have hsome : settings.ocppConfig.asArgs.change other = some settings.ocppConfig :=
      change_eq_some_iff.2 ⟨_, rfl, wantedOcpp_asArgs hcan, hne.symm, hcan.2.2⟩
    cases hchange.symm.trans hsome
  | some wanted =>
    obtain ⟨_, ⟨⟩, hwanted, -, hok⟩ := change_eq_some_iff.1 hchange
    rw [ocppConfig_leaves hchange]
    constructor
    · intro heq
      exact canBeGiven_of_asRead hconfig hother hwanted hok
        (congrArg SettingsRecord.ocppConfig heq)
    · intro hcan
      cases hwanted.symm.trans (wantedOcpp_asArgs hcan)
      rw [hconfig]

end

/-- Once the command has changed the settings, the same command with the old configuration puts them
back exactly if that has its host marked, has a charge point id and can be written at all. -/
theorem ocpp_put_back {σ : Type} {charger : Firmware σ} {stored : σ → Register → UInt8 → Word}
    (h : charger.KeepsSettings stored) {hint : Option String} {known known' : Option ℤ}
    {args : OcppArgs} {s : σ} {es es' : List LineEvent} {t t' : Line σ}
    (ht : LineRun charger.peer hint known (cmdOcpp args).script s es t) (hf : t.session.Finished)
    (hchanged : recordOf (stored t.peer) ≠ recordOf (stored s))
    (ht' : LineRun charger.peer hint known'
      (cmdOcpp (recordOf (stored s)).ocppConfig.asArgs).script t.peer es' t')
    (hf' : t'.session.Finished) :
    recordOf (stored t'.peer) = recordOf (stored s) ↔
      (recordOf (stored s)).ocppConfig.CanBeGiven := by
  obtain ⟨-, hleaves, -⟩ := finished_cmdOcpp h ht hf
  obtain ⟨-, hback, -⟩ := finished_cmdOcpp h ht' hf'
  cases hchange : args.change (recordOf (stored s)).ocppConfig with
  | none => exact absurd (hleaves.trans (leaves_of_none hchange)) hchanged
  | some wanted =>
    rw [ocppConfig_leaves hchange] at hleaves
    have hother : wanted.asRead.asRead = wanted.asRead := by
      rw [← show (recordOf (stored t.peer)).ocppConfig = wanted.asRead from
        congrArg SettingsRecord.ocppConfig hleaves]
      exact asRead_recordOf _
    have hne : wanted.asRead ≠ (recordOf (stored s)).ocppConfig := by
      intro heq
      rw [heq] at hleaves
      exact hchanged hleaves
    rw [hback, hleaves]
    exact leaves_asArgs (asRead_recordOf _) hother hne

theorem ocpp_put_back_vendor :
    ∃ es t es' t',
      LineRun keepingCharger.peer none none (cmdOcpp homeArgs).script vendorCharger es t ∧
      t.session.Finished ∧ LineRun keepingCharger.peer none none
        (cmdOcpp (recordOf (keptWords vendorCharger)).ocppConfig.asArgs).script t.peer es' t' ∧
      t'.session.Finished ∧
      recordOf (keptWords t'.peer) = recordOf (keptWords vendorCharger) := by
  have hruns := exists_finished_cmdOcpp keepingCharger_keeps none none
  obtain ⟨es, t, ht, hf⟩ := hruns homeArgs vendorCharger
  obtain ⟨es', t', ht', hf'⟩ :=
    hruns (recordOf (keptWords vendorCharger)).ocppConfig.asArgs t.peer
  have hchanged : recordOf (keptWords t.peer) ≠ recordOf (keptWords vendorCharger) := by
    have hne : (homeArgs.leaves (recordOf (keptWords vendorCharger))).ocppConfig ≠
        (recordOf (keptWords vendorCharger)).ocppConfig := by decide +kernel
    rw [(finished_cmdOcpp keepingCharger_keeps ht hf).2.1]
    exact fun heq => hne (congrArg SettingsRecord.ocppConfig heq)
  have hcan : (recordOf (keptWords vendorCharger)).ocppConfig.CanBeGiven := by
    refine ⟨?_, ?_, ?_⟩ <;> decide +kernel
  exact ⟨es, t, es', t', ht, hf, ht', hf',
    (ocpp_put_back keepingCharger_keeps ht hf hchanged ht' hf').2 hcan⟩

end SpinevBle
