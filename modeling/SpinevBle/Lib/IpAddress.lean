import Mathlib.Data.List.Basic
import SpinevBle.Lib.Hex

/-!
# IP addresses as text

What `ipaddress.ip_address` takes for an address. An IPv4 address is four decimal octets, none of
them with a leading zero. An IPv6 address is eight hextets, of which one run may be left out as
`::`, the last two may be written as an IPv4 address, and a scope may follow.
-/

namespace IpAddress

/-! ### IPv4 -/

/-- What `_parse_octet` accepts. -/
def IsOctet (octet : List Char) : Prop :=
  octet ≠ [] ∧ octet.all Char.isDigit ∧ octet.length ≤ 3 ∧
    (octet = ['0'] ∨ octet.head? ≠ some '0') ∧ Nat.ofDigitChars 10 octet 0 ≤ 255

instance : DecidablePred IsOctet := fun _ => inferInstanceAs (Decidable (_ ∧ _))

def parseOctet (octet : List Char) : Option ℕ :=
  if IsOctet octet then some (Nat.ofDigitChars 10 octet 0) else none

/-- `int.from_bytes(octets, "big")`. -/
def ofOctets (octets : List ℕ) : ℕ := octets.foldl (fun n octet => 256 * n + octet) 0

/-- `IPv4Address(text)`. -/
def ipv4Address (text : List Char) : Option ℕ :=
  if '/' ∈ text ∨ text = [] ∨ (text.splitOn '.').length ≠ 4 then none
  else ofOctets <$> (text.splitOn '.').mapM parseOctet

/-! ### Decimal numbers -/

/-- A digit is the one of a number below ten. -/
lemma exists_digitChar {c : Char} (h : c.isDigit) :
    ∃ d < 10, c.toNat - '0'.toNat = d ∧ Nat.digitChar d = c := by
  obtain ⟨hle, hge⟩ := Char.isDigit_iff_toNat.1 h
  have hle : 48 ≤ c.toNat := hle
  have hge : c.toNat ≤ 57 := hge
  refine ⟨c.toNat - 48, by omega, rfl, ?_⟩
  rw [← Char.toNat_inj, Nat.toNat_digitChar_of_lt_ten (by omega)]
  omega

/-- Digits behind those of a number that is not zero are digits of a number as well. -/
lemma toDigits_append {digits : List Char} (h : ∀ c ∈ digits, c.isDigit) {n : ℕ} (hn : 0 < n) :
    Nat.toDigits 10 n ++ digits = Nat.toDigits 10 (Nat.ofDigitChars 10 digits n) := by
  induction digits generalizing n with
  | nil => simp
  | cons c digits ih =>
    obtain ⟨hc, h⟩ := List.forall_mem_cons.1 h
    obtain ⟨d, hd, heq, hchar⟩ := exists_digitChar hc
    have happend : Nat.toDigits 10 n ++ [c] = Nat.toDigits 10 (10 * n + d) := by
      rw [← Nat.toDigits_append_toDigits (by omega) hn hd, Nat.toDigits_of_lt_base hd, hchar]
    rw [List.append_cons, happend, Nat.ofDigitChars_cons, heq, ih h (by omega)]

/-- Digits without a leading zero are those of the number that they stand for. -/
lemma toDigits_ofDigitChars {digits : List Char} (hne : digits ≠ []) (h : ∀ c ∈ digits, c.isDigit)
    (hzero : digits = ['0'] ∨ digits.head? ≠ some '0') :
    Nat.toDigits 10 (Nat.ofDigitChars 10 digits 0) = digits := by
  rcases hzero with rfl | hzero
  · rfl
  cases digits with
  | nil => exact absurd rfl hne
  | cons c digits =>
    obtain ⟨hc, h⟩ := List.forall_mem_cons.1 h
    obtain ⟨d, hd, heq, hchar⟩ := exists_digitChar hc
    have hpos : 0 < d := by
      refine Nat.pos_of_ne_zero fun h0 => hzero ?_
      rw [← hchar, h0]
      rfl
    rw [Nat.ofDigitChars_cons, heq, Nat.mul_zero, Nat.zero_add, ← toDigits_append h hpos,
      Nat.toDigits_of_lt_base hd, hchar, List.singleton_append]

lemma isOctet_toDigits : ∀ n < 256, IsOctet (Nat.toDigits 10 n) := by decide +kernel

/-- An octet is read from its decimal digits, and from nothing else. -/
lemma parseOctet_eq_some_iff {octet : List Char} {n : ℕ} :
    parseOctet octet = some n ↔ n < 256 ∧ octet = Nat.toDigits 10 n := by
  constructor
  · intro h
    rw [parseOctet, Option.ite_none_right_eq_some] at h
    obtain ⟨⟨hne, hdigits, -, hzero, hle⟩, h⟩ := h
    cases h
    exact ⟨by omega, (toDigits_ofDigitChars hne (List.all_eq_true.1 hdigits) hzero).symm⟩
  · rintro ⟨hn, rfl⟩
    rw [parseOctet, if_pos (isOctet_toDigits n hn), Nat.ofDigitChars_ten_toDigits]

/-- Decimal numbers with dots between them. -/
def dotted (octets : List ℕ) : List Char := ['.'].intercalate (octets.map (Nat.toDigits 10))

lemma not_mem_toDigits {c : Char} (hc : c.isDigit = false) (n : ℕ) : c ∉ Nat.toDigits 10 n :=
  fun h => Bool.eq_false_iff.1 hc (Nat.isDigit_of_mem_toDigits (by omega) (by omega) h)

lemma isDigit_of_mem_dotted {c : Char} {octets : List ℕ} (h : c ∈ dotted octets) (hc : c ≠ '.') :
    c.isDigit := by
  unfold dotted at h
  induction octets with
  | nil => simp at h
  | cons n octets ih =>
    have hdigit : ∀ n, c ∈ Nat.toDigits 10 n → c.isDigit := fun n =>
      Nat.isDigit_of_mem_toDigits (by omega) (by omega)
    cases octets with
    | nil => exact hdigit n (by simpa using h)
    | cons m octets =>
      rw [List.map_cons, List.map_cons, List.intercalate_cons_cons, List.mem_append,
        List.mem_append, List.mem_singleton] at h
      rcases h with (h | h) | h
      · exact hdigit n h
      · exact absurd h hc
      · exact ih h

/-- Octets are read from their decimal digits. -/
lemma mapM_parseOctet {parts : List (List Char)} {octets : List ℕ} :
    parts.mapM parseOctet = some octets ↔
      (∀ n ∈ octets, n < 256) ∧ parts = octets.map (Nat.toDigits 10) := by
  induction parts generalizing octets with
  | nil =>
    rw [List.mapM_nil, Option.pure_def, Option.some_inj]
    constructor
    · rintro rfl
      simp
    · rintro ⟨-, h⟩
      exact (List.map_eq_nil_iff.1 h.symm).symm
  | cons part parts ih =>
    simp only [List.mapM_cons, Option.bind_eq_bind, Option.bind_eq_some_iff, Option.pure_def,
      Option.some_inj, parseOctet_eq_some_iff, ih]
    constructor
    · rintro ⟨n, ⟨hn, rfl⟩, octets, ⟨hlt, rfl⟩, rfl⟩
      exact ⟨List.forall_mem_cons.2 ⟨hn, hlt⟩, rfl⟩
    · rintro ⟨hlt, h⟩
      obtain ⟨n, octets, rfl, rfl, rfl⟩ := List.map_eq_cons_iff.1 h.symm
      obtain ⟨hn, hlt⟩ := List.forall_mem_cons.1 hlt
      exact ⟨n, ⟨hn, rfl⟩, octets, ⟨hlt, rfl⟩, rfl⟩

/-- IPv4 addresses are read from their dotted form, and from nothing else. -/
theorem ipv4Address_eq_some_iff {text : List Char} {n : ℕ} :
    ipv4Address text = some n ↔ ∃ octets : List ℕ, octets.length = 4 ∧ (∀ n ∈ octets, n < 256) ∧
      text = dotted octets ∧ n = ofOctets octets := by
  have hsplit : ∀ octets : List ℕ, octets ≠ [] →
      (dotted octets).splitOn '.' = octets.map (Nat.toDigits 10) := by
    intro octets hne
    refine List.splitOn_intercalate '.' (fun part hpart => ?_) (by simpa using hne)
    obtain ⟨n, -, rfl⟩ := List.mem_map.1 hpart
    exact not_mem_toDigits rfl n
  constructor
  · intro h
    rw [ipv4Address, Option.ite_none_left_eq_some, Option.map_eq_map, Option.map_eq_some_iff] at h
    obtain ⟨hno, octets, hread, rfl⟩ := h
    obtain ⟨hlt, hparts⟩ := mapM_parseOctet.1 hread
    have hlen := not_not.1 fun hlen => hno (.inr (.inr hlen))
    refine ⟨octets, by simpa [hparts] using hlen, hlt, ?_, rfl⟩
    rw [dotted, ← hparts, List.intercalate_splitOn]
  · rintro ⟨octets, hlen, hlt, rfl, rfl⟩
    have hne : octets ≠ [] := List.ne_nil_of_length_eq_add_one hlen
    rw [ipv4Address, if_neg, hsplit octets hne, mapM_parseOctet.2 ⟨hlt, rfl⟩]
    · rfl
    · rintro (hslash | hnil | hne')
      · exact Bool.false_ne_true (isDigit_of_mem_dotted hslash (by decide))
      · have hlen' := congrArg List.length (hsplit octets hne)
        rw [hnil, List.splitOn_nil, List.length_map, hlen] at hlen'
        cases hlen'
      · exact hne' (by rw [hsplit octets hne, List.length_map, hlen])

/-- There are digits and dots in an IPv4 address, and nothing else. -/
lemma ipv4Address_eq_none {text : List Char} {c : Char} (hmem : c ∈ text) (hdot : c ≠ '.')
    (hdigit : c.isDigit = false) : ipv4Address text = none := by
  rw [Option.eq_none_iff_forall_ne_some]
  intro n h
  obtain ⟨octets, -, -, rfl, -⟩ := ipv4Address_eq_some_iff.1 h
  exact Bool.eq_false_iff.1 hdigit (isDigit_of_mem_dotted hmem hdot)

/-! ### IPv6 -/

/-- `_parse_hextet`. -/
def parseHextet (hextet : List Char) : Option ℕ :=
  if hextet = [] ∨ 4 < hextet.length then none
  else hextet.foldlM (fun n c => (Hex.value? c).map (16 * n + ·)) 0

/-- `_split_scope_id`, without the scope. -/
def splitScopeId (text : List Char) : Option (List Char) :=
  match text.dropWhile (· ≠ '%') with
  | [] => some text
  | _ :: scope => if scope = [] ∨ '%' ∈ scope then none else some (text.takeWhile (· ≠ '%'))

/-- The parts, where an IPv4 address in the last one becomes two hextets. -/
def convertSuffix (parts : List (List Char)) : Option (List (List Char)) :=
  if '.' ∈ parts.getLastD [] then do
    let suffix ← ipv4Address (parts.getLastD [])
    return parts.dropLast ++
      [Nat.toDigits 16 (suffix >>> 16 &&& 0xFFFF), Nat.toDigits 16 (suffix &&& 0xFFFF)]
  else return parts

/-- The index of the inner part that is empty. There may be one. -/
def skipIndex (parts : List (List Char)) : Option (Option ℕ) :=
  (List.range' 1 (parts.length - 2)).foldlM
    (fun skip i =>
      if parts.getD i [] ≠ [] then some skip else if skip = none then some (some i) else none)
    none

/-- How many parts there are in front of the run that is left out, how many it leaves out, and how
many parts are behind it. -/
def runs (parts : List (List Char)) : Option (ℕ × ℕ × ℕ) := do
  match ← skipIndex parts with
  | some skip =>
    let hi := if parts.headD [] = [] then skip - 1 else skip
    let lo := if parts.getLastD [] = [] then parts.length - skip - 2 else parts.length - skip - 1
    if parts.headD [] = [] ∧ hi ≠ 0 ∨ parts.getLastD [] = [] ∧ lo ≠ 0 ∨ 7 < hi + lo then none
    else return (hi, 8 - (hi + lo), lo)
  | none =>
    if parts.length ≠ 8 ∨ parts.headD [] = [] ∨ parts.getLastD [] = [] then none
    else return (8, 0, 0)

/-- Hextets behind a number. -/
def shiftIn (n : ℕ) (hextets : List ℕ) : ℕ := hextets.foldl (fun n hextet => n <<< 16 ||| hextet) n

/-- `_ip_int_from_string` of an IPv6 address. -/
def ipIntFromString (address : List Char) : Option ℕ := do
  guard (address ≠ [])
  guard (3 ≤ (address.splitOn ':').length)
  let parts ← convertSuffix (address.splitOn ':')
  guard (parts.length ≤ 9)
  let (hi, skipped, lo) ← runs parts
  let high ← (parts.take hi).mapM parseHextet
  let low ← (parts.drop (parts.length - lo)).mapM parseHextet
  return shiftIn (shiftIn 0 high <<< (16 * skipped)) low

/-- `IPv6Address(text)`. -/
def ipv6Address (text : List Char) : Option ℕ := do
  guard ('/' ∉ text)
  ipIntFromString (← splitScopeId text)

/-- `ip_address(text)`. -/
def ipAddress (text : List Char) : Option ℕ := ipv4Address text <|> ipv6Address text

lemma ipAddress_eq_none_iff {text : List Char} :
    ipAddress text = none ↔ ipv4Address text = none ∧ ipv6Address text = none := by
  rw [ipAddress]
  cases ipv4Address text <;> simp

/-! ### What is no IPv6 address -/

lemma length_splitOn (c : Char) (text : List Char) :
    (text.splitOn c).length = text.count c + 1 := by
  induction text with
  | nil => rfl
  | cons d text ih =>
    rw [List.splitOn_cons_eq_if_modifyHead, List.count_cons]
    split_ifs
    · rw [List.length_cons, ih]
    · rw [List.length_modifyHead, ih, Nat.add_zero]

/-- A scope begins at the first percent sign. -/
lemma eq_of_splitScopeId {text address : List Char} (h : splitScopeId text = some address) :
    address = text ∨ address = text.takeWhile (· ≠ '%') := by
  unfold splitScopeId at h
  split at h
  · exact .inl (Option.some_inj.1 h).symm
  · exact .inr (Option.some_inj.1 (Option.ite_none_left_eq_some.1 h).2).symm

/-- What has been checked of an address that is read. -/
lemma parts_of_ipIntFromString {address : List Char} {n : ℕ}
    (h : ipIntFromString address = some n) :
    3 ≤ (address.splitOn ':').length ∧ ∃ parts hi skipped lo high,
      convertSuffix (address.splitOn ':') = some parts ∧ runs parts = some (hi, skipped, lo) ∧
        (parts.take hi).mapM parseHextet = some high := by
  simp only [ipIntFromString, Option.bind_eq_bind, Option.bind_eq_some_iff,
    Option.guard_eq_some'] at h
  obtain ⟨_, -, _, hlen, parts, hparts, _, -, ⟨hi, skipped, lo⟩, hruns, high, hhigh, -⟩ := h
  exact ⟨hlen, parts, hi, skipped, lo, high, hparts, hruns, hhigh⟩

lemma parts_of_ipv6Address {text : List Char} {n : ℕ} (h : ipv6Address text = some n) :
    ∃ address, splitScopeId text = some address ∧ ipIntFromString address = some n := by
  simp only [ipv6Address, Option.bind_eq_bind, Option.bind_eq_some_iff] at h
  obtain ⟨_, -, address, hscope, h⟩ := h
  exact ⟨address, hscope, h⟩

/-- An IPv6 address has two colons. -/
theorem two_colons_of_ipv6Address {text : List Char} {n : ℕ} (h : ipv6Address text = some n) :
    2 ≤ text.count ':' := by
  obtain ⟨address, hscope, h⟩ := parts_of_ipv6Address h
  have hsub : address <+: text := by
    rcases eq_of_splitScopeId hscope with rfl | rfl
    · exact List.prefix_rfl
    · exact List.takeWhile_prefix _
  have hlen := (parts_of_ipIntFromString h).1
  rw [length_splitOn] at hlen
  exact (Nat.le_of_succ_le_succ hlen).trans (hsub.sublist.count_le ':')

/-- The inner part that is skipped is not the first one. -/
lemma pos_of_skipIndex {parts : List (List Char)} {i : ℕ} (h : skipIndex parts = some (some i)) :
    0 < i := by
  have hfold : ∀ (is : List ℕ) (skip : Option ℕ), (∀ i ∈ is, 0 < i) → (∀ i ∈ skip, 0 < i) →
      is.foldlM (fun skip i => if parts.getD i [] ≠ [] then some skip
        else if skip = none then some (some i) else none) skip = some (some i) → 0 < i := by
    intro is
    induction is with
    | nil =>
      intro skip _ hskip h
      exact hskip i (Option.some_inj.1 h)
    | cons j is ih =>
      intro skip his hskip h
      obtain ⟨hj, his⟩ := List.forall_mem_cons.1 his
      simp only [List.foldlM_cons, Option.bind_eq_bind, Option.bind_eq_some_iff] at h
      obtain ⟨skip', hskip', h⟩ := h
      refine ih skip' his ?_ h
      split_ifs at hskip' <;> cases hskip'
      · exact hskip
      · rintro _ ⟨⟩
        exact hj
  refine hfold _ none (fun i hi => ?_) (fun i hi => by cases hi) h
  exact (List.mem_range'_1.1 hi).1

/-- A first part that is not empty is read. -/
lemma pos_of_runs {parts : List (List Char)} {hi skipped lo : ℕ}
    (h : runs parts = some (hi, skipped, lo)) (hhead : parts.headD [] ≠ []) : 0 < hi := by
  simp only [runs, Option.bind_eq_bind, Option.bind_eq_some_iff] at h
  obtain ⟨skip, hskip, h⟩ := h
  cases skip with
  | some skip =>
    have hpos := pos_of_skipIndex hskip
    simp only [if_neg hhead] at h
    split_ifs at h
    all_goals
      cases h
      exact hpos
  | none =>
    simp only at h
    split_ifs at h
    cases h
    exact Nat.succ_pos 7

lemma parseHextet_eq_none {hextet : List Char} {c : Char} (hmem : c ∈ hextet)
    (hc : Hex.value? c = none) : parseHextet hextet = none := by
  have hfold : ∀ n : ℕ, hextet.foldlM (fun n c => (Hex.value? c).map (16 * n + ·)) n = none := by
    induction hextet with
    | nil => cases hmem
    | cons d hextet ih =>
      intro n
      rw [List.foldlM_cons]
      rcases List.mem_cons.1 hmem with rfl | hmem
      · rw [hc]
        rfl
      · cases hd : Hex.value? d with
        | none => rfl
        | some m => exact ih hmem _
  rw [parseHextet, hfold, ite_self]

/-- A text is no IPv6 address if there is something else than hex digits in front of its first
colon. -/
theorem ipv6Address_eq_none (part : List Char) {rest : List Char} (hcolon : ':' ∉ part)
    (hscope : '%' ∉ part)
    {c : Char} (hmem : c ∈ part) (hc : Hex.value? c = none) :
    ipv6Address (part ++ ':' :: rest) = none := by
  rw [Option.eq_none_iff_forall_ne_some]
  intro n h
  obtain ⟨address, hsplit, h⟩ := parts_of_ipv6Address h
  obtain ⟨rest', rfl⟩ : ∃ rest', address = part ++ ':' :: rest' := by
    rcases eq_of_splitScopeId hsplit with rfl | rfl
    · exact ⟨rest, rfl⟩
    · refine ⟨rest.takeWhile (· ≠ '%'), ?_⟩
      rw [List.takeWhile_append_of_pos (by simpa using fun c hc => ne_of_mem_of_not_mem hc hscope)]
      rfl
  obtain ⟨hlen, parts, hi, skipped, lo, high, hparts, hruns, hhigh⟩ := parts_of_ipIntFromString h
  rw [List.splitOn_append_cons_self_of_not_mem hcolon] at hlen hparts
  obtain ⟨tail, rfl⟩ : ∃ tail, parts = part :: tail := by
    obtain ⟨next, later, hlater⟩ := List.exists_cons_of_ne_nil (List.splitOn_ne_nil ':' rest')
    rw [hlater, convertSuffix] at hparts
    split_ifs at hparts
    · obtain ⟨suffix, -, hparts⟩ := Option.bind_eq_some_iff.1 hparts
      exact ⟨_, (Option.some_inj.1 hparts).symm⟩
    · exact ⟨_, (Option.some_inj.1 hparts).symm⟩
  have hpart : part ≠ [] := List.ne_nil_of_mem hmem
  obtain ⟨hi, rfl⟩ := Nat.exists_eq_add_one_of_ne_zero (pos_of_runs hruns hpart).ne'
  rw [List.take_succ_cons, List.mapM_cons, parseHextet_eq_none hmem hc] at hhigh
  cases hhigh

end IpAddress
