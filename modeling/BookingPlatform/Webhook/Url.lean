import BookingPlatform.Common.Types
import BookingPlatform.Library.IpAddress
import BookingPlatform.Library.JsString
import Mathlib.Algebra.Order.Ring.Rat
import Mathlib.Data.Nat.Cast.Order.Ring

/-!
# Webhook Targets

The URL of a webhook must not lead into the internal network. A literal host and every address that
a host name resolves to are compared, as texts, with the ranges of loopback, private and link-local
addresses.

## Main definitions

- `WebhookUrl.isBlockedIp`: the check of one address.
- `WebhookUrl.validateWebhookUrl`, `WebhookUrl.assertSafeWebhookUrl`: the checks of a URL.
- `IpAddress.Blocked`, `IpAddress.Form`: the ranges, and the texts of an address.

## Main results

- `webhookUrls_safe`: an address in a range is blocked in each of its texts, so that a URL that is
  found safe does not lead to one.
-/

namespace BookingPlatform

open Library

/-! ## Addresses and their texts -/

inductive IpAddress where
  | v4 (a : BitVec 32)
  | v6 (a : BitVec 128)
  deriving DecidableEq

namespace IpAddress

/-- 0/8, 10/8, 127/8, 100.64/10, 169.254/16, 172.16/12 and 192.168/16. -/
def blockedIpv4 : List (ℕ × ℕ) :=
  [(0, 8), (10 * 2 ^ 24, 8), (127 * 2 ^ 24, 8), (100 * 2 ^ 24 + 64 * 2 ^ 16, 10),
    (169 * 2 ^ 24 + 254 * 2 ^ 16, 16), (172 * 2 ^ 24 + 16 * 2 ^ 16, 12),
    (192 * 2 ^ 24 + 168 * 2 ^ 16, 16)]

/-- ::/128, ::1/128, fc00::/7, fe80::/10 and ::ffff:0:0/96. -/
def blockedIpv6 : List (ℕ × ℕ) :=
  [(0, 128), (1, 128), (0xfc00 * 2 ^ 112, 7), (0xfe80 * 2 ^ 112, 10), (0xffff * 2 ^ 32, 96)]

/-- The address is in one of the ranges. -/
def Blocked : IpAddress → Prop
  | v4 a => ∃ block ∈ blockedIpv4, InBlock a block.1 block.2
  | v6 a => ∃ block ∈ blockedIpv6, InBlock a block.1 block.2

/-- A text in upper case. -/
def upperText (s : String) : String := String.ofList (s.toList.map Char.toUpper)

/-- The text of an address: in dotted decimal, in its canonical form in lower or upper case, or for
a mapped IPv4 address with the dotted decimal of that. -/
inductive Form : IpAddress → String → Prop
  | dotted (a : BitVec 32) : Form (v4 a) (ipv4Text a)
  | lower (a : BitVec 128) : Form (v6 a) (ipv6Text a)
  | upper (a : BitVec 128) : Form (v6 a) (upperText (ipv6Text a))
  | mappedLower (a : BitVec 128) (h : InBlock a (0xffff * 2 ^ 32) 96) :
      Form (v6 a) ("::ffff:" ++ ipv4Text (a.setWidth 32))
  | mappedUpper (a : BitVec 128) (h : InBlock a (0xffff * 2 ^ 32) 96) :
      Form (v6 a) ("::FFFF:" ++ ipv4Text (a.setWidth 32))

end IpAddress

/-! ## What the checks use -/

/-- A result of `Number(…)`. -/
inductive JsNumber where
  | nan
  | infinite (negative : Bool)
  | finite (q : ℚ)
  deriving DecidableEq

/-- `low <= n && n <= high`. -/
def JsNumber.between (low high : ℚ) : JsNumber → Bool
  | finite q => low ≤ q ∧ q ≤ high
  | _ => false

/-- The parts of a URL that are checked. -/
structure Url where
  protocol : String
  hostname : String
  deriving DecidableEq

/-- `hostname.replace(/^\[|\]$/g, '')`. -/
def Url.host (url : Url) : String :=
  let chars := if url.hostname.toList.head? =
    some '[' then url.hostname.toList.tail else url.hostname.toList
  String.ofList (if chars.getLast? = some ']' then chars.dropLast else chars)

/-- What the checks use of Node and of JavaScript: `isIP`, `Number(…)`, `toLowerCase` and `new
URL(…)`. The texts of addresses are classified as such, decimal numbers are read, ASCII texts are
lower-cased, and the host of a URL that is an address is written in its canonical form. -/
structure UrlRuntime where
  isIP : String → ℕ
  number : String → JsNumber
  toLowerCase : String → String
  parseUrl : String → Option Url
  isIP_ipv4 : ∀ a : BitVec 32, isIP (ipv4Text a) = 4
  isIP_ipv6 : ∀ (a : BitVec 128) text, IpAddress.Form (.v6 a) text → isIP text = 6
  number_decimal : ∀ n < 256, number (String.ofList (Nat.toDigits 10 n)) = .finite n
  toLowerCase_ascii : ∀ s, IsAscii s → toLowerCase s = String.ofList (s.toList.map Char.toLower)
  parseUrl_literal : ∀ raw url, parseUrl raw = some url → isIP url.host ≠ 0 →
    (∃ a, url.host = ipv4Text a) ∨ ∃ a, url.host = ipv6Text a

/-! ## The checks -/

namespace WebhookUrl

variable (rt : UrlRuntime)

/-- An IPv4 literal in a loopback, private, link-local or reserved range. -/
def isBlockedIpv4 (ip : String) : Bool :=
  match (splitText '.' ip).map rt.number with
  | [a, b, c, d] =>
    if .nan ∈ [a, b, c, d] then true
    else
      a = .finite 0 || a = .finite 127 || a = .finite 10 || (a = .finite 172 && b.between 16 31) ||
        (a = .finite 192 && b = .finite 168) || (a = .finite 169 && b = .finite 254) ||
        (a = .finite 100 && b.between 64 127)
  | _ => true

/-- An address in a blocked range; what is no address is blocked. -/
def isBlockedIp (ip : String) : Bool :=
  if rt.isIP ip = 4 then isBlockedIpv4 rt ip
  else if rt.isIP ip = 6 then
    let lower := rt.toLowerCase ip
    -- an IPv4 address in disguise
    if startsWith "::ffff:" lower || startsWith "::ffff0:" lower then true
    else
      lower = "::1" || lower = "::" || startsWith "fc" lower || startsWith "fd" lower ||
        startsWith "fe8" lower || startsWith "fe9" lower || startsWith "fea" lower ||
          startsWith "feb" lower
  else true

/-- The checks at registration, which do not resolve names. -/
def validateWebhookUrl (raw : String) : Except Thrown Url :=
  match rt.parseUrl raw with
  | none => throw (.app (.badRequest "Webhook URL is not a valid URL"))
  | some url => do
    if url.protocol ≠ "https:" then
      throw (.app (.badRequest "Webhook URL must use https"))
    let lower := rt.toLowerCase url.host
    if lower = "localhost" || endsWith ".localhost" lower || endsWith ".internal" lower then
      throw (.app (.badRequest "Webhook URL must not target an internal host"))
    if rt.isIP url.host ≠ 0 && isBlockedIp rt url.host then
      throw (.app (.badRequest "Webhook URL must not target a private or loopback address"))
    return url

/-- The checks at delivery; `lookup` resolves a name, or throws. -/
def assertSafeWebhookUrl (lookup : String → Except Thrown (List String)) (raw : String) :
    Except Thrown Url := do
  let url ← validateWebhookUrl rt raw
  if rt.isIP url.host ≠ 0 then return url
  let addresses ← lookup url.host
  if addresses.length = 0 || addresses.any (isBlockedIp rt) then
    throw (.app (.badRequest "Webhook URL must not resolve to a private or loopback address"))
  return url

/-! ## Addresses in a range -/

variable {rt}

theorem startsWith_of_append {pre : String} {chars : List Char} (h : pre.toList <+: chars) :
    startsWith pre (String.ofList chars) = true := by
  unfold startsWith
  rw [String.toList_ofList]
  exact decide_eq_true h

/-- The parts of an IPv4 address are its bytes. -/
theorem numbers_ipv4Text (a : BitVec 32) : (splitText '.' (ipv4Text a)).map rt.number =
    (octets a).map fun n => .finite n := by
  have hnumber : ∀ n ∈ octets a, rt.number (String.ofList (Nat.toDigits 10 n)) = .finite n := by
    intro n hn
    apply rt.number_decimal
    have ha := a.isLt
    simp only [octets, List.mem_cons, List.not_mem_nil, or_false] at hn
    omega
  unfold splitText
  rw [splitOn_ipv4Text, List.map_map, List.map_map]
  exact List.map_congr_left hnumber

/-- The ranges of IPv4 addresses by their first two bytes. -/
theorem blocked_ipv4_iff (a : BitVec 32) : (IpAddress.v4 a).Blocked ↔
    a.toNat / 2 ^ 24 = 0 ∨ a.toNat / 2 ^ 24 = 127 ∨ a.toNat / 2 ^ 24 = 10 ∨
      (a.toNat / 2 ^ 24 = 172 ∧ 16 ≤ a.toNat / 2 ^ 16 % 256 ∧ a.toNat / 2 ^ 16 % 256 ≤ 31) ∨
      (a.toNat / 2 ^ 24 = 192 ∧ a.toNat / 2 ^ 16 % 256 = 168) ∨
      (a.toNat / 2 ^ 24 = 169 ∧ a.toNat / 2 ^ 16 % 256 = 254) ∨
      (a.toNat / 2 ^ 24 = 100 ∧ 64 ≤ a.toNat / 2 ^ 16 % 256 ∧ a.toNat / 2 ^ 16 % 256 ≤ 127) := by
  -- each block is a range of the leading bits
  have hcgnat : InBlock a (100 * 2 ^ 24 + 64 * 2 ^ 16) 10 ↔
      a.toNat / 2 ^ 24 = 100 ∧ 64 ≤ a.toNat / 2 ^ 16 % 256 ∧ a.toNat / 2 ^ 16 % 256 ≤ 127 := by
    unfold InBlock
    omega
  have hlinkLocal : InBlock a (169 * 2 ^ 24 + 254 * 2 ^ 16) 16 ↔
      a.toNat / 2 ^ 24 = 169 ∧ a.toNat / 2 ^ 16 % 256 = 254 := by
    unfold InBlock
    omega
  have hprivate : InBlock a (172 * 2 ^ 24 + 16 * 2 ^ 16) 12 ↔
      a.toNat / 2 ^ 24 = 172 ∧ 16 ≤ a.toNat / 2 ^ 16 % 256 ∧ a.toNat / 2 ^ 16 % 256 ≤ 31 := by
    unfold InBlock
    omega
  have hlan : InBlock a (192 * 2 ^ 24 + 168 * 2 ^ 16) 16 ↔
      a.toNat / 2 ^ 24 = 192 ∧ a.toNat / 2 ^ 16 % 256 = 168 := by
    unfold InBlock
    omega
  have hbyte : ∀ n : ℕ, InBlock a (n * 2 ^ 24) 8 ↔ a.toNat / 2 ^ 24 = n := by
    intro n
    unfold InBlock
    omega
  have hzero : InBlock a 0 8 ↔ a.toNat / 2 ^ 24 = 0 := by
    unfold InBlock
    omega
  simp only [IpAddress.Blocked, IpAddress.blockedIpv4, List.mem_cons, List.not_mem_nil, or_false,
    exists_eq_or_imp, exists_eq_left, hcgnat, hlinkLocal, hprivate, hlan, hbyte, hzero]
  generalize a.toNat / 2 ^ 24 = p
  generalize a.toNat / 2 ^ 16 % 256 = q
  constructor <;> rintro (h | h | h | h | h | h | h) <;> simp [h]

/-- An IPv4 address is blocked exactly if it is in one of the ranges. -/
theorem isBlockedIp_ipv4_iff (a : BitVec 32) :
    isBlockedIp rt (ipv4Text a) = true ↔ (IpAddress.v4 a).Blocked := by
  rw [blocked_ipv4_iff]
  unfold isBlockedIp isBlockedIpv4
  rw [if_pos (rt.isIP_ipv4 a), numbers_ipv4Text]
  simp only [octets, List.map_cons, List.map_nil]
  generalize a.toNat / 2 ^ 24 = p
  generalize a.toNat / 2 ^ 16 % 256 = q
  -- the code compares numbers of JavaScript, which are exact here
  have hequal : ∀ n m : ℕ, JsNumber.finite n = .finite m ↔ n = m := by
    intro n m
    rw [JsNumber.finite.injEq, Nat.cast_inj]
  have hbetween : ∀ low high : ℕ, (JsNumber.finite q).between low high = true ↔ low ≤ q ∧
      q ≤ high := by
    intro low high
    simp only [JsNumber.between, decide_eq_true_eq, Nat.cast_le]
  have h₀ := hequal p 0
  have h₁₂₇ := hequal p 127
  have h₁₀ := hequal p 10
  have h₁₇₂ := hequal p 172
  have h₁₉₂ := hequal p 192
  have h₁₆₉ := hequal p 169
  have h₁₀₀ := hequal p 100
  have hq₁ := hequal q 168
  have hq₂ := hequal q 254
  have hb₁ := hbetween 16 31
  have hb₂ := hbetween 64 127
  push_cast at h₀ h₁₂₇ h₁₀ h₁₇₂ h₁₉₂ h₁₆₉ h₁₀₀ hq₁ hq₂ hb₁ hb₂
  rw [if_neg (by simp)]
  simp only [Bool.or_eq_true, Bool.and_eq_true, decide_eq_true_eq, h₀, h₁₂₇, h₁₀, h₁₇₂, h₁₉₂,
    h₁₆₉, h₁₀₀, hq₁, hq₂, hb₁, hb₂, or_assoc]

/-- A text in upper case, and back in lower case. -/
theorem toLower_toUpper_of_isHexChar {ch : Char} (h : IsHexChar ch) : ch.toUpper.toLower = ch := by
  have hall : ∀ ch ∈ "0123456789abcdef:".toList, ch.toUpper.toLower = ch := by simp
  exact hall ch h

theorem toLower_of_isHexChar {ch : Char} (h : IsHexChar ch) : ch.toLower = ch := by
  have hall : ∀ ch ∈ "0123456789abcdef:".toList, ch.toLower = ch := by simp
  exact hall ch h

/-- The canonical text of an address and its text in upper case are both lower-cased to it. -/
theorem toLowerCase_ipv6Text (a : BitVec 128) : rt.toLowerCase (ipv6Text a) = ipv6Text a ∧
    rt.toLowerCase (IpAddress.upperText (ipv6Text a)) = ipv6Text a := by
  have hhex : ∀ ch ∈ ipv6Chars (groups a), IsHexChar ch := fun ch => isHexChar_of_mem_ipv6Chars
  -- its characters are ASCII, so that the lower case is known
  have hascii : ∀ ch : Char, IsHexChar ch → ch.toNat < 128 ∧ ch.toUpper.toNat < 128 := by
    intro ch h
    have hall : ∀ ch ∈ "0123456789abcdef:".toList, ch.toNat < 128 ∧
      ch.toUpper.toNat < 128 := by simp
    exact hall ch h
  constructor
  · rw [rt.toLowerCase_ascii]
    · unfold ipv6Text
      rw [String.toList_ofList, List.map_congr_left fun ch hch =>
        toLower_of_isHexChar (hhex ch hch), List.map_id']
    · intro ch hch
      unfold ipv6Text at hch
      rw [String.toList_ofList] at hch
      exact (hascii ch (hhex ch hch)).1
  · unfold IpAddress.upperText ipv6Text
    rw [String.toList_ofList, rt.toLowerCase_ascii]
    · have hback : (ipv6Chars (groups a)).map (Char.toLower ∘ Char.toUpper) =
          ipv6Chars (groups a) := by
        have hsame : (ipv6Chars (groups a)).map (Char.toLower ∘ Char.toUpper) =
            (ipv6Chars (groups a)).map id :=
          List.map_congr_left fun ch hch => toLower_toUpper_of_isHexChar (hhex ch hch)
        rw [hsame, List.map_id]
      rw [String.toList_ofList, List.map_map, hback]
    · intro ch hch
      rw [String.toList_ofList] at hch
      obtain ⟨ch', hch', rfl⟩ := List.mem_map.1 hch
      exact (hascii ch' (hhex ch' hch')).2

/-- A mapped address in dotted decimal is lower-cased to a text with the same start. -/
theorem toLowerCase_mapped {pre : String} (hpre : pre = "::ffff:" ∨ pre = "::FFFF:")
    (a : BitVec 32) :
    startsWith "::ffff:" (rt.toLowerCase (pre ++ ipv4Text a)) = true := by
  -- prefix and address are ASCII
  have hascii : IsAscii (pre ++ ipv4Text a) := by
    intro ch hch
    rw [String.toList_append] at hch
    rcases List.mem_append.1 hch with hstart | htail
    · have hall : ∀ ch ∈ pre.toList, ch.toNat < 128 := by
        rcases hpre with rfl | rfl <;> simp
      exact hall ch hstart
    · rcases isDigit_or_dot_of_mem htail with hdigit | rfl
      · have hle := (Char.isDigit_iff_toNat.1 hdigit).2
        exact Nat.lt_of_le_of_lt hle (by decide)
      · decide
  rw [rt.toLowerCase_ascii _ hascii, String.toList_append, List.map_append]
  apply startsWith_of_append
  have hstart : pre.toList.map Char.toLower = "::ffff:".toList := by
    rcases hpre with rfl | rfl <;> simp
  rw [hstart]
  exact List.prefix_append _ _

/-- A text is blocked if it is an IPv6 address whose text in lower case has one of the starts. -/
theorem isBlockedIp_ipv6 {ip : String} (h : rt.isIP ip = 6)
    (hstart : startsWith "::ffff:" (rt.toLowerCase ip) = true ∨ rt.toLowerCase ip = "::1" ∨
      rt.toLowerCase ip = "::" ∨ startsWith "fc" (rt.toLowerCase ip) = true ∨
      startsWith "fd" (rt.toLowerCase ip) = true ∨
      ∃ ch ∈ ['8', '9', 'a', 'b'],
        startsWith (String.ofList ['f', 'e', ch]) (rt.toLowerCase ip) = true) :
    isBlockedIp rt ip = true := by
  have hnot : ¬rt.isIP ip = 4 := by omega
  unfold isBlockedIp
  rw [if_neg hnot, if_pos h]
  dsimp only
  -- a mapped address is decided by its start alone
  by_cases hmapped : startsWith "::ffff:" (rt.toLowerCase ip) = true
  · simp [hmapped]
  · rcases hstart with hstart | hloopback | hunspecified | hfc | hfd | ⟨ch, hch, hfe⟩
    · exact absurd hstart hmapped
    · simp [hloopback]
    · simp [hunspecified]
    · simp [hfc]
    · simp [hfd]
    · have hlinkLocal : startsWith "fe8" (rt.toLowerCase ip) = true ∨
        startsWith "fe9" (rt.toLowerCase ip) = true ∨
          startsWith "fea" (rt.toLowerCase ip) = true ∨
          startsWith "feb" (rt.toLowerCase ip) = true := by
        simp only [List.mem_cons, List.not_mem_nil, or_false] at hch
        rcases hch with rfl | rfl | rfl | rfl
        · exact .inl hfe
        · exact .inr (.inl hfe)
        · exact .inr (.inr (.inl hfe))
        · exact .inr (.inr (.inr hfe))
      rcases hlinkLocal with h | h | h | h <;> simp [h]

/-- An IPv6 address in a range is blocked in its canonical text and in upper case. -/
theorem isBlockedIp_canonical {a : BitVec 128} (h : (IpAddress.v6 a).Blocked) {ip : String}
    (hform : IpAddress.Form (.v6 a) ip) (hlower : rt.toLowerCase ip = ipv6Text a) :
    isBlockedIp rt ip = true := by
  refine isBlockedIp_ipv6 (rt.isIP_ipv6 a ip hform) ?_
  rw [hlower]
  simp only [IpAddress.Blocked, IpAddress.blockedIpv6, List.mem_cons, List.not_mem_nil, or_false,
    exists_eq_or_imp, exists_eq_left] at h
  -- each range has a start of its own in the text
  rcases h with hzero | hone | hlocal | hlink | hmapped
  · exact .inr (.inr (.inl (ipv6Text_zero hzero)))
  · exact .inr (.inl (ipv6Text_one hone))
  · rcases uniqueLocal_start hlocal with hfc | hfd
    · exact .inr (.inr (.inr (.inl (startsWith_of_append hfc))))
    · exact .inr (.inr (.inr (.inr (.inl (startsWith_of_append hfd)))))
  · obtain ⟨ch, hch, hfe⟩ := linkLocal_start hlink
    refine .inr (.inr (.inr (.inr (.inr ⟨ch, hch, startsWith_of_append ?_⟩))))
    rw [String.toList_ofList]
    exact hfe
  · exact .inl (startsWith_of_append (mapped_start hmapped))

/-- An address in a range is blocked in each of its texts. -/
theorem isBlockedIp_of_blocked {address : IpAddress} (h : address.Blocked) {ip : String}
    (hform : address.Form ip) : isBlockedIp rt ip = true := by
  cases hform with
  | dotted a => exact (isBlockedIp_ipv4_iff a).2 h
  | lower a => exact isBlockedIp_canonical h (.lower a) (toLowerCase_ipv6Text a).1
  | upper a => exact isBlockedIp_canonical h (.upper a) (toLowerCase_ipv6Text a).2
  | mappedLower a hmapped =>
    exact isBlockedIp_ipv6 (rt.isIP_ipv6 a _ (.mappedLower a hmapped))
      (.inl (toLowerCase_mapped (.inl rfl) _))
  | mappedUpper a hmapped =>
    exact isBlockedIp_ipv6 (rt.isIP_ipv6 a _ (.mappedUpper a hmapped))
      (.inl (toLowerCase_mapped (.inr rfl) _))

/-! ## Safe targets -/

/-- The URL uses https, its host is no internal name, and neither a literal host nor an address that
the host resolves to is in a range. -/
structure Safe (rt : UrlRuntime) (lookup : String → Except Thrown (List String)) (url : Url) :
    Prop where
  https : url.protocol = "https:"
  notLocalhost : rt.toLowerCase url.host ≠ "localhost"
  notUnderLocalhost : endsWith ".localhost" (rt.toLowerCase url.host) = false
  notInternal : endsWith ".internal" (rt.toLowerCase url.host) = false
  literal : rt.isIP url.host ≠ 0 →
    (∃ address : IpAddress, address.Form url.host) ∧ ∀ address : IpAddress, address.Form url.host →
    ¬address.Blocked
  resolved : rt.isIP url.host = 0 → ∃ addresses, lookup url.host = .ok addresses ∧
    ∀ ip ∈ addresses, ∀ address : IpAddress, address.Form ip → ¬address.Blocked

section Checks

variable {lookup : String → Except Thrown (List String)} {raw : String} {url : Url}

/-- What holds of a URL that passes the checks at registration. -/
theorem validateWebhookUrl_ok (h : validateWebhookUrl rt raw = .ok url) :
    rt.parseUrl raw = some url ∧
    url.protocol = "https:" ∧ rt.toLowerCase url.host ≠ "localhost" ∧
    endsWith ".localhost" (rt.toLowerCase url.host) = false ∧
    endsWith ".internal" (rt.toLowerCase url.host) = false ∧
    (rt.isIP url.host ≠ 0 → isBlockedIp rt url.host = false) := by
  unfold validateWebhookUrl at h
  cases hparse : rt.parseUrl raw with
  | none =>
    rw [hparse] at h
    cases h
  | some parsed =>
    rw [hparse] at h
    dsimp only at h
    -- each check that it has passed excludes its error
    split at h
    · cases h
    · rename_i hhttps
      split at h
      · cases h
      · rename_i hname
        split at h
        · cases h
        · rename_i hblocked
          obtain rfl := Except.ok.inj h
          simp only [Bool.or_eq_true, decide_eq_true_eq, not_or, Bool.not_eq_true] at hname
          refine ⟨rfl, not_not.1 hhttps, hname.1.1, hname.1.2, hname.2, fun hliteral => ?_⟩
          simpa [hliteral] using hblocked

/-- A URL that passes the checks at delivery is safe. -/
theorem assertSafeWebhookUrl_ok (h : assertSafeWebhookUrl rt lookup raw = .ok url) :
    Safe rt lookup url := by
  unfold assertSafeWebhookUrl at h
  cases hvalid : validateWebhookUrl rt raw with
  | error e =>
    rw [hvalid] at h
    cases h
  | ok valid =>
    rw [hvalid] at h
    obtain ⟨hparse, hhttps, hlocalhost, hunder, hinternal, hliteral⟩ := validateWebhookUrl_ok hvalid
    change (if rt.isIP valid.host ≠ 0 then _ else _) = _ at h
    -- a literal address has been checked already, any other name is resolved
    by_cases hip : rt.isIP valid.host ≠ 0
    · rw [if_pos hip] at h
      obtain rfl := Except.ok.inj h
      refine ⟨hhttps, hlocalhost, hunder, hinternal, fun _ => ⟨?_, ?_⟩, fun hname =>
        absurd hname hip⟩
      · rcases rt.parseUrl_literal raw valid hparse hip with ⟨a, ha⟩ | ⟨a, ha⟩
        · exact ⟨.v4 a, ha ▸ .dotted a⟩
        · exact ⟨.v6 a, ha ▸ .lower a⟩
      · intro address hform hblocked
        have htrue : isBlockedIp rt valid.host = true := isBlockedIp_of_blocked hblocked hform
        rw [hliteral hip] at htrue
        cases htrue
    · rw [if_neg hip] at h
      cases hlookup : lookup valid.host with
      | error e =>
        rw [hlookup] at h
        cases h
      | ok addresses =>
        rw [hlookup] at h
        change (if addresses.length = 0 || addresses.any (isBlockedIp rt) then _ else _) = _ at h
        split at h
        · cases h
        · -- none of the addresses is blocked, and there is one at least
          rename_i hany
          obtain rfl := Except.ok.inj h
          simp only [Bool.or_eq_true, not_or, List.any_eq_true, not_exists, not_and] at hany
          refine ⟨hhttps, hlocalhost, hunder, hinternal, fun hliteral => absurd hliteral hip,
            fun _ => ⟨addresses, hlookup, ?_⟩⟩
          intro ip hmem address hform hblocked
          exact hany.2 ip hmem (isBlockedIp_of_blocked hblocked hform)

end Checks

end WebhookUrl

/-- An IPv4 address is blocked exactly if it is in a range, an IPv6 address in a range is blocked in
each of its texts, and a URL that passes the checks at delivery is safe. -/
theorem webhookUrls_safe (rt : UrlRuntime) :
    (∀ a : BitVec 32, WebhookUrl.isBlockedIp rt (ipv4Text a) = true ↔ (IpAddress.v4 a).Blocked) ∧
      (∀ (a : BitVec 128) (ip : String), (IpAddress.v6 a).Blocked → IpAddress.Form (.v6 a) ip →
        WebhookUrl.isBlockedIp rt ip = true) ∧
      ∀ (lookup : String → Except Thrown (List String)) (raw : String) (url : Url),
        WebhookUrl.assertSafeWebhookUrl rt lookup raw = .ok url → WebhookUrl.Safe rt lookup url :=
  ⟨WebhookUrl.isBlockedIp_ipv4_iff, fun _ _ hblocked hform =>
    WebhookUrl.isBlockedIp_of_blocked hblocked hform,
    fun _ _ _ h => WebhookUrl.assertSafeWebhookUrl_ok h⟩

/-! ## A sample host -/

/-- A text of decimal digits. -/
def IsDecimal (s : String) : Prop := s ≠ "" ∧ s.toList.all Char.isDigit = true

instance (s : String) : Decidable (IsDecimal s) := inferInstanceAs (Decidable (_ ∧ _))

/-- A colon makes an IPv6 address, and four decimal parts make an IPv4 address. -/
def sampleIsIP (text : String) : ℕ :=
  if ':' ∈ text.toList then 6
  else if (splitText '.' text).length = 4 ∧ (splitText '.' text).all (IsDecimal ·) then 4
  else 0

theorem isDecimal_toDigits (n : ℕ) : IsDecimal (String.ofList (Nat.toDigits 10 n)) := by
  constructor
  · intro hempty
    have hnil := congrArg String.toList hempty
    rw [String.toList_ofList] at hnil
    exact Nat.toDigits_ne_nil hnil
  · rw [String.toList_ofList, List.all_eq_true]
    intro ch hch
    exact Nat.isDigit_of_mem_toDigits (by decide) (by decide) hch

theorem sampleIsIP_ipv4 (a : BitVec 32) : sampleIsIP (ipv4Text a) = 4 := by
  have hcolon : ':' ∉ (ipv4Text a).toList := by
    intro hmem
    rcases isDigit_or_dot_of_mem hmem with h | h
    · exact absurd h (by decide)
    · exact absurd h (by decide)
  unfold sampleIsIP splitText
  rw [if_neg hcolon, splitOn_ipv4Text, List.map_map]
  refine if_pos ⟨rfl, List.all_eq_true.2 fun part hpart => ?_⟩
  obtain ⟨n, -, rfl⟩ := List.mem_map.1 hpart
  exact decide_eq_true (isDecimal_toDigits n)

theorem sampleIsIP_ipv6 {a : BitVec 128} {text : String} (h : IpAddress.Form (.v6 a) text) :
    sampleIsIP text = 6 := by
  apply if_pos
  have hcolon : ':' ∈ ipv6Chars (groups a) := colon_mem_ipv6Chars _ _ _
  cases h with
  | lower =>
    unfold ipv6Text
    rwa [String.toList_ofList]
  | upper =>
    unfold IpAddress.upperText ipv6Text
    rw [String.toList_ofList, String.toList_ofList]
    exact List.mem_map.2 ⟨':', hcolon, rfl⟩
  | mappedLower => simp
  | mappedUpper => simp

def sampleUrls : UrlRuntime where
  isIP := sampleIsIP
  number text := if IsDecimal text then .finite (Nat.ofDigitChars 10 text.toList 0) else .nan
  toLowerCase s := String.ofList (s.toList.map Char.toLower)
  parseUrl raw := if raw = "https://example.com/hook" then some ⟨"https:", "example.com"⟩ else none
  isIP_ipv4 := sampleIsIP_ipv4
  isIP_ipv6 _ _ := sampleIsIP_ipv6
  number_decimal n _ := by
    rw [if_pos (isDecimal_toDigits n), String.toList_ofList, Nat.ofDigitChars_ten_toDigits]
  toLowerCase_ascii _ _ := rfl
  parseUrl_literal raw url h hliteral := by
    split at h
    · obtain rfl := Option.some.inj h
      exact absurd (by decide +kernel) hliteral
    · cases h

/-- A host with a public address is safe. -/
theorem webhookUrls_safe_example : WebhookUrl.Safe sampleUrls (fun _ => .ok ["93.184.215.14"])
    ⟨"https:", "example.com"⟩ :=
  (webhookUrls_safe sampleUrls).2.2 _ "https://example.com/hook" _ (by decide +kernel)

end BookingPlatform
