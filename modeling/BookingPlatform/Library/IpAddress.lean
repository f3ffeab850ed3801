import Mathlib.Algebra.Ring.Nat
import Mathlib.Data.List.Basic
import Mathlib.Data.Nat.Notation

/-!
# IP Addresses

IPv4 addresses in dotted decimal, and IPv6 addresses in their canonical text: eight groups of
hexadecimal digits without leading zeros, of which the longest run of zero groups, if it has more
than one, is written `::`.

## Main definitions

- `InBlock`: the address is in a block of addresses that share a prefix.
- `ipv4Text`, `ipv6Text`: the texts.

## Main results

- `leading_group`: a text starts with the digits of the first group, unless it is zero.
- `ipv6Chars_mapped`: the text of a mapped IPv4 address.
-/

namespace BookingPlatform.Library

/-! ## Blocks -/

/-- The address shares the first `length` bits with the network. -/
def InBlock {w : ℕ} (a : BitVec w) (network length : ℕ) : Prop :=
  a.toNat / 2 ^ (w - length) = network / 2 ^ (w - length)

instance {w : ℕ} (a : BitVec w) (network length : ℕ) : Decidable (InBlock a network length) :=
  inferInstanceAs (Decidable (_ = _))

/-! ## Dotted decimal -/

/-- The four bytes of an address. -/
def octets (a : BitVec 32) : List ℕ :=
  [a.toNat / 2 ^ 24, a.toNat / 2 ^ 16 % 256, a.toNat / 2 ^ 8 % 256, a.toNat % 256]

def ipv4Text (a : BitVec 32) : String :=
  String.ofList (['.'].intercalate ((octets a).map (Nat.toDigits 10)))

/-- The decimal parts of an address. -/
theorem splitOn_ipv4Text (a : BitVec 32) :
    (ipv4Text a).toList.splitOn '.' = (octets a).map (Nat.toDigits 10) := by
  unfold ipv4Text
  rw [String.toList_ofList]
  apply List.splitOn_intercalate
  · intro digits hdigits hdot
    obtain ⟨octet, -, rfl⟩ := List.mem_map.1 hdigits
    exact absurd (Nat.isDigit_of_mem_toDigits (by decide) (by decide) hdot) (by decide)
  · exact List.cons_ne_nil _ _

/-- A text in dotted decimal has digits and dots. -/
theorem isDigit_or_dot_of_mem {a : BitVec 32} {ch : Char} (h : ch ∈ (ipv4Text a).toList) :
    ch.isDigit = true ∨ ch = '.' := by
  unfold ipv4Text octets at h
  rw [String.toList_ofList] at h
  simp only [List.map_cons, List.map_nil, List.intercalate_cons_cons, List.intercalate_singleton,
    List.mem_append, List.mem_singleton] at h
  have hdigit : ∀ n, ch ∈ Nat.toDigits 10 n → ch.isDigit = true := fun n hmem =>
    Nat.isDigit_of_mem_toDigits (by decide) (by decide) hmem
  -- four octets with three dots in between
  rcases h with (h | h) | (h | h) | (h | h) | h
  · exact .inl (hdigit _ h)
  · exact .inr h
  · exact .inl (hdigit _ h)
  · exact .inr h
  · exact .inl (hdigit _ h)
  · exact .inr h
  · exact .inl (hdigit _ h)

/-! ## Canonical text -/

/-- The eight groups of an address. -/
def groups (a : BitVec 128) : List ℕ :=
  (List.range 8).map fun i => a.toNat / 2 ^ (16 * (7 - i)) % 2 ^ 16

/-- The number of zero groups from the position on. -/
def runAt (gs : List ℕ) (i : ℕ) : ℕ := ((gs.drop i).takeWhile (· = 0)).length

/-- Where the first of the longest runs of zero groups starts. -/
def longestRun (gs : List ℕ) : ℕ :=
  ((List.range gs.length).find? fun i =>
    (List.range gs.length).all fun j => runAt gs j ≤ runAt gs i).getD 0

def hexGroups (gs : List ℕ) : List Char := [':'].intercalate (gs.map (Nat.toDigits 16))

/-- The longest run is compressed, if it has more than one group. -/
def ipv6Chars (gs : List ℕ) : List Char :=
  let i := longestRun gs
  let n := runAt gs i
  if n < 2 then hexGroups gs
  else hexGroups (gs.take i) ++ [':', ':'] ++ hexGroups (gs.drop (i + n))

def ipv6Text (a : BitVec 128) : String := String.ofList (ipv6Chars (groups a))

/-- The digits of the first group come first. -/
theorem hexGroups_cons (g : ℕ) (gs : List ℕ) : Nat.toDigits 16 g <+: hexGroups (g :: gs) := by
  unfold hexGroups
  cases gs with
  | nil => simp
  | cons g' gs =>
    rw [List.map_cons, List.map_cons, List.intercalate_cons_cons, List.append_assoc]
    exact List.prefix_append _ _

/-- A text starts with the digits of the first group, unless it is zero. -/
theorem leading_group {g : ℕ} (hg : g ≠ 0) (gs : List ℕ) :
    Nat.toDigits 16 g <+: ipv6Chars (g :: gs) := by
  unfold ipv6Chars
  dsimp only
  split
  · exact hexGroups_cons g gs
  · rename_i hrun
    -- a run does not start at the first group
    cases hstart : longestRun (g :: gs) with
    | zero =>
      rw [hstart] at hrun
      simp [runAt, hg] at hrun
    | succ i =>
      rw [List.take_succ_cons, List.append_assoc]
      exact (hexGroups_cons g _).trans (List.prefix_append _ _)

/-- Five zero groups and `ffff` are the longest run and a group, whatever the last two groups
are. -/
theorem ipv6Chars_mapped (x y : ℕ) : ipv6Chars [0, 0, 0, 0, 0, 0xffff, x, y] =
    "::ffff:".toList ++ Nat.toDigits 16 x ++ ':' :: Nat.toDigits 16 y := by
  have hstart : longestRun [0, 0, 0, 0, 0, 0xffff, x, y] = 0 := by
    unfold longestRun
    by_cases hx : x = 0 <;> by_cases hy : y = 0 <;> simp [hx, hy, List.range_succ, runAt]
  have hrun : runAt [0, 0, 0, 0, 0, 0xffff, x, y] 0 = 5 := by simp [runAt]
  unfold ipv6Chars
  dsimp only
  rw [hstart, hrun]
  have hffff : Nat.toDigits 16 65535 = "ffff".toList := by decide
  simp [hexGroups, List.intercalate_cons_cons, hffff]

/-! ## Digits -/

/-- The digits of a number start with those of its quotient by 16. -/
theorem toDigits_div_append {g : ℕ} (h : 16 ≤ g) :
    Nat.toDigits 16 (g / 16) <+: Nat.toDigits 16 g := by
  rw [Nat.toDigits_of_base_le (by decide) h]
  exact List.prefix_append _ _

theorem toDigits_div_div_append {g : ℕ} (h : 256 ≤ g) :
    Nat.toDigits 16 (g / 256) <+: Nat.toDigits 16 g := by
  have hdiv : g / 256 = g / 16 / 16 := by omega
  rw [hdiv]
  exact (toDigits_div_append (by omega)).trans (toDigits_div_append (by omega))

/-- Lower-case hexadecimal digits and colons. -/
def IsHexChar (ch : Char) : Prop := ch ∈ "0123456789abcdef:".toList

theorem isHexChar_of_mem_toDigits {g : ℕ} {ch : Char} (h : ch ∈ Nat.toDigits 16 g) :
    IsHexChar ch := by
  have hdigit : ∀ d < 16, IsHexChar (Nat.digitChar d) := by
    unfold IsHexChar
    decide
  induction g using Nat.strongRecOn with
  | ind g ih =>
    rw [Nat.toDigits_eq_if (by decide)] at h
    split at h
    · -- a number below 16 has one digit
      rename_i hlt
      obtain rfl := List.mem_singleton.1 h
      exact hdigit g hlt
    · -- otherwise the last digit follows those of the quotient
      rcases List.mem_append.1 h with hmem | hmem
      · exact ih (g / 16) (by omega) hmem
      · obtain rfl := List.mem_singleton.1 hmem
        exact hdigit (g % 16) (Nat.mod_lt _ (by decide))

theorem isHexChar_of_mem_hexGroups {gs : List ℕ} {ch : Char} (h : ch ∈ hexGroups gs) :
    IsHexChar ch := by
  unfold hexGroups at h
  induction gs with
  | nil => simp at h
  | cons g gs ih =>
    cases gs with
    | nil => exact isHexChar_of_mem_toDigits (by simpa using h)
    | cons g' gs =>
      -- a colon stands between the first group and the next
      rw [List.map_cons, List.map_cons, List.intercalate_cons_cons, List.mem_append,
        List.mem_append] at h
      rcases h with (hdigit | hcolon) | hrest
      · exact isHexChar_of_mem_toDigits hdigit
      · obtain rfl := List.mem_singleton.1 hcolon
        unfold IsHexChar
        decide
      · exact ih hrest

theorem isHexChar_of_mem_ipv6Chars {gs : List ℕ} {ch : Char} (h : ch ∈ ipv6Chars gs) :
    IsHexChar ch := by
  unfold ipv6Chars at h
  dsimp only at h
  split at h
  · exact isHexChar_of_mem_hexGroups h
  · rw [List.mem_append, List.mem_append] at h
    rcases h with (hbefore | hcolons) | hafter
    · exact isHexChar_of_mem_hexGroups hbefore
    · have hcolon : ch = ':' := by simpa using hcolons
      rw [hcolon]
      unfold IsHexChar
      decide
    · exact isHexChar_of_mem_hexGroups hafter

/-- The text of several groups has a colon. -/
theorem colon_mem_ipv6Chars (g g' : ℕ) (gs : List ℕ) : ':' ∈ ipv6Chars (g :: g' :: gs) := by
  unfold ipv6Chars
  dsimp only
  split
  · unfold hexGroups
    rw [List.map_cons, List.map_cons, List.intercalate_cons_cons]
    simp
  · simp

/-! ## Texts of a block -/

section Blocks

variable {a : BitVec 128}

theorem groups_eq (a : BitVec 128) : groups a =
    (a.toNat / 2 ^ 112 % 2 ^ 16) :: ((List.range 8).map fun i =>
      a.toNat / 2 ^ (16 * (7 - i)) % 2 ^ 16).tail := by
  rfl

/-- The text of a unique-local address starts with `fc` or `fd`. -/
theorem uniqueLocal_start (h : InBlock a (0xfc00 * 2 ^ 112) 7) :
    ['f', 'c'] <+: ipv6Chars (groups a) ∨ ['f', 'd'] <+: ipv6Chars (groups a) := by
  have hblock : a.toNat / 2 ^ 121 = 0x7e := h
  have hgroup : 0xfc00 ≤ a.toNat / 2 ^ 112 % 2 ^ 16 ∧
    a.toNat / 2 ^ 112 % 2 ^ 16 < 0xfe00 := by omega
  rw [groups_eq]
  generalize a.toNat / 2 ^ 112 % 2 ^ 16 = g at hgroup
  have hprefix := (toDigits_div_div_append (g := g) (by omega)).trans
    (leading_group (by omega) ((List.range 8).map fun i =>
      a.toNat / 2 ^ (16 * (7 - i)) % 2 ^ 16).tail)
  obtain hfc | hfd : g / 256 = 0xfc ∨ g / 256 = 0xfd := by omega
  · rw [hfc] at hprefix
    exact .inl hprefix
  · rw [hfd] at hprefix
    exact .inr hprefix

/-- The text of a link-local address starts with `fe8`, `fe9`, `fea` or `feb`. -/
theorem linkLocal_start (h : InBlock a (0xfe80 * 2 ^ 112) 10) :
    ∃ ch ∈ ['8', '9', 'a', 'b'], ['f', 'e', ch] <+: ipv6Chars (groups a) := by
  have hblock : a.toNat / 2 ^ 118 = 0x3fa := h
  -- the first group has ten fixed bits, so that its first three digits have four values
  have hgroup : 0xfe80 ≤ a.toNat / 2 ^ 112 % 2 ^ 16 ∧
    a.toNat / 2 ^ 112 % 2 ^ 16 < 0xfec0 := by omega
  rw [groups_eq]
  generalize a.toNat / 2 ^ 112 % 2 ^ 16 = g at hgroup
  have hprefix := (toDigits_div_append (g := g) (by omega)).trans
    (leading_group (by omega) ((List.range 8).map fun i =>
      a.toNat / 2 ^ (16 * (7 - i)) % 2 ^ 16).tail)
  obtain h₈ | h₉ | hₐ | hᵦ : g / 16 = 0xfe8 ∨ g / 16 = 0xfe9 ∨ g / 16 = 0xfea ∨
    g / 16 = 0xfeb := by omega
  · rw [h₈] at hprefix
    exact ⟨'8', by decide, hprefix⟩
  · rw [h₉] at hprefix
    exact ⟨'9', by decide, hprefix⟩
  · rw [hₐ] at hprefix
    exact ⟨'a', by decide, hprefix⟩
  · rw [hᵦ] at hprefix
    exact ⟨'b', by decide, hprefix⟩

/-- The text of a mapped IPv4 address starts with `::ffff:`. -/
theorem mapped_start (h : InBlock a (0xffff * 2 ^ 32) 96) :
    "::ffff:".toList <+: ipv6Chars (groups a) := by
  have hblock : a.toNat / 2 ^ 32 = 0xffff := h
  obtain ⟨x, y, hgroups⟩ : ∃ x y, groups a = [0, 0, 0, 0, 0, 0xffff, x, y] := by
    refine ⟨a.toNat / 2 ^ 16 % 2 ^ 16, a.toNat / 2 ^ 0 % 2 ^ 16, ?_⟩
    -- the address is below `2 ^ 48`, and the bits above the IPv4 address are ones
    have h₀ : a.toNat / 2 ^ 112 % 2 ^ 16 = 0 := by omega
    have h₁ : a.toNat / 2 ^ 96 % 2 ^ 16 = 0 := by omega
    have h₂ : a.toNat / 2 ^ 80 % 2 ^ 16 = 0 := by omega
    have h₃ : a.toNat / 2 ^ 64 % 2 ^ 16 = 0 := by omega
    have h₄ : a.toNat / 2 ^ 48 % 2 ^ 16 = 0 := by omega
    have h₅ : a.toNat / 2 ^ 32 % 2 ^ 16 = 0xffff := by omega
    change [a.toNat / 2 ^ 112 % 2 ^ 16, a.toNat / 2 ^ 96 % 2 ^ 16, a.toNat / 2 ^ 80 % 2 ^ 16,
      a.toNat / 2 ^ 64 % 2 ^ 16, a.toNat / 2 ^ 48 % 2 ^ 16, a.toNat / 2 ^ 32 % 2 ^ 16,
      a.toNat / 2 ^ 16 % 2 ^ 16, a.toNat / 2 ^ 0 % 2 ^ 16] = _
    rw [h₀, h₁, h₂, h₃, h₄, h₅]
  rw [hgroups, ipv6Chars_mapped, List.append_assoc]
  exact List.prefix_append _ _

theorem ipv6Text_zero (h : InBlock a 0 128) : ipv6Text a = "::" := by
  have hzero : a = 0 := by
    apply BitVec.eq_of_toNat_eq
    simpa [InBlock] using h
  rw [hzero]
  decide +kernel

theorem ipv6Text_one (h : InBlock a 1 128) : ipv6Text a = "::1" := by
  have hone : a = 1 := by
    apply BitVec.eq_of_toNat_eq
    simpa [InBlock] using h
  rw [hone]
  decide +kernel

end Blocks

end BookingPlatform.Library
