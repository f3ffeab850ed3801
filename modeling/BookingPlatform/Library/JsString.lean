import Mathlib.Algebra.Ring.Nat
import Mathlib.Data.List.Basic
import Mathlib.Data.Nat.Notation

/-!
# JavaScript Strings

The length of a JavaScript string counts UTF-16 units, and the length of its text as a buffer counts
bytes in UTF-8. The two agree for ASCII texts only.

## Main definitions

- `utf16Length`: the length of a string.
- `splitText`: `split` with a separator of one character.
- `fieldKey`, `fieldValue`: the first two parts of a text that is split at `=`.

## Main results

- `byteLength_eq_iff`: a text has as many bytes as units exactly if it is ASCII.
- `head_splitText`, `second_splitText`: the first parts of a split.
-/

namespace BookingPlatform.Library

/-! ## Lengths -/

/-- The UTF-16 units of a character. -/
def utf16Size (ch : Char) : ℕ := if ch.toNat < 0x10000 then 1 else 2

/-- `s.length`. -/
def utf16Length (s : String) : ℕ := (s.toList.map utf16Size).sum

/-- `Buffer.from(s).length`. -/
def byteLength (s : String) : ℕ := s.toByteArray.size

/-- All characters are below 128. -/
def IsAscii (s : String) : Prop := ∀ ch ∈ s.toList, ch.toNat < 128

instance (s : String) : Decidable (IsAscii s) := inferInstanceAs (Decidable (∀ ch ∈ s.toList, _))

theorem utf16Size_le (ch : Char) : utf16Size ch ≤ ch.utf8Size := by
  unfold utf16Size
  split
  · exact ch.utf8Size_pos
  · rename_i hlarge
    have hfour : ch.utf8Size = 4 := by
      rw [Char.utf8Size_eq_four_iff, UInt32.lt_iff_toNat_lt]
      have hlt : 0xffff < ch.toNat := by omega
      exact hlt
    omega

theorem utf16Size_eq_iff (ch : Char) : ch.utf8Size = utf16Size ch ↔ ch.toNat < 128 := by
  have hone : ch.utf8Size = 1 ↔ ch.toNat < 128 := by
    rw [Char.utf8Size_eq_one_iff, UInt32.le_iff_toNat_le]
    exact Nat.lt_succ_iff.symm
  unfold utf16Size
  split
  · exact hone
  · rename_i hlarge
    have hfour : ch.utf8Size = 4 := by
      rw [Char.utf8Size_eq_four_iff, UInt32.lt_iff_toNat_lt]
      have hlt : 0xffff < ch.toNat := by omega
      exact hlt
    omega

theorem byteLength_eq_sum (s : String) : byteLength s = (s.toList.map Char.utf8Size).sum := by
  have hencode : ∀ l : List Char, l.utf8Encode.size = (l.map Char.utf8Size).sum := by
    intro l
    induction l with
    | nil => simp
    | cons ch l ih =>
      rw [List.utf8Encode_cons, ByteArray.size_append, ih, List.utf8Encode_singleton]
      simp
  unfold byteLength
  rw [← String.utf8Encode_toList]
  exact hencode s.toList

/-- A text has at least as many bytes as units, and as many exactly if it is ASCII. -/
theorem byteLength_eq_iff (s : String) : byteLength s = utf16Length s ↔ IsAscii s := by
  have hsums : ∀ l : List Char, (l.map utf16Size).sum ≤ (l.map Char.utf8Size).sum ∧
      ((l.map Char.utf8Size).sum = (l.map utf16Size).sum ↔ ∀ ch ∈ l, ch.toNat < 128) := by
    intro l
    induction l with
    | nil => simp
    | cons ch l ih =>
      have hle := utf16Size_le ch
      have heq := utf16Size_eq_iff ch
      obtain ⟨hrest, hascii⟩ := ih
      simp only [List.map_cons, List.sum_cons, List.forall_mem_cons, ← heq, ← hascii]
      omega
  rw [byteLength_eq_sum]
  exact (hsums s.toList).2

/-! ## Splitting -/

/-- `s.split(sep)`. -/
def splitText (sep : Char) (s : String) : List String := (s.toList.splitOn sep).map String.ofList

/-- The text before the first `=`. -/
def fieldKey (s : String) : String := String.ofList (s.toList.takeWhile (· ≠ '='))

/-- The text between the first and the second `=`, if there is one. -/
def fieldValue (s : String) : Option String :=
  if '=' ∈ s.toList then
    some (String.ofList ((s.toList.dropWhile (· ≠ '=')).tail.takeWhile (· ≠ '=')))
  else none

section Split

variable {sep : Char}

/-- A list is split at the first separator. -/
theorem splitOn_eq_cons (l : List Char) : l.splitOn sep =
    l.takeWhile (· ≠ sep) :: if sep ∈ l then (l.dropWhile (· ≠ sep)).tail.splitOn sep else [] := by
  induction l with
  | nil => rfl
  | cons ch l ih =>
    rw [List.splitOn_cons_eq_if_modifyHead]
    by_cases hch : ch = sep
    · subst hch
      simp
    · have hmem : sep ∈ ch :: l ↔ sep ∈ l := by
        rw [List.mem_cons]
        exact or_iff_right (Ne.symm hch)
      rw [if_neg (by simpa using hch), ih]
      simp only [hmem, List.modifyHead_cons, ne_eq, hch, not_false_eq_true, decide_true,
        List.takeWhile_cons_of_pos, List.dropWhile_cons_of_pos]

theorem head_splitText (s : String) : (splitText '=' s).head? = some (fieldKey s) := by
  unfold splitText fieldKey
  rw [splitOn_eq_cons]
  rfl

theorem second_splitText (s : String) : (splitText '=' s)[1]? = fieldValue s := by
  unfold splitText fieldValue
  rw [splitOn_eq_cons]
  split
  · rw [splitOn_eq_cons]
    rfl
  · rfl

end Split

/-! ## Prefixes -/

/-- `s.startsWith(pre)`. -/
def startsWith (pre s : String) : Bool := pre.toList <+: s.toList

/-- `s.endsWith(suf)`. -/
def endsWith (suf s : String) : Bool := suf.toList <:+ s.toList

/-- `s.replace(/^…/, '')` with a literal text. -/
def stripPrefix (pre s : String) : String :=
  match pre.toList.isPrefixOf? s.toList with
  | some rest => String.ofList rest
  | none => s

/-- What is left of a list after a prefix. -/
theorem eq_append_of_isPrefixOf? {l l' rest : List Char} (h : l.isPrefixOf? l' = some rest) :
    l' = l ++ rest := by
  induction l generalizing l' with
  | nil =>
    rw [List.isPrefixOf?] at h
    exact Option.some.inj h
  | cons ch l ih =>
    cases l' with
    | nil => cases h
    | cons ch' l' =>
      rw [List.isPrefixOf?] at h
      split at h
      · rename_i heq
        rw [ih h, List.cons_append, eq_of_beq heq]
      · cases h

/-- A text that starts with the prefix is the prefix and what is left. -/
theorem stripPrefix_cases (pre s : String) :
    (s = pre ++ stripPrefix pre s) ∨ (stripPrefix pre s = s ∧ ∀ rest, s ≠ pre ++ rest) := by
  unfold stripPrefix
  cases hpre : pre.toList.isPrefixOf? s.toList with
  | some rest =>
    left
    rw [← String.toList_inj, eq_append_of_isPrefixOf? hpre]
    simp
  | none =>
    refine .inr ⟨rfl, ?_⟩
    rintro rest rfl
    -- a text with the prefix is found to have it
    have hself : ∀ l l' : List Char, l.isPrefixOf? (l ++ l') = some l' := by
      intro l l'
      induction l with
      | nil => rfl
      | cons ch l ih => simp [List.isPrefixOf?, ih]
    rw [String.toList_append, hself] at hpre
    cases hpre

end BookingPlatform.Library
