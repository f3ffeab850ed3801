import BookingPlatform.Common.Types
import BookingPlatform.Library.JsString
import Mathlib

/-!
# Webhook Signatures

A webhook carries an HMAC of its content. The text of a signature comes from the network: it is
split, its length is compared in UTF-16 units, and its bytes are compared in constant time by a
primitive that throws on buffers of different lengths.

## Main definitions

- `SepayProvider.verifyWebhook`, `StripeProvider.verifyWebhook`, `WebhookSignature.verifyWebhook`.
- `Decides`: a verification that returns whether a proposition holds.

## Main results

- `signatures_decided_iff`: the verifications decide what they are for exactly if no text that they
  compare has no value, or as many units as the digest but more bytes.
-/

namespace BookingPlatform

open Library

/-! ## Digests -/

/-- A SHA-256 digest in hexadecimal digits. -/
structure HexDigest where
  text : String
  length : text.toList.length = 64
  hex : ∀ ch ∈ text.toList, ch ∈ "0123456789abcdef".toList

/-- What the verifications use of Node and of JavaScript: HMAC-SHA256 of a content with a secret,
`Number(…)` of a text (`none` if it is NaN or infinite), and rounding to the nearest double. -/
structure SignatureRuntime where
  hmac : (secret content : String) → HexDigest
  number : String → Option ℚ
  round : ℚ → ℚ

/-- The settings that the verifications read. -/
structure SignatureEnv where
  sepayWebhookSecret : String
  stripeWebhookSecret : String
  stripeWebhookToleranceSeconds : ℚ

/-- `timingSafeEqual` of the buffers of two texts. -/
def timingSafeEqual (a b : String) : Except Thrown Bool :=
  if byteLength a ≠ byteLength b then .error (.error "Input buffers must have the same byte length")
  else .ok (a.toByteArray = b.toByteArray)

/-- The check of a digest against a signature with or without its scheme. -/
def verifyDigest (expected signature : String) : Except Thrown Bool :=
  let received := stripPrefix "sha256=" signature
  if utf16Length expected ≠ utf16Length received then .ok false
  else timingSafeEqual expected received

section Verifications

variable (rt : SignatureRuntime) (env : SignatureEnv) (now : Instant) (rawBody signature : String)

namespace WebhookSignature

/-- HMAC-SHA256 signature of the raw body, in hexadecimal digits. -/
def signWebhook (secret body : String) : String := (rt.hmac secret body).text

/-- Constant-time check against the exact text that was signed. -/
def verifyWebhook (secret signedContent signature : String) : Except Thrown Bool :=
  verifyDigest (signWebhook rt secret signedContent) signature

end WebhookSignature

def SepayProvider.verifyWebhook : Except Thrown Bool :=
  verifyDigest (rt.hmac env.sepayWebhookSecret rawBody).text signature

namespace StripeProvider

/-- The text of the callback of `received.some(…)`: a value that is undefined has no length. -/
def matchesDigest (expected : String) : Option String → Except Thrown Bool
  | none => .error (.error "Cannot read properties of undefined (reading 'length')")
  | some sig => if utf16Length sig ≠
    utf16Length expected then .ok false else timingSafeEqual sig expected

/-- `received.some(…)`: the first match ends it. -/
def someMatches (expected : String) : List (Option String) → Except Thrown Bool
  | [] => .ok false
  | sig :: received => do
    if ← matchesDigest expected sig then return true
    someMatches expected received

/-- The age of a timestamp in seconds; `none` if it is not finite. -/
def ageSeconds (timestamp : String) : Option ℚ :=
  (rt.number timestamp).map fun n => |rt.round ((now / 1000 : ℤ) - n)|

/-- The signature is stale, or its timestamp is not a number. -/
def stale (timestamp : String) : Bool :=
  match ageSeconds rt now timestamp with
  | none => true
  | some age => env.stripeWebhookToleranceSeconds < age

/-- A signature has a timestamp `t` and one `v1` for each active secret; any match is accepted. -/
def verifyWebhook : Except Thrown Bool :=
  let pairs := (splitText ',' signature).map (splitText '=')
  let timestamp := (pairs.find? fun pair => pair.head? = some "t").bind (·[1]?)
  let received := (pairs.filter fun pair => pair.head? = some "v1").map (·[1]?)
  match timestamp with
  | none => .ok false
  | some timestamp =>
    if timestamp = "" ∨ received.length = 0 then .ok false
    else if stale rt env now timestamp then .ok false
    else
      someMatches (rt.hmac env.stripeWebhookSecret (timestamp ++ "." ++ rawBody)).text received

end StripeProvider

end Verifications

/-! ## What the verifications are for -/

/-- The verification returns whether `P` holds; in particular it does not throw. -/
def Decides (result : Except Thrown Bool) (P : Prop) : Prop := ∃ b, result = .ok b ∧ (b = true ↔ P)

/-- The signature is the digest, with or without its scheme. -/
def IsSignature (expected signature : String) : Prop :=
  signature = expected ∨ signature = "sha256=" ++ expected

/-- The buffers of the text and of a digest differ in length although the texts do not: it has 64
units, and they are not all ASCII. -/
def Overlong (received : String) : Prop := utf16Length received = 64 ∧ ¬IsAscii received

instance (received : String) : Decidable (Overlong received) := inferInstanceAs (Decidable (_ ∧ _))

namespace StripeProvider

variable (rt : SignatureRuntime) (env : SignatureEnv) (now : Instant) (rawBody signature : String)

/-- The value of the first element with the key. -/
def firstValue (key : String) : Option String :=
  ((splitText ',' signature).find? (fieldKey · = key)).bind fieldValue

/-- The values of the elements with the key; an element without `=` has none. -/
def values (key : String) : List (Option String) :=
  ((splitText ',' signature).filter (fieldKey · = key)).map fieldValue

/-- The timestamp is a number of seconds that is within the tolerance of the clock. -/
def Fresh (timestamp : String) : Prop :=
  ∃ n, rt.number timestamp =
    some n ∧ |rt.round ((now / 1000 : ℤ) - n)| ≤ env.stripeWebhookToleranceSeconds

/-- The digest that a `v1` element has to have. -/
def digest (timestamp : String) : String :=
  (rt.hmac env.stripeWebhookSecret (timestamp ++ "." ++ rawBody)).text

/-- The first timestamp is fresh, and some `v1` element has the digest. -/
def Authentic : Prop :=
  ∃ timestamp, firstValue signature "t" = some timestamp ∧ timestamp ≠ "" ∧
    Fresh rt env now timestamp ∧
    some (digest rt env rawBody timestamp) ∈ values signature "v1"

/-- A `v1` element has no value, or one that is too long as a buffer. -/
def Unreadable (value : Option String) : Prop :=
  ∀ received, value = some received → Overlong received

/-- If the first timestamp is fresh, then every unreadable `v1` element comes after one that
matches. -/
def Readable : Prop :=
  ∀ timestamp, firstValue signature "t" = some timestamp → timestamp ≠ "" →
    Fresh rt env now timestamp →
    ∀ before value after, values signature "v1" = before ++ value :: after → Unreadable value →
      some (digest rt env rawBody timestamp) ∈ before

end StripeProvider

/-! ## Comparing digests -/

theorem HexDigest.isAscii (d : HexDigest) : IsAscii d.text := by
  intro ch hch
  have hhex : ∀ ch ∈ "0123456789abcdef".toList, ch.toNat < 128 := by simp
  exact hhex ch (d.hex ch hch)

/-- An ASCII text has as many units as characters. -/
theorem utf16Length_of_isAscii {s : String} (h : IsAscii s) : utf16Length s = s.toList.length := by
  have hsizes : s.toList.map utf16Size = s.toList.map fun _ => 1 := by
    apply List.map_congr_left
    intro ch hch
    have hlt := h ch hch
    exact if_pos (by omega)
  unfold utf16Length
  rw [hsizes]
  simp

theorem HexDigest.utf16Length (d : HexDigest) : utf16Length d.text = 64 := by
  rw [utf16Length_of_isAscii d.isAscii, d.length]

theorem HexDigest.byteLength (d : HexDigest) : byteLength d.text = 64 := by
  rw [(byteLength_eq_iff _).2 d.isAscii, d.utf16Length]

theorem HexDigest.not_overlong (d : HexDigest) : ¬Overlong d.text := fun h => h.2 d.isAscii

/-- Buffers of a digest's length are compared. -/
theorem timingSafeEqual_eq {a b : String} (h : byteLength a = byteLength b) :
    timingSafeEqual a b = .ok (decide (a = b)) := by
  unfold timingSafeEqual
  rw [if_neg (not_not.2 h)]
  simp only [String.toByteArray_inj]

theorem timingSafeEqual_error {a b : String} (h : byteLength a ≠ byteLength b) :
    timingSafeEqual a b = .error (.error "Input buffers must have the same byte length") := if_pos h

/-- A text of 64 units has 64 bytes unless it is overlong. -/
theorem byteLength_of_not_overlong {received : String} (hlength : utf16Length received = 64) :
    byteLength received = 64 ↔ ¬Overlong received := by
  have hascii := byteLength_eq_iff received
  rw [hlength] at hascii
  rw [hascii]
  unfold Overlong
  tauto

/-- The text after the scheme is a digest exactly if the text is a signature. -/
theorem stripPrefix_eq_iff (d : HexDigest) (signature : String) :
    stripPrefix "sha256=" signature = d.text ↔ IsSignature d.text signature := by
  -- a digest has no `s`
  have hscheme : ∀ rest : String, d.text ≠ "sha256=" ++ rest := by
    intro rest heq
    have hs : 's' ∈ d.text.toList := by
      rw [heq, String.toList_append]
      exact List.mem_append_left _ (by decide)
    exact absurd (d.hex 's' hs) (by decide)
  unfold IsSignature
  rcases stripPrefix_cases "sha256=" signature with hsignature | ⟨hsame, hnot⟩
  · constructor
    · intro heq
      exact .inr (by rw [← heq, ← hsignature])
    · rintro (heq | heq)
      · exact absurd (heq.symm.trans hsignature) (hscheme _)
      · rw [heq] at hsignature ⊢
        exact ((String.append_right_inj _).1 hsignature).symm
  · rw [hsame]
    constructor
    · exact .inl
    · rintro (heq | heq)
      · exact heq
      · exact absurd heq (hnot _)

section Decisions

variable {rt : SignatureRuntime} {env : SignatureEnv} {now : Instant} {rawBody signature : String}

theorem not_decides_error {e : Thrown} {P : Prop} : ¬Decides (.error e) P := by
  rintro ⟨b, hb, -⟩
  cases hb

/-- The check of a digest decides whether the text is a signature exactly if it has no text to
compare that is overlong. -/
theorem verifyDigest_decides_iff (d : HexDigest) :
    Decides (verifyDigest d.text signature) (IsSignature d.text signature) ↔
      ¬Overlong (stripPrefix "sha256=" signature) := by
  rw [← stripPrefix_eq_iff]
  unfold verifyDigest
  dsimp only
  generalize stripPrefix "sha256=" signature = received
  rw [d.utf16Length]
  by_cases hlength : 64 ≠ utf16Length received
  · -- another length than the digest's: false, and rightly so
    rw [if_pos hlength]
    have hne : received ≠ d.text := by
      rintro rfl
      exact hlength d.utf16Length.symm
    exact iff_of_true ⟨false, rfl, by simp [hne]⟩ fun h => hlength h.1.symm
  · rw [if_neg hlength]
    have hunits : utf16Length received = 64 := (not_not.1 hlength).symm
    have hbytes := byteLength_of_not_overlong hunits
    -- `timingSafeEqual` compares bytes, of which there may be more than units
    by_cases hequal : byteLength received = 64
    · rw [timingSafeEqual_eq (d.byteLength.trans hequal.symm)]
      exact iff_of_true ⟨_, rfl, by simp [eq_comm]⟩ (hbytes.1 hequal)
    · have hdiffer : byteLength d.text ≠ byteLength received := by
        rw [d.byteLength]
        exact Ne.symm hequal
      rw [timingSafeEqual_error hdiffer]
      exact iff_of_false not_decides_error (mt hbytes.2 hequal)

namespace StripeProvider

theorem matchesDigest_of_readable (d : HexDigest) {value : Option String} (h : ¬Unreadable value) :
    matchesDigest d.text value = .ok (decide (value = some d.text)) := by
  cases value with
  | none => exact absurd nofun h
  | some received =>
    have hnot : ¬Overlong received := by
      intro hover
      apply h
      intro text htext
      obtain rfl := Option.some.inj htext
      exact hover
    rw [matchesDigest, d.utf16Length]
    -- with the length of a digest it has as many bytes, too
    by_cases hunits : utf16Length received = 64
    · have hbytes := (byteLength_of_not_overlong hunits).2 hnot
      rw [if_neg (not_not.2 hunits), timingSafeEqual_eq (hbytes.trans d.byteLength.symm)]
      simp
    · have hne : received ≠ d.text := by
        rintro rfl
        exact hunits d.utf16Length
      rw [if_pos hunits]
      simp [hne]

theorem matchesDigest_of_unreadable (d : HexDigest) {value : Option String} (h : Unreadable value) :
    ∃ e, matchesDigest d.text value = .error e := by
  cases value with
  | none => exact ⟨_, rfl⟩
  | some received =>
    have hover := h received rfl
    have hdiffer : byteLength received ≠ byteLength d.text := by
      rw [d.byteLength]
      exact fun heq => (byteLength_of_not_overlong hover.1).1 heq hover
    rw [matchesDigest, d.utf16Length, if_neg (not_not.2 hover.1), timingSafeEqual_error hdiffer]
    exact ⟨_, rfl⟩

/-- The search for a match decides whether there is one exactly if every unreadable value comes
after one. -/
theorem someMatches_decides_iff (d : HexDigest) (received : List (Option String)) :
    Decides (someMatches d.text received) (some d.text ∈ received) ↔
      ∀ before value after, received = before ++ value :: after → Unreadable value →
        some d.text ∈ before := by
  induction received with
  | nil =>
    refine iff_of_true ⟨false, rfl, by simp⟩ ?_
    intro before value after heq
    cases before <;> cases heq
  | cons first received ih =>
    by_cases hfirst : Unreadable first
    · -- the search throws at the first value
      obtain ⟨e, herror⟩ := matchesDigest_of_unreadable d hfirst
      refine iff_of_false ?_ fun hall => absurd (hall [] first received rfl hfirst) List.not_mem_nil
      unfold someMatches
      rw [herror]
      exact not_decides_error
    · have hmatch := matchesDigest_of_readable d hfirst
      by_cases heq : first = some d.text
      · -- the search ends at the first value
        refine iff_of_true ⟨true, ?_, by simp [heq]⟩ ?_
        · unfold someMatches
          rw [hmatch, decide_eq_true heq]
          rfl
        · intro before value after hsplit hvalue
          cases before with
          | nil =>
            obtain ⟨rfl, -⟩ := List.cons.inj hsplit
            exact absurd hvalue hfirst
          | cons head before =>
            obtain ⟨rfl, -⟩ := List.cons.inj hsplit
            rw [heq]
            exact List.mem_cons_self ..
      · have hnext : someMatches d.text (first :: received) = someMatches d.text received := by
          rw [someMatches, hmatch, decide_eq_false heq]
          rfl
        have hmem : some d.text ∈ first :: received ↔ some d.text ∈ received := by
          rw [List.mem_cons]
          exact or_iff_right (Ne.symm heq)
        rw [hnext, hmem, ih]
        constructor
        · intro hall before value after hsplit hvalue
          cases before with
          | nil =>
            obtain ⟨rfl, -⟩ := List.cons.inj hsplit
            exact absurd hvalue hfirst
          | cons head before =>
            obtain ⟨-, hrest⟩ := List.cons.inj hsplit
            exact List.mem_cons_of_mem _ (hall before value after hrest hvalue)
        · intro hall before value after hsplit hvalue
          have hin := hall (first :: before) value after (by rw [hsplit, List.cons_append]) hvalue
          exact (List.mem_cons.1 hin).resolve_left (Ne.symm heq)

theorem find_pairs (key : String) :
    (((splitText ',' signature).map (splitText '=')).find? fun pair =>
      pair.head? = some key).bind (·[1]?) =
      firstValue signature key := by
  unfold firstValue
  rw [List.find?_map]
  simp only [Function.comp_def, head_splitText, Option.some.injEq]
  cases (splitText ',' signature).find? fun e => fieldKey e = key with
  | none => rfl
  | some e => exact second_splitText e

theorem filter_pairs (key : String) :
    (((splitText ',' signature).map (splitText '=')).filter fun pair =>
      pair.head? = some key).map (·[1]?) =
      values signature key := by
  unfold values
  rw [List.filter_map, List.map_map]
  simp only [Function.comp_def, head_splitText, second_splitText, Option.some.injEq]

theorem stale_eq_false_iff {timestamp : String} :
    stale rt env now timestamp = false ↔ Fresh rt env now timestamp := by
  unfold stale ageSeconds Fresh
  cases rt.number timestamp with
  | none => simp
  | some n => simp

/-- Verification decides whether the signature is authentic exactly if it is readable. -/
theorem verifyWebhook_decides_iff :
    Decides (verifyWebhook rt env now rawBody signature) (Authentic rt env now rawBody signature) ↔
      Readable rt env now rawBody signature := by
  unfold verifyWebhook Authentic Readable
  simp only [find_pairs, filter_pairs]
  -- without a timestamp nothing is compared
  cases htimestamp : firstValue signature "t" with
  | none => exact iff_of_true ⟨false, rfl, by simp⟩ (by simp)
  | some timestamp =>
    simp only [Option.some.injEq, exists_eq_left', forall_eq']
    by_cases hempty : timestamp = ""
    · exact iff_of_true ⟨false, by simp [hempty], by simp [hempty]⟩ fun h => absurd hempty h
    · by_cases hfresh : Fresh rt env now timestamp
      · have hstale := stale_eq_false_iff.2 hfresh
        -- a fresh timestamp: the result is that of the comparisons
        have hresult : (if timestamp = "" ∨ (values signature "v1").length = 0 then Except.ok false
            else if stale rt env now timestamp then .ok false
            else someMatches (digest rt env rawBody timestamp) (values signature "v1")) =
              someMatches (digest rt env rawBody timestamp) (values signature "v1") := by
          by_cases hnone : values signature "v1" = []
          · simp [hnone, someMatches]
          · simp [hempty, hnone, hstale]
        have hdecides := someMatches_decides_iff
          (rt.hmac env.stripeWebhookSecret (timestamp ++ "." ++ rawBody)) (values signature "v1")
        change Decides (if _ then _ else if _ then _ else someMatches
          (digest rt env rawBody timestamp) _) _ ↔ _
        rw [hresult]
        simpa [hempty, hfresh, digest] using hdecides
      · -- a stale one is refused before any signature is read
        have hstale : stale rt env now timestamp = true := by
          rw [← Bool.not_eq_false, stale_eq_false_iff]
          exact hfresh
        refine iff_of_true ⟨false, ?_, by simp [hfresh]⟩ fun _ h => absurd h hfresh
        simp [hstale]

end StripeProvider

end Decisions

/-- Each verification decides what it is for exactly if the texts that it compares are readable. -/
theorem signatures_decided_iff (rt : SignatureRuntime) (env : SignatureEnv) (secret : String)
    (now : Instant) (rawBody signature : String) :
    (Decides (StripeProvider.verifyWebhook rt env now rawBody signature)
        (StripeProvider.Authentic rt env now rawBody signature) ↔
      StripeProvider.Readable rt env now rawBody signature) ∧
    (Decides (SepayProvider.verifyWebhook rt env rawBody signature)
        (IsSignature (rt.hmac env.sepayWebhookSecret rawBody).text signature) ↔
      ¬Overlong (stripPrefix "sha256=" signature)) ∧
    (Decides (WebhookSignature.verifyWebhook rt secret rawBody signature)
        (IsSignature (WebhookSignature.signWebhook rt secret rawBody) signature) ↔
      ¬Overlong (stripPrefix "sha256=" signature)) :=
  ⟨StripeProvider.verifyWebhook_decides_iff, verifyDigest_decides_iff _, verifyDigest_decides_iff _⟩

/-! ## Signatures that make a verification throw -/

def zeroDigest : HexDigest where
  text := String.ofList (List.replicate 64 '0')
  length := by simp
  hex ch hch := by
    rw [String.toList_ofList] at hch
    rw [List.eq_of_mem_replicate hch]
    decide

def zeroRuntime : SignatureRuntime where
  hmac _ _ := zeroDigest
  number text :=
    if text ≠ "" ∧ text.toList.all Char.isDigit then
      some (Nat.ofDigitChars 10 text.toList 0) else none
  round q := q

def zeroEnv : SignatureEnv := ⟨"sepay", "stripe", 300⟩

/-- A `v1` element without a value makes the verification throw. -/
theorem malformed_signatures_throw :
    ¬∀ (rt : SignatureRuntime) (env : SignatureEnv) (secret : String) (now : Instant)
      (rawBody signature : String), (∀ ch ∈ signature.toList, ch.toNat < 256) →
      Decides (StripeProvider.verifyWebhook rt env now rawBody signature)
          (StripeProvider.Authentic rt env now rawBody signature) ∧
        Decides (SepayProvider.verifyWebhook rt env rawBody signature)
          (IsSignature (rt.hmac env.sepayWebhookSecret rawBody).text signature) ∧
        Decides (WebhookSignature.verifyWebhook rt secret rawBody signature)
          (IsSignature (WebhookSignature.signWebhook rt secret rawBody) signature) := by
  intro hall
  obtain ⟨hstripe, -⟩ := hall zeroRuntime zeroEnv "" 0 "" "t=0,v1" (by simp)
  have hreadable := StripeProvider.verifyWebhook_decides_iff.1 hstripe
  have hmem := hreadable "0" (by decide +kernel) (by decide)
    ⟨0, by decide +kernel, by decide +kernel⟩ []
    none [] (by decide +kernel) nofun
  exact absurd hmem List.not_mem_nil

-- all three throw at 64 characters of which one has two bytes
example :
    SepayProvider.verifyWebhook zeroRuntime zeroEnv ""
      (String.ofList ('é' :: List.replicate 63 '0')) =
    .error (.error "Input buffers must have the same byte length") := by decide +kernel

end BookingPlatform
