import Mathlib.Data.List.Basic
import Sentinel.Python.Base64
import Sentinel.Python.IntText
import Sentinel.Python.Rounding

/-! Slack request signatures. The digest is a parameter. A header is decoded a byte a
character, the clock is a float, and the timestamp is compared with it as a float. -/
namespace Sentinel.Actions
open Python

/-- The text of a header. -/
structure Header where
  text : List Char
  bytes : ∀ c ∈ text, c.toNat < 256

/-- `hmac.new(key, message, hashlib.sha256).hexdigest()`. -/
class HmacSha256 where
  hexdigest : List UInt8 → List UInt8 → List Char
  hexdigest_hex : ∀ key message, ∀ c ∈ hexdigest key message, c ∈ hexDigits

/-- `text.encode()`. -/
def encodeUtf8 (text : List Char) : List UInt8 := text.flatMap String.utf8EncodeChar

def maxSkewS : ℤ := 60 * 5

/-- `v0:{timestamp}:{raw_body}`. -/
def signedBase (timestamp : List Char) (rawBody : List UInt8) : List UInt8 :=
  encodeUtf8 ['v', '0', ':'] ++ encodeUtf8 timestamp ++ encodeUtf8 [':'] ++ rawBody

section
variable [HmacSha256]

def sign (secret timestamp : List Char) (rawBody : List UInt8) : List Char :=
  ['v', '0', '='] ++ HmacSha256.hexdigest (encodeUtf8 secret) (signedBase timestamp rawBody)

def isAscii (text : List Char) : Bool := text.all fun c => c.toNat < 128

/-- `hmac.compare_digest` of two strings. -/
def compareDigest (a b : List Char) : Py Bool :=
  if isAscii a && isAscii b then .ok (a == b)
  else .error ⟨"TypeError", "comparing strings with non-ASCII characters is not supported", false⟩

/-- The float difference of the clock and a timestamp is within the window. -/
def withinSkew (now : ℚ) (ts : ℤ) : Bool := |rnd (now - rnd ts)| ≤ maxSkewS

/-- A header that was sent and is not empty. -/
def filled (text : Option (List Char)) : Option (List Char) := text.filter (· ≠ [])

def verifySlack (secret : Option (List Char)) (timestamp signature : Option Header)
    (rawBody : List UInt8) (now : ℚ) : Py Bool :=
  match filled secret, filled (timestamp.map Header.text), filled (signature.map Header.text) with
  | some secret, some timestamp, some signature =>
    match parseInt timestamp with
    | none => .ok false
    | some ts => do
      let stamp ← toFloat ts
      if maxSkewS < |rnd (now - stamp)| then pure false
      else compareDigest (sign secret timestamp rawBody) signature
  | _, _, _ => .ok false

/-- The request is signed with the secret and fresh. -/
def Authentic (secret : Option (List Char)) (timestamp signature : Option Header)
    (rawBody : List UInt8) (now : ℚ) : Prop :=
  ∃ key sent signed ts, secret = some key ∧ key ≠ [] ∧ timestamp = some sent ∧
    signature = some signed ∧ parseInt sent.text = some ts ∧ |now - ts| ≤ maxSkewS ∧
    signed.text = sign key sent.text rawBody

/-- The verification returns, and accepts the authentic requests only and all of them. -/
def VerifiesExactly (secret : Option (List Char)) (timestamp signature : Option Header)
    (rawBody : List UInt8) (now : ℚ) : Prop :=
  ∃ verdict, verifySlack secret timestamp signature rawBody now = .ok verdict ∧
    (verdict = true ↔ Authentic secret timestamp signature rawBody now)

/-- Nothing is missing or empty, and the timestamp is an int. -/
structure Compared (secret : Option (List Char)) (timestamp signature : Option Header)
    (key : List Char) (sent signed : Header) (ts : ℤ) : Prop where
  secret : secret = some key
  keyed : key ≠ []
  timestamp : timestamp = some sent
  signature : signature = some signed
  filled : signed.text ≠ []
  parsed : parseInt sent.text = some ts

/-- The timestamp is in the range of a float, a signature that is compared is ASCII, and
rounding does not move the age of a signed request over the edge of the window. -/
structure Comparable (key timestamp signature : List Char) (rawBody : List UInt8) (now : ℚ)
    (ts : ℤ) : Prop where
  inRange : |ts| < 2 ^ 1024 - 2 ^ 970
  ascii : withinSkew now ts = true → isAscii signature = true
  unmoved : signature = sign key timestamp rawBody →
    (withinSkew now ts = true ↔ |now - ts| ≤ maxSkewS)

theorem isAscii_sign (secret timestamp : List Char) (rawBody : List UInt8) :
    isAscii (sign secret timestamp rawBody) = true := by
  have version : isAscii ['v', '0', '='] = true := by decide
  have digits : isAscii hexDigits = true := by decide
  simp only [isAscii, List.all_eq_true] at version digits ⊢
  intro c member
  rcases List.mem_append.mp member with lead | digit
  · exact version c lead
  · exact digits c (HmacSha256.hexdigest_hex _ _ c digit)

theorem compareDigest_sign {secret timestamp signature : List Char} {rawBody : List UInt8}
    (ascii : isAscii signature = true) :
    compareDigest (sign secret timestamp rawBody) signature =
      .ok (sign secret timestamp rawBody == signature) := by
  rw [compareDigest, isAscii_sign, ascii]
  rfl

section
variable {secret : Option (List Char)} {timestamp signature : Option Header} {rawBody : List UInt8}
  {now : ℚ} {key : List Char} {sent signed : Header} {ts : ℤ}

theorem verifySlack_compared (compared : Compared secret timestamp signature key sent signed ts) :
    verifySlack secret timestamp signature rawBody now =
      if 2 ^ 1024 - 2 ^ 970 ≤ |ts| then
        .error ⟨"OverflowError", "int too large to convert to float", false⟩
      else if withinSkew now ts then compareDigest (sign key sent.text rawBody) signed.text
      else .ok false := by
  obtain ⟨rfl, keyed, rfl, rfl, filledText, parsed⟩ := compared
  have sentText : sent.text ≠ [] := by
    intro empty
    rw [empty] at parsed
    cases parsed
  have full : filled (some key) = some key := by simp [filled, keyed]
  have fullSent : filled (Option.map Header.text (some sent)) = some sent.text := by
    simp [filled, sentText]
  have fullSigned : filled (Option.map Header.text (some signed)) = some signed.text := by
    simp [filled, filledText]
  simp only [verifySlack, full, fullSent, fullSigned, parsed, toFloat]
  split
  · rfl
  · simp only [bind, Except.bind, withinSkew, decide_eq_true_eq, ← not_lt]
    split <;> rfl

omit [HmacSha256] in
theorem filled_eq_some {text : Option (List Char)} {body : List Char}
    (full : filled text = some body) : text = some body ∧ body ≠ [] := by
  obtain ⟨given, nonempty⟩ := Option.filter_eq_some_iff.mp full
  exact ⟨given, of_decide_eq_true nonempty⟩

theorem verifySlack_uncompared
    (none_ : ¬ ∃ key sent signed ts, Compared secret timestamp signature key sent signed ts) :
    verifySlack secret timestamp signature rawBody now = .ok false := by
  unfold verifySlack
  split
  · rename_i key sentText signedText keyed sent signed
    split
    · rfl
    · rename_i ts parsed
      obtain ⟨given, nonempty⟩ := filled_eq_some keyed
      obtain ⟨stamped, -⟩ := filled_eq_some sent
      obtain ⟨signs, signedNonempty⟩ := filled_eq_some signed
      obtain ⟨stamp, stamps, rfl⟩ := Option.map_eq_some_iff.mp stamped
      obtain ⟨mark, marks, rfl⟩ := Option.map_eq_some_iff.mp signs
      exact absurd ⟨key, stamp, mark, ts, given, nonempty, stamps, marks, signedNonempty, parsed⟩ none_
  · rfl

omit [HmacSha256] in
/-- Two comparisons are of the same inputs. -/
theorem Compared.unique {key' : List Char} {sent' signed' : Header} {ts' : ℤ}
    (first : Compared secret timestamp signature key sent signed ts)
    (second : Compared secret timestamp signature key' sent' signed' ts') :
    key = key' ∧ sent = sent' ∧ signed = signed' ∧ ts = ts' := by
  obtain rfl := Option.some.inj (first.secret.symm.trans second.secret)
  obtain rfl := Option.some.inj (first.timestamp.symm.trans second.timestamp)
  obtain rfl := Option.some.inj (first.signature.symm.trans second.signature)
  exact ⟨rfl, rfl, rfl, Option.some.inj (first.parsed.symm.trans second.parsed)⟩

theorem authentic_compared (authentic : Authentic secret timestamp signature rawBody now) :
    ∃ key sent signed ts, Compared secret timestamp signature key sent signed ts ∧
      |now - ts| ≤ maxSkewS ∧ signed.text = sign key sent.text rawBody := by
  obtain ⟨key, sent, signed, ts, given, keyed, stamps, marks, parsed, fresh, same⟩ := authentic
  refine ⟨key, sent, signed, ts, ⟨given, keyed, stamps, marks, ?_, parsed⟩, fresh, same⟩
  rw [same, sign]
  exact List.cons_ne_nil _ _

theorem authentic_iff (compared : Compared secret timestamp signature key sent signed ts) :
    Authentic secret timestamp signature rawBody now ↔
      |now - ts| ≤ maxSkewS ∧ signed.text = sign key sent.text rawBody := by
  constructor
  · intro authentic
    obtain ⟨_, _, _, _, other, fresh, same⟩ := authentic_compared authentic
    obtain ⟨rfl, rfl, rfl, rfl⟩ := compared.unique other
    exact ⟨fresh, same⟩
  · rintro ⟨fresh, same⟩
    exact ⟨key, sent, signed, ts, compared.secret, compared.keyed, compared.timestamp,
      compared.signature, compared.parsed, fresh, same⟩

theorem verifiesExactly_iff (compared : Compared secret timestamp signature key sent signed ts) :
    VerifiesExactly secret timestamp signature rawBody now ↔
      Comparable key sent.text signed.text rawBody now ts := by
  rw [VerifiesExactly, verifySlack_compared compared, authentic_iff compared]
  by_cases large : 2 ^ 1024 - 2 ^ 970 ≤ |ts|
  · rw [if_pos large]
    constructor
    · rintro ⟨_, returned, -⟩
      cases returned
    · intro comparable
      exact absurd large (not_le.mpr comparable.inRange)
  rw [if_neg large]
  cases near : withinSkew now ts with
  | false =>
    constructor
    · rintro ⟨_, ⟨⟩, exactly⟩
      refine ⟨not_le.mp large, fun within => ?_, fun same => ?_⟩
      · rw [near] at within
        cases within
      · have stale : ¬ |now - ts| ≤ maxSkewS := fun fresh => by simpa using exactly.mpr ⟨fresh, same⟩
        simp [near, stale]
    · intro comparable
      refine ⟨false, rfl, ?_⟩
      constructor
      · rintro ⟨⟩
      · rintro ⟨fresh, same⟩
        have within := (comparable.unmoved same).mpr fresh
        rwa [near] at within
  | true =>
    rw [if_pos rfl]
    constructor
    · rintro ⟨verdict, returned, exactly⟩
      have ascii : isAscii signed.text = true := by
        by_contra odd
        rw [Bool.not_eq_true] at odd
        rw [compareDigest, odd, Bool.and_false] at returned
        cases returned
      rw [compareDigest_sign ascii] at returned
      obtain rfl := Except.ok.inj returned
      refine ⟨not_le.mp large, fun _ => ascii, fun same => ?_⟩
      have accepted := exactly.mp (by simp [same])
      simp [near, accepted.1]
    · intro comparable
      refine ⟨_, compareDigest_sign (comparable.ascii near), ?_⟩
      rw [beq_iff_eq]
      constructor
      · intro same
        exact ⟨(comparable.unmoved same.symm).mp near, same.symm⟩
      · rintro ⟨-, same⟩
        exact same.symm

end

/-! ### One signature, one request -/

/-- No key signs two messages alike. -/
def HmacCollisionFree : Prop := ∀ key, Function.Injective (HmacSha256.hexdigest key)

omit [HmacSha256] in
theorem encodeUtf8_injective : Function.Injective encodeUtf8 := by
  intro a b same
  have encoded : a.utf8Encode = b.utf8Encode := congrArg List.toByteArray same
  have decoded := congrArg ByteArray.utf8Decode? encoded
  rw [List.utf8Decode?_utf8Encode, List.utf8Decode?_utf8Encode] at decoded
  simpa using decoded

omit [HmacSha256] in
/-- Only a colon is written with the byte of a colon. -/
theorem colon_notMem_encodeUtf8 {text : List Char} (bytes : ∀ c ∈ text, c.toNat < 256)
    (colonless : ':' ∉ text) : 0x3a ∉ encodeUtf8 text := by
  have each : ∀ n < 256, n ≠ 0x3a → 0x3a ∉ String.utf8EncodeChar (Char.ofNat n) := by
    decide +kernel
  intro member
  obtain ⟨c, inText, inCode⟩ := List.mem_flatMap.mp member
  refine each c.toNat (bytes c inText) (fun colon => ?_) (by rwa [Char.ofNat_toNat])
  have same : c = ':' := by rw [← Char.ofNat_toNat c, colon]
  exact colonless (same ▸ inText)

omit [HmacSha256] in
/-- What stands before the first separator is determined. -/
theorem append_separator_inj {α : Type} {separator : α} {before before' after after' : List α}
    (absent : separator ∉ before) (absent' : separator ∉ before')
    (same : before ++ separator :: after = before' ++ separator :: after') :
    before = before' ∧ after = after' := by
  classical
  have cut {l : List α} (free : separator ∉ l) (rest : List α) :
      (l ++ separator :: rest).takeWhile (· ≠ separator) = l := by
    have inside : ∀ a ∈ l, (decide (a ≠ separator)) = true := by
      intro a member
      rw [decide_eq_true_eq]
      rintro rfl
      exact free member
    rw [List.takeWhile_append_of_pos inside]
    simp
  have texts := congrArg (List.takeWhile (· ≠ separator)) same
  rw [cut absent, cut absent'] at texts
  obtain rfl := texts
  exact ⟨rfl, (List.cons.inj (List.append_cancel_left same)).2⟩

omit [HmacSha256] in
/-- A timestamp that is an int ends at the colon after it. -/
theorem signedBase_injective {sent sent' : Header} {ts ts' : ℤ} {body body' : List UInt8}
    (parsed : parseInt sent.text = some ts) (parsed' : parseInt sent'.text = some ts')
    (same : signedBase sent.text body = signedBase sent'.text body') :
    sent.text = sent'.text ∧ body = body' := by
  have colonless {header : Header} {n : ℤ} (read : parseInt header.text = some n) :
      0x3a ∉ encodeUtf8 header.text := by
    refine colon_notMem_encodeUtf8 header.bytes fun colon => ?_
    exact absurd (isIntChar_of_parseInt read _ colon) (by decide)
  have colon : encodeUtf8 [':'] = [0x3a] := by decide
  simp only [signedBase, colon, List.append_assoc, List.append_cancel_left_eq,
    List.singleton_append] at same
  obtain ⟨texts, bodies⟩ := append_separator_inj (colonless parsed) (colonless parsed') same
  exact ⟨encodeUtf8_injective texts, bodies⟩

/-- What is accepted has the signature of its timestamp and body. -/
theorem accepted_signed {secret : Option (List Char)} {sent signed : Header} {rawBody : List UInt8}
    {now : ℚ} (accepted : verifySlack secret (some sent) (some signed) rawBody now = .ok true) :
    ∃ key ts, secret = some key ∧ parseInt sent.text = some ts ∧
      signed.text = sign key sent.text rawBody := by
  by_cases compares : ∃ key sent' signed' ts,
      Compared secret (some sent) (some signed) key sent' signed' ts
  · obtain ⟨key, sent', signed', ts, compared⟩ := compares
    obtain rfl := Option.some.inj compared.timestamp
    obtain rfl := Option.some.inj compared.signature
    refine ⟨key, ts, compared.secret, compared.parsed, ?_⟩
    rw [verifySlack_compared compared] at accepted
    split_ifs at accepted
    · rw [compareDigest] at accepted
      split_ifs at accepted
      exact (beq_iff_eq.mp (Except.ok.inj accepted)).symm
    · cases accepted
  · rw [verifySlack_uncompared compares] at accepted
    cases accepted

theorem accepted_once (collisionFree : HmacCollisionFree) {secret : Option (List Char)}
    {sent sent' signed : Header} {body body' : List UInt8} {now now' : ℚ}
    (first : verifySlack secret (some sent) (some signed) body now = .ok true)
    (second : verifySlack secret (some sent') (some signed) body' now' = .ok true) :
    sent.text = sent'.text ∧ body = body' := by
  obtain ⟨key, ts, given, parsed, marked⟩ := accepted_signed first
  obtain ⟨key', ts', given', parsed', marked'⟩ := accepted_signed second
  obtain rfl := Option.some.inj (given.symm.trans given')
  rw [marked, sign, sign] at marked'
  exact signedBase_injective parsed parsed' (collisionFree _ (List.append_cancel_left marked'))

/-- What verification is exact on. -/
def Verifiable (secret : Option (List Char)) (timestamp signature : Option Header)
    (rawBody : List UInt8) (now : ℚ) : Prop :=
  ∀ key sent signed ts, Compared secret timestamp signature key sent signed ts →
    Comparable key sent.text signed.text rawBody now ts

/-- Verification is exact on the inputs that compare well, and a signature is accepted for
one timestamp and body only. -/
theorem verify_slack_exact_iff :
    (∀ (secret : Option (List Char)) (timestamp signature : Option Header)
      (rawBody : List UInt8) (now : ℚ),
      VerifiesExactly secret timestamp signature rawBody now ↔
        Verifiable secret timestamp signature rawBody now) ∧
    (HmacCollisionFree →
      ∀ (secret : Option (List Char)) (sent sent' signed : Header) (body body' : List UInt8)
        (now now' : ℚ), verifySlack secret (some sent) (some signed) body now = .ok true →
        verifySlack secret (some sent') (some signed) body' now' = .ok true →
          sent.text = sent'.text ∧ body = body') := by
  refine ⟨fun secret timestamp signature rawBody now => ?_, fun collisionFree => ?_⟩
  · by_cases compares : ∃ key sent signed ts, Compared secret timestamp signature key sent signed ts
    · obtain ⟨key, sent, signed, ts, compared⟩ := compares
      rw [verifiesExactly_iff compared]
      constructor
      · intro comparable key' sent' signed' ts' other
        obtain ⟨rfl, rfl, rfl, rfl⟩ := compared.unique other
        exact comparable
      · exact fun verifiable => verifiable key sent signed ts compared
    · constructor
      · intro _ key sent signed ts compared
        exact absurd ⟨key, sent, signed, ts, compared⟩ compares
      · intro _
        refine ⟨false, verifySlack_uncompared compares, ?_⟩
        constructor
        · rintro ⟨⟩
        · intro authentic
          obtain ⟨key, sent, signed, ts, compared, -⟩ := authentic_compared authentic
          exact absurd ⟨key, sent, signed, ts, compared⟩ compares
  · intro secret sent sent' signed body body' now now' first second
    exact accepted_once collisionFree first second

end

/-! ### Clocks -/

/-- A float from 2^9 on is a whole number of ticks of 2^-43. -/
theorem ticks_of_clock {now : ℚ} (float : rnd now = now) (late : 2 ^ 9 ≤ now) :
    ∃ m : ℤ, now = m * 2 ^ (-43 : ℤ) := by
  have positive : 0 < now := lt_of_lt_of_le (by norm_num) late
  have above : 9 ≤ Int.log 2 |now| := by
    rw [abs_of_pos positive]
    exact (Int.zpow_le_iff_le_log one_lt_two positive).mp (by exact_mod_cast late)
  obtain ⟨j, place⟩ : ∃ j : ℕ, Int.log 2 |now| - 52 = -43 + j :=
    ⟨(Int.log 2 |now| - 9).toNat, by omega⟩
  refine ⟨roundEven (now / 2 ^ (Int.log 2 |now| - 52)) * 2 ^ j, ?_⟩
  conv_lhs => rw [← float, rnd, if_neg positive.ne']
  rw [place, zpow_add₀ two_ne_zero, zpow_natCast]
  push_cast
  ring

/-- For a clock between 2^9 and 2^52 seconds rounding moves no timestamp over the edge of
the window. -/
theorem withinSkew_iff {now : ℚ} {ts : ℤ} (float : rnd now = now) (late : 2 ^ 9 ≤ now)
    (early : now < 2 ^ 52) : withinSkew now ts = true ↔ |now - ts| ≤ maxSkewS := by
  have far {x : ℚ} (large : 2 ^ (9 : ℤ) ≤ |x|) : ¬ |x| ≤ maxSkewS ∧ ¬ |rnd x| ≤ maxSkewS := by
    have rounded := two_zpow_le_abs_rnd large
    norm_num [maxSkewS] at large rounded ⊢
    constructor <;> linarith
  rw [withinSkew, decide_eq_true_eq]
  by_cases small : |ts| < 2 ^ 53
  · rw [rnd_intCast small]
    by_cases close : |now - ts| < 2 ^ (9 : ℤ)
    · obtain ⟨m, rfl⟩ := ticks_of_clock float late
      have ticks : (m * 2 ^ (-43 : ℤ) : ℚ) - ts = (m - ts * 2 ^ 43 : ℤ) * 2 ^ (-43 : ℤ) := by
        push_cast
        norm_num
        ring
      have bits : |m - ts * 2 ^ 43| < 2 ^ 53 := by
        rw [ticks, abs_mul] at close
        have scaled : |((m - ts * 2 ^ 43 : ℤ) : ℚ)| < 2 ^ 53 := by
          norm_num at close ⊢
          linarith
        exact_mod_cast scaled
      rw [ticks, rnd_scaled bits]
    · obtain ⟨exact_, rounded⟩ := far (not_lt.mp close)
      exact iff_of_false rounded exact_
  · have huge : (2 : ℚ) ^ (53 : ℤ) ≤ |(ts : ℚ)| := by exact_mod_cast not_lt.mp small
    have apart {x : ℚ} (large : 2 ^ (53 : ℤ) ≤ |x|) : 2 ^ (9 : ℤ) ≤ |now - x| := by
      have triangle := abs_sub_abs_le_abs_sub x now
      rw [abs_sub_comm, abs_of_nonneg (le_trans (by norm_num) late)] at triangle
      norm_num at large early ⊢
      linarith
    exact iff_of_false (far (apart (two_zpow_le_abs_rnd huge))).2 (far (apart huge)).1

/-! ### A signed request -/

def sampleBody : List UInt8 := encodeUtf8 "payload=%7B%7D".toList

def sampleDigest : List Char :=
  "a4486d4e49f577caef17a3b3e57f68dd335b27b9d43a7f578bc867acbf2530bd".toList

theorem sampleDigest_hex : ∀ c ∈ sampleDigest, c ∈ hexDigits := by
  have digits : sampleDigest.all (fun c => hexDigits.contains c) = true := by decide
  simpa only [List.all_eq_true, List.contains_iff_mem] using digits

/-- A digest that is HMAC-SHA256 on one message under one key and keeps all others apart. -/
@[reducible] def pinnedHmac : HmacSha256 where
  hexdigest key message :=
    if key = encodeUtf8 "shh".toList ∧ message = signedBase "1700000000".toList sampleBody then
      sampleDigest
    else '0' :: hexlify message
  hexdigest_hex key message c member := by
    split at member
    · exact sampleDigest_hex c member
    · rcases List.mem_cons.mp member with rfl | digit
      · decide
      · exact hexlify_hex message c digit

theorem pinnedHmac_collisionFree : @HmacCollisionFree pinnedHmac := by
  have odd (message : List UInt8) : ('0' :: hexlify message) ≠ sampleDigest := by
    intro same
    have lengths := congrArg (List.length · % 2) same
    have even : (hexlify message).length % 2 = 0 := by simp [hexlify]
    simp only [List.length_cons] at lengths
    have digest : sampleDigest.length % 2 = 0 := by decide
    omega
  intro key a b same
  simp only [HmacSha256.hexdigest] at same
  split_ifs at same with first second second
  · exact first.2.trans second.2.symm
  · exact absurd same.symm (odd b)
  · exact absurd same (odd a)
  · exact hexlify_injective (List.cons.inj same).2

def sampleHeader (text : List Char) (bytes : (text.all fun c => c.toNat < 256) = true) : Header :=
  ⟨text, by simpa using bytes⟩

def sampleTimestamp : Header := sampleHeader "1700000000".toList (by decide)

theorem sampleTimestamp_parsed : parseInt sampleTimestamp.text = some 1700000000 := by decide

theorem sample_near : withinSkew 1700000000 1700000000 = true := by
  have small : |(1700000000 : ℤ)| < 2 ^ 53 := by norm_num
  have whole : rnd ((1700000000 : ℤ) : ℚ) = 1700000000 := by simpa using rnd_intCast small
  rw [withinSkew, whole, sub_self, rnd, if_pos rfl, abs_zero, decide_eq_true_eq]
  norm_num [maxSkewS]

/-- The sample request with this signature. -/
theorem sample_compared (signature : Header) (nonempty : signature.text ≠ []) :
    Compared (some "shh".toList) (some sampleTimestamp) (some signature) "shh".toList
      sampleTimestamp signature 1700000000 :=
  ⟨rfl, by decide, rfl, rfl, nonempty, sampleTimestamp_parsed⟩

def sampleSignature : Header := sampleHeader ("v0=".toList ++ sampleDigest) (by decide)

theorem sampleSignature_signed :
    sampleSignature.text = @sign pinnedHmac "shh".toList sampleTimestamp.text sampleBody := by
  have digest : pinnedHmac.hexdigest (encodeUtf8 "shh".toList)
      (signedBase sampleTimestamp.text sampleBody) = sampleDigest := if_pos ⟨rfl, rfl⟩
  unfold sign
  rw [digest]
  rfl

theorem signed_request_accepted :
    @verifySlack pinnedHmac (some "shh".toList) (some sampleTimestamp) (some sampleSignature)
        sampleBody 1700000000 = .ok true ∧
    ∀ (sent : Header) (body : List UInt8) (now : ℚ),
      @verifySlack pinnedHmac (some "shh".toList) (some sent) (some sampleSignature) body now =
          .ok true →
        sent.text = sampleTimestamp.text ∧ body = sampleBody := by
  let _ : HmacSha256 := pinnedHmac
  have compared := sample_compared sampleSignature (List.cons_ne_nil _ _)
  have fresh : |(1700000000 : ℚ) - (1700000000 : ℤ)| ≤ maxSkewS := by norm_num [maxSkewS]
  have verifiable : @Verifiable pinnedHmac (some "shh".toList) (some sampleTimestamp)
      (some sampleSignature) sampleBody 1700000000 := by
    intro key sent signed ts other
    obtain ⟨rfl, rfl, rfl, rfl⟩ := compared.unique other
    exact ⟨float_range (by norm_num), fun _ => by decide, fun _ => iff_of_true sample_near fresh⟩
  obtain ⟨verdict, returned, exactly⟩ := (verify_slack_exact_iff.1 _ _ _ _ _).mpr verifiable
  have accepted := exactly.mpr ((authentic_iff compared).mpr ⟨fresh, sampleSignature_signed⟩)
  rw [accepted] at returned
  refine ⟨returned, fun sent body now second => ?_⟩
  exact verify_slack_exact_iff.2 pinnedHmac_collisionFree _ _ _ _ _ _ _ _ second returned

/-- A signature that is not ASCII makes the comparison raise. -/
theorem odd_signature_raises : ¬ ∀ (secret : Option (List Char)) (timestamp signature : Option Header)
    (rawBody : List UInt8) (now : ℚ),
    @VerifiesExactly pinnedHmac secret timestamp signature rawBody now := by
  let _ : HmacSha256 := pinnedHmac
  intro exactly
  have odd := exactly (some "shh".toList) (some sampleTimestamp)
    (some (sampleHeader "v0=é".toList (by decide))) sampleBody 1700000000
  have compared := sample_compared (sampleHeader "v0=é".toList (by decide)) (by decide)
  have ascii := ((verifiesExactly_iff compared).mp odd).ascii sample_near
  revert ascii
  decide

end Sentinel.Actions
