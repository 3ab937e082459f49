import TrustLink.Lib.Hex
import TrustLink.Wire

/-!
# Evidence of a dispute

A dispute is raised with the digest of the evidence, which itself stays off chain.  The
bindings hash the evidence, write and read digests in hexadecimal, and check evidence against
a digest that somebody has committed to.  A digest reaches its readers by way of the indexer,
which writes it in hexadecimal on its own.

## Main definitions

* `Platform` — what the bindings find where they run.
* `toHex`, `fromHex` — digests in hexadecimal.
* `hashEvidence`, `verifyEvidence` — hashing evidence and checking it.
* `BytesN32.bytes` — a digest of the contract as bytes.

## Main results

* `fromHex_eq_ok_iff` — **exactly the notations of a digest are read.**
* `fromHex_hexN32` — what the indexer writes is read as the digest of the contract.
* `hashEvidence_bytes_iff` — when the two ways to hash agree.
* `hashFile_textEncode` — a file that holds a text has the digest of the text.
* `verifyEvidence_eq` — evidence passes exactly if it has the digest.

## References

`bindings/src/evidence.ts`.
-/

namespace TrustLink

/-! ### Digests in hexadecimal -/

/-- The length of a digest in bytes. -/
def evidenceHashLength : ℕ := 32

/-- The digest of no evidence. -/
def emptyEvidenceHash : Bytes := List.replicate evidenceHashLength 0

/-- The length of a string in UTF-16 code units. -/
def utf16Length (cs : List Char) : ℕ := (cs.map fun c => if c.toNat < 0x10000 then 1 else 2).sum

/-- A byte in hexadecimal, filled up with a zero. -/
def byteToHex (b : UInt8) : List Char := (Nat.toDigits 16 b.toNat).leftpad 2 '0'

def toHex (hash : Bytes) : String := String.ofList (hash.flatMap byteToHex)

/-- The string without `0x` or `0X` before it. -/
def hexBody : List Char → List Char
  | '0' :: 'x' :: body => body
  | '0' :: 'X' :: body => body
  | body => body

/-- Reads a digest of 32 bytes, with or without `0x` before it. -/
def fromHex (hex : String) : Except String Bytes :=
  let body := hexBody hex.toList
  if utf16Length body ≠ evidenceHashLength * 2 then
    .error ("Evidence hash must be " ++ toString evidenceHashLength ++ " bytes (" ++
      toString (evidenceHashLength * 2) ++ " hex characters), got " ++
      toString (utf16Length body) ++ ".")
  else if ¬ body.all Char.isHexDigit then
    .error "Evidence hash contains non-hexadecimal characters."
  else
    .ok ((List.range evidenceHashLength).map fun i =>
      UInt8.ofNat (Hex.number ((body.drop (i * 2)).take 2)))

def isValidEvidenceHash (value : Bytes) : Bool := value.length = evidenceHashLength

def isEmptyEvidenceHash (value : Bytes) : Bool :=
  value.length = evidenceHashLength && value.all (· = 0)

/-! ### Hashing -/

/-- What evidence is given as. -/
inductive EvidenceInput
  | text (s : String)
  | bytes (bs : Bytes)
deriving DecidableEq

/-- What the bindings find where they run: the digest, the encodings of text, and a second
implementation of the digest, of text and in hexadecimal, for where there is no Web Crypto. -/
structure Platform where
  webCrypto : Bool
  sha256 : Bytes → Bytes
  textEncode : String → Bytes
  textDecode : Bytes → String
  cryptoJs : String → String
  length_sha256 : ∀ bs, (sha256 bs).length = evidenceHashLength
  cryptoJs_eq : ∀ s, cryptoJs s = toHex (sha256 (textEncode s))

namespace Platform

variable (p : Platform)

def toBufferSource : EvidenceInput → Bytes
  | .text s => p.textEncode s
  | .bytes bs => bs

/-- The text that is hashed where there is no Web Crypto. -/
def fallbackText : EvidenceInput → String
  | .text s => s
  | .bytes bs => p.textDecode bs

end Platform

/-- The digest of evidence. -/
def hashEvidence (p : Platform) (input : EvidenceInput) : Except String Bytes :=
  if p.webCrypto then .ok (p.sha256 (p.toBufferSource input))
  else fromHex (p.cryptoJs (p.fallbackText input))

def hashEvidenceHex (p : Platform) (input : EvidenceInput) : Except String String := do
  let hash ← hashEvidence p input
  return toHex hash

def hashFile (p : Platform) (content : Bytes) : Except String Bytes :=
  hashEvidence p (.bytes content)

/-- Checks evidence against a digest. -/
def verifyEvidence (p : Platform) (input : EvidenceInput) (committed : Bytes) :
    Except String Bool :=
  if isValidEvidenceHash committed = false then .ok false
  else do
    let actual ← hashEvidence p input
    return toHex actual == toHex committed

/-! ### Reading and writing -/

section hex

variable {s : String} {bs : Bytes} {cs : List Char} {c : Char}

theorem byteToHex_eq (b : UInt8) :
    byteToHex b = [Hex.digit (b.toNat / 16), Hex.digit (b.toNat % 16)] := by
  have hb := b.toNat_lt
  unfold byteToHex Hex.digit
  by_cases hsmall : b.toNat < 16
  · rw [Nat.toDigits_of_lt_base hsmall, Nat.div_eq_of_lt hsmall, Nat.mod_eq_of_lt hsmall]
    rfl
  · rw [Nat.toDigits_of_base_le (by decide) (by omega),
      Nat.toDigits_of_lt_base (show b.toNat / 16 < 16 by omega)]
    rfl

theorem toHex_eq (bs : Bytes) : toHex bs = String.ofList (Hex.encode bs) := by
  rw [toHex, funext byteToHex_eq]
  rfl

theorem toHex_injective : Function.Injective toHex := by
  intro bs bs' h
  rw [toHex_eq, toHex_eq] at h
  exact Hex.encode_injective (String.ofList_injective h)

/-- The pattern of the bindings is that of a digit. -/
theorem isHexDigit_iff : c.isHexDigit = true ↔ (Hex.value c).isSome = true := by
  have hval : c.isHexDigit = true ↔
      ('0' ≤ c ∧ c ≤ '9') ∨ ('a' ≤ c ∧ c ≤ 'f') ∨ ('A' ≤ c ∧ c ≤ 'F') := by
    simp only [Char.isHexDigit, Char.isDigit, Bool.or_eq_true, Bool.and_eq_true,
      decide_eq_true_eq, or_assoc]
    rfl
  rw [hval]
  unfold Hex.value
  by_cases h₁ : '0' ≤ c ∧ c ≤ '9'
  · simp [h₁]
  · by_cases h₂ : 'a' ≤ c ∧ c ≤ 'f'
    · simp [h₁, h₂]
    · by_cases h₃ : 'A' ≤ c ∧ c ≤ 'F' <;> simp [h₁, h₂, h₃]

/-- A digit takes one code unit. -/
theorem utf16Length_of_digits (h : ∀ c ∈ cs, c.isHexDigit = true) :
    utf16Length cs = cs.length := by
  induction cs with
  | nil => rfl
  | cons c cs ih =>
    obtain ⟨hc, hcs⟩ := List.forall_mem_cons.mp h
    obtain ⟨n, hn⟩ := Option.isSome_iff_exists.mp (isHexDigit_iff.mp hc)
    have hsmall : c.toNat < 0x10000 := (Hex.toNat_lt_of_value hn).trans (by decide)
    have hcons : utf16Length (c :: cs) = 1 + utf16Length cs := by
      simp [utf16Length, hsmall]
    rw [hcons, ih hcs, List.length_cons, Nat.add_comm]

/-- No digest begins with the mark of a notation. -/
theorem hexBody_encode (bs : Bytes) : hexBody (Hex.encode bs) = Hex.encode bs := by
  cases bs with
  | nil => rfl
  | cons b bs =>
    have hne : ∀ n < 16, Hex.digit n ≠ 'x' ∧ Hex.digit n ≠ 'X' := by decide
    obtain ⟨hx, hX⟩ := hne (b.toNat % 16) (Nat.mod_lt _ (by decide))
    rw [Hex.encode_cons]
    unfold hexBody
    split
    · next heq => exact absurd (List.cons.inj (List.cons.inj heq).2).1 hx
    · next heq => exact absurd (List.cons.inj (List.cons.inj heq).2).1 hX
    · rfl

/-- **Exactly the notations of a digest are read**: its digits in any case, with or without the
mark before them. -/
theorem fromHex_eq_ok_iff : fromHex s = .ok bs ↔ bs.length = evidenceHashLength ∧
    (hexBody s.toList).map Char.toLower = Hex.encode bs := by
  unfold fromHex
  constructor
  · intro h
    simp only at h
    split_ifs at h with hlen hdigits
    rw [List.all_eq_true] at hdigits
    rw [not_not, utf16Length_of_digits hdigits, Nat.mul_comm] at hlen
    have hdecode := Hex.decode_eq_range hlen fun c hc => isHexDigit_iff.mp (hdigits c hc)
    rw [Except.ok.inj h] at hdecode
    refine ⟨?_, Hex.decode_eq_some_iff.mp hdecode⟩
    rw [← Except.ok.inj h, List.length_map, List.length_range]
  · rintro ⟨hbytes, hbody⟩
    have hdecode := Hex.decode_eq_some_iff.mpr hbody
    have hvalues := Hex.isSome_value_of_decode hdecode
    have hdigits : ∀ c ∈ hexBody s.toList, c.isHexDigit = true :=
      fun c hc => isHexDigit_iff.mpr (hvalues c hc)
    have hlen : (hexBody s.toList).length = 2 * evidenceHashLength := by
      rw [← List.length_map (f := Char.toLower), hbody, Hex.length_encode, hbytes]
    simp only
    rw [if_neg (by rw [utf16Length_of_digits hdigits, hlen, Nat.mul_comm, not_not]),
      if_neg (by rw [not_not, List.all_eq_true]; exact hdigits)]
    rw [Hex.decode_eq_range hlen hvalues] at hdecode
    rw [Option.some.inj hdecode]

/-- A digest is read back from what it is written as. -/
theorem fromHex_toHex (h : bs.length = evidenceHashLength) : fromHex (toHex bs) = .ok bs := by
  refine fromHex_eq_ok_iff.mpr ⟨h, ?_⟩
  rw [toHex_eq, String.toList_ofList, hexBody_encode]
  exact Hex.decode_eq_some_iff.mp (Hex.decode_encode bs)

/-- Only the placeholder stands for no evidence. -/
theorem isEmptyEvidenceHash_iff : isEmptyEvidenceHash bs = true ↔ bs = emptyEvidenceHash := by
  rw [isEmptyEvidenceHash, emptyEvidenceHash, Bool.and_eq_true, decide_eq_true_eq,
    List.all_eq_true, List.eq_replicate_iff]
  simp only [decide_eq_true_eq]

/-- What is read is a digest. -/
theorem isValid_of_fromHex (h : fromHex s = .ok bs) : isValidEvidenceHash bs = true :=
  decide_eq_true (fromHex_eq_ok_iff.mp h).1

end hex

/-! ### The digest of the contract -/

/-- A digest of the contract as bytes, the highest first. -/
def BytesN32.bytes (h : BytesN32) : Bytes :=
  (List.range evidenceHashLength).map fun i => UInt8.ofNat (h.toNat / 256 ^ (31 - i))

section digests

variable {h h' : BytesN32}

@[simp] theorem BytesN32.length_bytes (h : BytesN32) : h.bytes.length = evidenceHashLength := by
  rw [bytes, List.length_map, List.length_range]

/-- Twice as many places, two at a time. -/
theorem map_range_two_mul {α : Type} (f : ℕ → α) (n : ℕ) :
    (List.range (2 * n)).map f = (List.range n).flatMap fun i => [f (2 * i), f (2 * i + 1)] := by
  induction n with
  | zero => rfl
  | succ n ih =>
    rw [Nat.mul_succ, List.range_succ, List.range_succ, List.map_append, List.map_append, ih,
      List.range_succ, List.flatMap_append, List.append_assoc]
    rfl

/-- **The indexer writes a digest as the bindings do.** -/
theorem hexN32_eq (h : BytesN32) : hexN32 h = toHex h.bytes := by
  rw [toHex_eq, hexN32, show 64 = 2 * 32 from rfl, map_range_two_mul]
  refine congrArg String.ofList ?_
  rw [Hex.encode, BytesN32.bytes, List.flatMap_map]
  refine List.flatMap_congr fun i hi => ?_
  have hi' : i < 32 := List.mem_range.mp hi
  -- The byte in place `i` has the digits in the places `2 * i` and `2 * i + 1`.
  have hpow : (256 : ℕ) ^ (31 - i) = 16 ^ (63 - (2 * i + 1)) := by
    rw [show (256 : ℕ) = 16 ^ 2 from rfl, ← Nat.pow_mul]
    congr 1
    omega
  have hpow' : (16 : ℕ) ^ (63 - 2 * i) = 16 ^ (63 - (2 * i + 1)) * 16 := by
    rw [← Nat.pow_succ]
    congr 1
    omega
  rw [hpow, hpow', ← Nat.div_div_eq_div_mul]
  generalize h.toNat / 16 ^ (63 - (2 * i + 1)) = n
  have hbyte : (UInt8.ofNat n).toNat = n % 256 := UInt8.toNat_ofNat'
  rw [hbyte, hexDigit, hexDigit, Hex.digit, Hex.digit, show n % 256 / 16 = n / 16 % 16 by omega,
    show n % 256 % 16 = n % 16 by omega]

/-- **What the indexer writes is read as the digest of the contract.** -/
theorem fromHex_hexN32 (h : BytesN32) : fromHex (hexN32 h) = .ok h.bytes := by
  rw [hexN32_eq, fromHex_toHex h.length_bytes]

end digests

/-! ### Hashing and checking -/

section hashing

variable {p p' : Platform} {input input' : EvidenceInput} {bs committed : Bytes}

/-- Hashing succeeds on every platform. -/
theorem hashEvidence_eq (p : Platform) (input : EvidenceInput) :
    hashEvidence p input = .ok (p.sha256 (if p.webCrypto then p.toBufferSource input
      else p.textEncode (p.fallbackText input))) := by
  unfold hashEvidence
  split
  · rfl
  · rw [p.cryptoJs_eq, fromHex_toHex (p.length_sha256 _)]

/-- Text has the same digest on every platform. -/
theorem hashEvidence_text (p : Platform) (s : String) :
    hashEvidence p (.text s) = .ok (p.sha256 (p.textEncode s)) := by
  rw [hashEvidence_eq]
  split <;> rfl

/-- **Bytes have their digest where there is Web Crypto, and where there is none exactly if they
have the digest of the text they are decoded to.** -/
theorem hashEvidence_bytes_iff (p : Platform) (bs : Bytes) :
    hashEvidence p (.bytes bs) = .ok (p.sha256 bs) ↔
      p.webCrypto = true ∨ p.sha256 (p.textEncode (p.textDecode bs)) = p.sha256 bs := by
  rw [hashEvidence_eq, Except.ok.injEq]
  cases p.webCrypto with
  | true => exact iff_of_true rfl (.inl rfl)
  | false => simp [Platform.fallbackText]

/-- What is hashed and written is read as the digest. -/
theorem fromHex_of_hashEvidenceHex {s : String} (h : hashEvidenceHex p input = .ok s) :
    fromHex s = hashEvidence p input := by
  unfold hashEvidenceHex at h
  rw [hashEvidence_eq] at h ⊢
  rw [← Except.ok.inj h, fromHex_toHex (p.length_sha256 _)]

/-- A file that holds a text has the digest of the text, wherever texts survive the decoding. -/
theorem hashFile_textEncode {s : String}
    (h : p.webCrypto = true ∨ p.textDecode (p.textEncode s) = s) :
    hashFile p (p.textEncode s) = hashEvidence p (.text s) := by
  rw [hashEvidence_text, hashFile, hashEvidence_bytes_iff]
  exact h.imp_right fun hdecode => by rw [hdecode]

theorem length_of_hashEvidence (h : hashEvidence p input = .ok bs) :
    bs.length = evidenceHashLength := by
  rw [hashEvidence_eq] at h
  rw [← Except.ok.inj h]
  exact p.length_sha256 _

/-- **Evidence passes exactly if it has the digest**; no check fails. -/
theorem verifyEvidence_eq (p : Platform) (input : EvidenceInput) (committed : Bytes) :
    verifyEvidence p input committed = .ok (decide (hashEvidence p input = .ok committed)) := by
  obtain ⟨actual, hactual⟩ : ∃ actual, hashEvidence p input = .ok actual :=
    ⟨_, hashEvidence_eq p input⟩
  unfold verifyEvidence
  split
  · next hinvalid =>
    -- A digest has the right length, so this is none.
    have hne : ¬ hashEvidence p input = .ok committed := fun h =>
      of_decide_eq_false hinvalid (length_of_hashEvidence h)
    rw [decide_eq_false hne]
  · rw [hactual]
    refine congrArg Except.ok ?_
    rw [Bool.eq_iff_iff, beq_iff_eq, decide_eq_true_eq, toHex_injective.eq_iff, Except.ok.injEq]

end hashing

end TrustLink
