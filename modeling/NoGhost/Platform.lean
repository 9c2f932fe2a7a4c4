import Mathlib.Data.Nat.Prime.Basic
import Mathlib.Data.ZMod.Basic
import Mathlib.Data.List.TakeWhile
import Mathlib.Tactic.NormNum.Prime
import NoGhost.Codec

/-!
# The Platform

What the services import and do not define: the Ed25519 group, its signatures and SHA-512
of the curve library, SHA-256, the cipher and the compression of the runtime, and the text
codecs of the ledger client. They are parameters of the whole development, and carry what
the services rely on as fields: a `Curve` is a cyclic group of prime order with a 32-byte
encoding that decodes back, whose verifier checks the Schnorr equation and accepts what its
signer signs, and in a `Platform` every codec decodes what it encodes. Nothing is assumed of
the hash functions; a result that needs them to be collision free says so.

The last section has a small platform, which shows that the fields can be met together and
lets the models run on concrete inputs.
-/

namespace NoGhost

/-- The number behind a string of bytes, the least significant one first. -/
def littleEndian (b : Bytes) : ℕ := b.foldr (fun x r => r * 256 + x.toNat) 0

/-- What the curve library provides: the group, its encoding, the hash function of the
signature scheme, and the signatures themselves. -/
structure Curve where
  Pt : Type
  [addCommGroup : AddCommGroup Pt]
  [decidableEq : DecidableEq Pt]
  /-- The group order. -/
  L : ℕ
  prime_L : L.Prime
  L_le : L ≤ 2 ^ 256
  base : Pt
  base_ne_zero : base ≠ 0
  smul_base : L • base = 0
  cyclic : ∀ p : Pt, ∃ k : ℕ, p = k • base
  toRawBytes : Pt → Bytes
  /-- Point decoding: `none` is the exception of the library. -/
  fromRawBytes : Bytes → Option Pt
  length_toRawBytes : ∀ p, (toRawBytes p).length = 32
  fromRawBytes_toRawBytes : ∀ p, fromRawBytes (toRawBytes p) = some p
  sha512 : Bytes → Bytes
  /-- `Point.multiply`, which raises unless the scalar is one of `1 .. L - 1`. -/
  multiply : Pt → ℤ → Except String Pt
  multiply_eq_ok : ∀ p q k, multiply p k = .ok q ↔ (0 < k ∧ k < L) ∧ q = k • p
  /-- `ed25519.getPublicKey`: the public key of a secret key. -/
  getPublicKey : Bytes → Bytes
  /-- `ed25519.sign`: the signature of a message under a secret key. -/
  sign : Bytes → Bytes → Bytes
  /-- `ed25519.verify`, of a signature, a message and a public key. Its exceptions (a bad
  length, a point that does not decode) count as `false`, as every caller has it. -/
  verify : Bytes → Bytes → Bytes → Bool
  verify_sign : ∀ message secretKey,
    verify (sign message secretKey) message (getPublicKey secretKey) = true
  verify_iff : ∀ signature message publicKey, verify signature message publicKey = true ↔
    signature.length = 64 ∧ ∃ R A, fromRawBytes (signature.take 32) = some R ∧
      fromRawBytes publicKey = some A ∧ littleEndian (signature.drop 32) < L ∧
      littleEndian (signature.drop 32) • base =
        R + littleEndian (sha512 (toRawBytes R ++ publicKey ++ message)) • A

attribute [instance] Curve.addCommGroup Curve.decidableEq

/-- Everything the services take from outside: the curve, the numerals, the hash, the codec of the
ledger and the encryption of the memos. -/
structure Platform extends Curve where
  numeral : Js.Numeral
  sha256 : Bytes → Bytes
  /-- The hexadecimal text codec of the ledger client; decoding may raise. -/
  convertStringToHex : String → String
  convertHexToString : String → Option String
  convertHexToString_convertStringToHex :
    ∀ s, convertHexToString (convertStringToHex s) = some s
  /-- AES-256-GCM under a key and a nonce: the ciphertext and the tag. Opening may raise. -/
  gcmSeal : Bytes → Bytes → Bytes → Bytes × Bytes
  gcmOpen : Bytes → Bytes → Bytes → Bytes → Option Bytes
  length_gcmSeal : ∀ key iv text, (gcmSeal key iv text).2.length = 16
  gcmOpen_gcmSeal : ∀ key iv text,
    gcmOpen key iv (gcmSeal key iv text).1 (gcmSeal key iv text).2 = some text
  gzip : Bytes → Bytes
  gunzip : Bytes → Option Bytes
  gunzip_gzip : ∀ b, gunzip (gzip b) = some b
  /-- UTF-8 decoding, which replaces what is malformed. -/
  decodeUtf8 : Bytes → List Char
  decodeUtf8_utf8 : ∀ text, decodeUtf8 (utf8 text) = text

/-! ### A small platform -/

namespace Small

/-- The decimal text of an integer. -/
def printInt (i : ℤ) : List Char :=
  if i < 0 then '-' :: Nat.toDigits 10 i.natAbs else Nat.toDigits 10 i.natAbs

/-- The integer behind a decimal text. -/
def readInt : List Char → ℤ
  | '-' :: ds => -(Nat.ofDigitChars 10 ds 0 : ℤ)
  | ds => Nat.ofDigitChars 10 ds 0

theorem isDigit_of_mem {n : ℕ} {c : Char} (h : c ∈ Nat.toDigits 10 n) : c.isDigit = true :=
  Nat.isDigit_of_mem_toDigits (by norm_num) le_rfl h

/-- An integer is read back from its decimal text. -/
theorem readInt_printInt (i : ℤ) : readInt (printInt i) = i := by
  rw [printInt]
  split
  next h => rw [readInt, Nat.ofDigitChars_ten_toDigits]; omega
  next h =>
    have hread : readInt (Nat.toDigits 10 i.natAbs) =
        Nat.ofDigitChars 10 (Nat.toDigits 10 i.natAbs) 0 := by
      rw [readInt.eq_def]
      split
      next ds hds =>
        have := isDigit_of_mem (n := i.natAbs) (c := '-') (by rw [hds]; simp)
        simp at this
      next => rfl
    rw [hread, Nat.ofDigitChars_ten_toDigits]
    omega

/-- The decimal text of an integer has digits only, after a sign. -/
theorem mem_printInt {i : ℤ} {c : Char} (h : c ∈ printInt i) : c = '-' ∨ c.isDigit = true := by
  rw [printInt] at h
  split at h
  · rcases List.mem_cons.mp h with rfl | h
    · exact .inl rfl
    · exact .inr (isDigit_of_mem h)
  · exact .inr (isDigit_of_mem h)

/-- The decimal text of an integer is not empty. -/
theorem printInt_ne_nil (i : ℤ) : printInt i ≠ [] := by
  rw [printInt]
  split
  · simp
  · exact Nat.toDigits_ne_nil

/-- Numerator and denominator; integers have their usual text. -/
def printRat (q : ℚ) : List Char :=
  if q.den = 1 then printInt q.num else printInt q.num ++ 'E' :: printInt q.den

/-- The number behind a numerator and a denominator. -/
def readRat (s : List Char) : ℚ :=
  let den := s.dropWhile (· != 'E')
  let num := readInt (s.takeWhile (· != 'E'))
  if den = [] then num else num / readInt den.tail

/-- A fraction is read back from its text. -/
theorem readRat_printRat (q : ℚ) : readRat (printRat q) = q := by
  have hnum : ∀ i : ℤ, ∀ c ∈ printInt i, (c != 'E') = true := by
    intro i c hc
    rcases mem_printInt hc with rfl | hd
    · rfl
    · rw [bne_iff_ne]
      rintro rfl
      simp at hd
  rw [printRat]
  split
  next hden =>
    have hdrop : (printInt q.num).dropWhile (· != 'E') = [] :=
      List.dropWhile_eq_nil_iff.mpr (hnum _)
    have htake : (printInt q.num).takeWhile (· != 'E') = printInt q.num :=
      List.takeWhile_eq_self_iff.mpr (hnum _)
    simp only [readRat, hdrop, htake, if_true, readInt_printInt]
    exact Rat.coe_int_num_of_den_eq_one hden
  next hden =>
    have hdrop : (printInt q.num ++ 'E' :: printInt q.den).dropWhile (· != 'E') =
        'E' :: printInt q.den := by
      rw [List.dropWhile_append_of_pos (hnum _)]
      rfl
    have htake : (printInt q.num ++ 'E' :: printInt q.den).takeWhile (· != 'E') =
        printInt q.num := by
      rw [List.takeWhile_append_of_pos (hnum _)]
      simp
    simp only [readRat, hdrop, htake, List.tail_cons, readInt_printInt,
      if_neg (List.cons_ne_nil _ _)]
    exact_mod_cast Rat.num_div_den q

/-- A numeral format, in which numbers are fractions of integers. -/
def numeral : Js.Numeral where
  print q := String.ofList (printRat q)
  read s := some (.fin (readRat (Js.chars s)))
  read_print q := by simp [readRat_printRat]
  print_ne_nil q := by
    rw [String.toList_ofList, printRat]
    split
    · exact printInt_ne_nil _
    · simp
  print_chars q c hc := by
    have hint : ∀ i, ∀ c ∈ printInt i, Js.isNumeralChar c = true := by
      intro i c hc
      rcases mem_printInt hc with rfl | hd
      · rfl
      · simp [Js.isNumeralChar, hd]
    rw [String.toList_ofList, printRat] at hc
    split at hc
    · exact hint _ c hc
    · rcases List.mem_append.mp hc with hc | hc
      · exact hint _ c hc
      · rcases List.mem_cons.mp hc with rfl | hc
        · rfl
        · exact hint _ c hc
  ofString s := .fin (readRat (Js.chars s))

/-- A polynomial hash. The case split on the accumulator makes the kernel evaluate it at
every step. -/
def digestLoop : ℕ → Bytes → ℕ
  | h, [] => h
  | 0, x :: r => digestLoop (x.toNat + 1) r
  | h + 1, x :: r => digestLoop ((h * 257 + x.toNat + 1) % 18446744073709551557) r

/-- The `n` low bytes of a number. -/
def digestBytes : ℕ → ℕ → Bytes
  | 0, _ => []
  | n + 1, h => UInt8.ofNat (h % 256) :: digestBytes n (h / 256)

/-- A digest of `len` bytes, zero but for the first eight. -/
def digest (len : ℕ) (b : Bytes) : Bytes :=
  digestBytes 8 (digestLoop 1 b) ++ List.replicate (len - 8) 0

/-- A residue as bytes: one byte and 31 zeros. -/
def encodePoint (p : ZMod 7) : Bytes := UInt8.ofNat p.val :: List.replicate 31 0

/-- The residue behind such bytes. -/
def decodePoint : Bytes → Option (ZMod 7)
  | x :: r => if r = List.replicate 31 0 ∧ x.toNat < 7 then some (x.toNat : ZMod 7) else none
  | [] => none

@[simp] theorem decodePoint_encodePoint : ∀ p, decodePoint (encodePoint p) = some p := by decide

@[simp] theorem length_encodePoint (p : ZMod 7) : (encodePoint p).length = 32 := by
  simp [encodePoint]

/-- The bytes of a residue are those of the number it stands for. -/
theorem littleEndian_encodePoint : ∀ p, littleEndian (encodePoint p) = p.val := by decide

/-- Multiplication, which raises outside `1 .. 6`. -/
def multiply (p : ZMod 7) (k : ℤ) : Except String (ZMod 7) :=
  if 0 < k ∧ k < 7 then .ok (k • p) else .error "invalid scalar: out of range"

/-- Multiplication succeeds as the library's does, on the nonzero residues. -/
theorem multiply_eq_ok (p q : ZMod 7) (k : ℤ) :
    multiply p k = .ok q ↔ (0 < k ∧ k < ((7 : ℕ) : ℤ)) ∧ q = k • p := by
  rw [multiply]
  split
  next hk =>
    constructor
    · intro h
      exact ⟨hk, (Except.ok.inj h).symm⟩
    · rintro ⟨-, rfl⟩
      rfl
  next hk =>
    constructor
    · intro h
      cases h
    · rintro ⟨hk', -⟩
      exact absurd hk' hk

/-- The challenge of a signature. -/
def challenge (R : ZMod 7) (publicKey message : Bytes) : ZMod 7 :=
  (littleEndian (digest 64 (encodePoint R ++ publicKey ++ message)) % 7 : ℕ)

/-- The secret scalar of a secret key. -/
def secretScalar (secretKey : Bytes) : ZMod 7 := (littleEndian secretKey : ℕ)

/-- A signer whose nonce is always one. -/
def sign (message secretKey : Bytes) : Bytes :=
  let a := secretScalar secretKey
  encodePoint 1 ++ encodePoint (1 + challenge 1 (encodePoint a) message * a)

/-- The verifier: the Schnorr equation. -/
def verify (signature message publicKey : Bytes) : Bool :=
  signature.length == 64 &&
    match decodePoint (signature.take 32), decodePoint publicKey with
    | some R, some A =>
        let z := littleEndian (signature.drop 32)
        decide (z < 7) && decide ((z : ZMod 7) = R + challenge R publicKey message * A)
    | _, _ => false

/-- The verifier accepts a signature where the Schnorr equation holds of the points it decodes. -/
theorem verify_iff (signature message publicKey : Bytes) :
    verify signature message publicKey = true ↔
      signature.length = 64 ∧ ∃ R A, decodePoint (signature.take 32) = some R ∧
        decodePoint publicKey = some A ∧ littleEndian (signature.drop 32) < 7 ∧
        littleEndian (signature.drop 32) • (1 : ZMod 7) =
          R + littleEndian (digest 64 (encodePoint R ++ publicKey ++ message)) • A := by
  rw [verify, Bool.and_eq_true, beq_iff_eq]
  refine and_congr_right fun _ => ?_
  cases decodePoint (signature.take 32) with
  | none => simp
  | some R =>
      cases decodePoint publicKey with
      | none => simp
      | some A => simp [challenge]

/-- What the signer signs, the verifier accepts. -/
theorem verify_sign (message secretKey : Bytes) :
    verify (sign message secretKey) message (encodePoint (secretScalar secretKey)) = true := by
  have hlength : (sign message secretKey).length = 64 := by simp [sign]
  have htake : (sign message secretKey).take 32 = encodePoint 1 :=
    List.take_left' (length_encodePoint 1)
  have hdrop : (sign message secretKey).drop 32 = encodePoint (1 +
      challenge 1 (encodePoint (secretScalar secretKey)) message * secretScalar secretKey) :=
    List.drop_left' (length_encodePoint 1)
  rw [verify, hlength, htake, hdrop, decodePoint_encodePoint, decodePoint_encodePoint]
  simp [littleEndian_encodePoint, ZMod.val_lt]

/-- The additive group of order 7. -/
def curve : Curve where
  Pt := ZMod 7
  L := 7
  prime_L := by norm_num
  L_le := by norm_num
  base := 1
  base_ne_zero := by decide
  smul_base := by decide
  cyclic p := ⟨p.val, by simp⟩
  toRawBytes := encodePoint
  fromRawBytes := decodePoint
  length_toRawBytes := length_encodePoint
  fromRawBytes_toRawBytes := decodePoint_encodePoint
  sha512 := digest 64
  multiply := multiply
  multiply_eq_ok := multiply_eq_ok
  getPublicKey secretKey := encodePoint (secretScalar secretKey)
  sign := sign
  verify := verify
  verify_sign := verify_sign
  verify_iff := verify_iff

/-- A platform over that group. Its cipher leaves the text in the clear, and its compression
does nothing. -/
def platform : Platform where
  toCurve := curve
  numeral := numeral
  sha256 := digest 32
  convertStringToHex s := toUpperCase (bytesToHex (encode s))
  convertHexToString hex :=
    match hexToBytes hex with
    | .ok b => some (String.ofList (decodeAscii b))
    | .error _ => none
  convertHexToString_convertStringToHex s := by
    rw [hexToBytes_toUpperCase, encode_eq]
    simp [decodeAscii_utf8]
  gcmSeal _ _ text := (text, List.replicate 16 0)
  gcmOpen _ _ text tag := if tag = List.replicate 16 0 then some text else none
  length_gcmSeal := by simp
  gcmOpen_gcmSeal := by simp
  gzip b := b
  gunzip := some
  gunzip_gzip _ := rfl
  decodeUtf8 := decodeAscii
  decodeUtf8_utf8 := decodeAscii_utf8

end Small

end NoGhost
