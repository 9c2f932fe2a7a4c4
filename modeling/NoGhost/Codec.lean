import NoGhost.Js.Text

/-!
# Byte Codecs

Byte strings with the two texts they travel as: hexadecimal digits and UTF-8. There are two
decoders of hexadecimal text. `hexToBytes` of `common/canonical.ts` raises on anything else;
the buffers of the runtime stop at the first pair that is not two digits.

## Main results

* `hexToBytes_bytesToHex`, `bufferFromHex_toUpperCase`: the decoders read back what
  `bytesToHex` writes.
* `utf8_injective`: a text is determined by its bytes.
-/

open Js

namespace NoGhost

/-- A byte string, as `Uint8Array` and `Buffer` hold one. -/
abbrev Bytes := List UInt8

/-! ### Hexadecimal -/

/-- The two digits of a byte, in lower case. -/
def hexByte (b : UInt8) : List Char := [hexDigit (b.toNat / 16), hexDigit (b.toNat % 16)]

/-- `bytesToHex`: the digits of the bytes, one after the other. -/
def bytesToHex (b : Bytes) : String := String.ofList (b.flatMap hexByte)

/-- The bytes behind an even number of hexadecimal digits. -/
def bytesOfDigits : List Char → Option Bytes
  | [] => some []
  | a :: b :: r => do
      let hi ← hexVal a
      let lo ← hexVal b
      let bs ← bytesOfDigits r
      pure (UInt8.ofNat (16 * hi + lo) :: bs)
  | _ => none

/-- `hexToBytes`: an odd length or a foreign character raises. -/
def hexToBytes (hex : String) : Except String Bytes :=
  match bytesOfDigits (chars hex) with
  | some b => .ok b
  | none => .error ("invalid hex string (len=" ++ toString hex.length ++ ")")

/-- `Buffer.from(hex, 'hex')` on the digits: it stops at the first pair that is not one. -/
def bufferOfDigits : List Char → Bytes
  | a :: b :: r =>
      match hexVal a, hexVal b with
      | some hi, some lo => UInt8.ofNat (16 * hi + lo) :: bufferOfDigits r
      | _, _ => []
  | _ => []

/-- `Buffer.from(hex, 'hex')`, which stops at the first pair that is no byte. -/
def bufferFromHex (hex : String) : Bytes := bufferOfDigits (chars hex)

/-- `hex.toUpperCase()`: the case of other letters never matters. -/
def toUpperCase (hex : String) : String := String.ofList ((chars hex).map Char.toUpper)

/-- `hexToBytes` of a value of unknown shape. Of the values that are not strings, only the
empty array passes the length check and the pattern. -/
def hexToBytesOf : Option Json → Except String Bytes
  | some (.str s) => hexToBytes s
  | some (.arr []) => .ok []
  | _ => .error "invalid hex string (len=undefined)"

/-- The digits of a byte string are read back in any letter case: `f` may change the case. -/
theorem bytesOfDigits_map {f : Char → Char} (hf : ∀ n < 16, hexVal (f (hexDigit n)) = some n)
    (b : Bytes) : bytesOfDigits ((b.flatMap hexByte).map f) = some b := by
  induction b with
  | nil => rfl
  | cons x b ih =>
      have hx : x.toNat < 256 := x.toNat_lt
      have hhi := hf (x.toNat / 16) (by omega)
      have hlo := hf (x.toNat % 16) (by omega)
      have hval : UInt8.ofNat (16 * (x.toNat / 16) + x.toNat % 16) = x := by
        rw [Nat.div_add_mod, UInt8.ofNat_toNat]
      simp only [List.flatMap_cons, hexByte, List.cons_append, List.nil_append, List.map_cons,
        bytesOfDigits, hhi, hlo, ih, hval, Option.bind_eq_bind, Option.bind_some, Option.pure_def]

/-- A digit has its value in upper case, too. -/
theorem hexVal_toUpper_hexDigit : ∀ n < 16, hexVal (hexDigit n).toUpper = some n := by decide

/-- The codec decodes what it encodes. -/
@[simp] theorem hexToBytes_bytesToHex (b : Bytes) : hexToBytes (bytesToHex b) = .ok b := by
  have h := bytesOfDigits_map (f := id) hexVal_hexDigit b
  rw [List.map_id] at h
  simp [hexToBytes, bytesToHex, h]

/-- The codec decodes what it encodes in upper case, too, as a ledger may show it. -/
theorem hexToBytes_toUpperCase (b : Bytes) : hexToBytes (toUpperCase (bytesToHex b)) = .ok b := by
  simp [hexToBytes, toUpperCase, bytesToHex, bytesOfDigits_map hexVal_toUpper_hexDigit b]

/-- On well-formed digits the two decoders agree. -/
theorem bufferOfDigits_of_bytesOfDigits {cs : List Char} {b : Bytes}
    (h : bytesOfDigits cs = some b) : bufferOfDigits cs = b := by
  induction cs using bytesOfDigits.induct generalizing b with
  | case1 => cases h; rfl
  | case2 x y r ih =>
      rw [bytesOfDigits] at h
      simp only [Option.bind_eq_bind, Option.bind_eq_some_iff, Option.pure_def] at h
      obtain ⟨hi, hhi, lo, hlo, bs, hbs, h⟩ := h
      cases h
      rw [bufferOfDigits, hhi, hlo, ih hbs]
  | case3 cs hne hne' => rw [bytesOfDigits.eq_3 _ hne hne'] at h; cases h

/-- The decoder of buffers reads back what the codec encodes. -/
theorem bufferFromHex_bytesToHex (b : Bytes) : bufferFromHex (bytesToHex b) = b := by
  have h := bytesOfDigits_map (f := id) hexVal_hexDigit b
  rw [List.map_id] at h
  simpa [bufferFromHex, bytesToHex] using bufferOfDigits_of_bytesOfDigits h

/-- A buffer reads the digits of a byte string back from upper case too. -/
theorem bufferFromHex_toUpperCase (b : Bytes) : bufferFromHex (toUpperCase (bytesToHex b)) = b := by
  simpa [bufferFromHex, toUpperCase, bytesToHex] using
    bufferOfDigits_of_bytesOfDigits (bytesOfDigits_map hexVal_toUpper_hexDigit b)

/-- The digits tell the bytes. -/
theorem bytesToHex_injective : Function.Injective bytesToHex := by
  intro a b h
  have ha := hexToBytes_bytesToHex a
  rw [h, hexToBytes_bytesToHex] at ha
  exact (Except.ok.inj ha).symm

/-! ### UTF-8 -/

/-- The UTF-8 bytes of a text. The characters that stand for lone halves of surrogate pairs have the
bytes of their own code points, where `TextEncoder` writes those of U+FFFD. -/
def utf8 (text : List Char) : Bytes := text.flatMap String.utf8EncodeChar

/-- The UTF-8 bytes of a string, as `TextEncoder` gives them. -/
def encode (s : String) : Bytes := s.toByteArray.data.toList

/-- The text of UTF-8 bytes, which decoding reads off ASCII bytes directly. -/
def decodeAscii (b : Bytes) : List Char :=
  if b.all (· < 128) then b.map fun x => Char.ofNat x.toNat
  else ((ByteArray.mk b.toArray).utf8Decode?.map Array.toList).getD []

/-- A text is read back from its bytes. -/
theorem decodeAscii_utf8 (text : List Char) : decodeAscii (utf8 text) = text := by
  rw [decodeAscii, utf8]
  split
  next h => exact map_ofNat_of_ascii text h
  next h =>
    have henc : ByteArray.mk (text.flatMap String.utf8EncodeChar).toArray = text.utf8Encode := by
      exact ByteArray.ext (by simp [List.utf8Encode])
    rw [henc, List.utf8Decode?_utf8Encode]
    simp

/-- The bytes of a string are those of its characters. -/
theorem encode_eq (s : String) : encode s = utf8 s.toList := by
  obtain ⟨l, rfl⟩ : ∃ l, s = String.ofList l := ⟨s.toList, by simp⟩
  simp [encode, utf8, String.toByteArray_ofList, List.utf8Encode]

/-- The bytes tell the text. -/
theorem utf8_injective : Function.Injective utf8 := by
  intro a b h
  have henc : a.utf8Encode = b.utf8Encode := by
    simp only [utf8] at h
    simp only [List.utf8Encode, h]
  rw [← String.toByteArray_ofList, ← String.toByteArray_ofList] at henc
  have hstr := congrArg String.toList (String.toByteArray_inj.mp henc)
  simpa using hstr

end NoGhost
