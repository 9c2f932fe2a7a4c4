import Mathlib.Data.Int.ModEq
import Mathlib.Data.List.Sort
import NoGhost.Canonical

/-!
# FROST

The model of `frost/frost.ts`: two-round threshold Schnorr signing over the curve of the
platform, with a trusted dealer. Everything that travels is hexadecimal text, exceptions
are the `error` side of `Except String`, and the loops are folds over the same lists.

Random scalars are drawn from a list of 64-byte draws (`randomScalar`) or of 32-byte draws
(`round1`): both loops discard a draw that gives zero, and go on.

Multiplication, signing and verification of the curve library are fields of the curve.
`SchnorrEq` is the equation that its verifier checks, with the plain challenge.
-/

namespace NoGhost

namespace Frost

variable (C : Curve)

/-! ### Scalars and bytes -/

/-- `mod`: JavaScript's `%` truncates towards zero. -/
def mod (a m : ℤ) : ℤ := ((a.tmod m) + m).tmod m

/-- `bytesToNumberLE`: the number whose least byte comes first. -/
def bytesToNumberLE (b : Bytes) : ℤ := b.foldr (fun x r => r * 256 + x.toNat) 0

/-- The `n` low bytes of `v`, least significant first. -/
def bytesLE : ℕ → ℤ → Bytes
  | 0, _ => []
  | n + 1, v => UInt8.ofNat (v % 256).toNat :: bytesLE n (v / 256)

/-- `scalarToBytes`: a scalar reduced by the order, in 32 bytes with the least one first. -/
def scalarToBytes (s : ℤ) : Bytes := bytesLE 32 (mod s C.L)

/-- `scalarFromHex`: the residue of the number that the digits encode. -/
def scalarFromHex (hex : String) : Except String ℤ := do
  pure (mod (bytesToNumberLE (← hexToBytes hex)) C.L)

/-- `scalarToHex`: the digits of the 32 bytes of a scalar. -/
def scalarToHex (s : ℤ) : String := bytesToHex (scalarToBytes C s)

/-- The loop of `modPow`; the exponent, which it halves, is fuel enough. -/
def modPowLoop : ℕ → ℤ → ℤ → ℕ → ℤ → ℤ
  | 0, r, _, _, _ => r
  | fuel + 1, r, b, e, m =>
      if e = 0 then r
      else modPowLoop fuel (if e % 2 = 1 then (r * b).tmod m else r) ((b * b).tmod m) (e / 2) m

/-- `modPow`, by squaring: the loop halves the exponent and squares the base. -/
def modPow (base : ℤ) (exp : ℕ) (m : ℤ) : ℤ := modPowLoop exp 1 (mod base m) exp m

/-- `invert`, by Fermat: the power with the order less two. -/
def invert (a : ℤ) : ℤ := modPow a (C.L - 2) C.L

/-- `randomScalar`: the first draw that is not zero modulo the order, and the draws left.
`none` while the loop is still drawing. -/
def randomScalar : List Bytes → Option (ℤ × List Bytes)
  | [] => none
  | draw :: draws =>
      let s := mod (bytesToNumberLE draw) C.L
      if s ≠ 0 then some (s, draws) else randomScalar draws

/-! ### Points -/

/-- `pointFromHex`: the point that the library decodes from the bytes. -/
def pointFromHex (hex : String) : Except String C.Pt := do
  match C.fromRawBytes (← hexToBytes hex) with
  | some p => pure p
  | none => throw "bad point: is not on curve"

/-- `pointToHex`: the digits of the bytes of a point. -/
def pointToHex (p : C.Pt) : String := bytesToHex (C.toRawBytes p)

/-- `mulUnsafe`: tolerates the scalar zero, which the library refuses. -/
def mulUnsafe (p : C.Pt) (s : ℤ) : C.Pt :=
  let k := mod s C.L
  if k = 0 then 0 else k • p

/-! ### Hash functions -/

/-- `CONTEXT`, the text that separates the hashes of this protocol from others. -/
def CONTEXT : Bytes := encode "FROST-ED25519-SHA512-v1"

/-- `hashToScalar`: the residue of the hash of the concatenated parts. -/
def hashToScalar (parts : List Bytes) : ℤ :=
  mod (bytesToNumberLE (C.sha512 parts.flatten)) C.L

/-- `H1`, the hash of the binding factors. -/
def H1 (m : Bytes) : ℤ := hashToScalar C [CONTEXT, encode "rho", m]

/-- `H2`, the plain challenge hash of Ed25519, so that its signatures are those of any verifier. -/
def H2 (m : Bytes) : ℤ := mod (bytesToNumberLE (C.sha512 m)) C.L

/-- `H3`, the hash of the nonces. -/
def H3 (m : Bytes) : ℤ := hashToScalar C [CONTEXT, encode "nonce", m]

/-- `H4`, the hash of the message. -/
def H4 (m : Bytes) : Bytes := C.sha512 (CONTEXT ++ encode "msg" ++ m)

/-- `H5`, the hash of the commitments. -/
def H5 (m : Bytes) : Bytes := C.sha512 (CONTEXT ++ encode "com" ++ m)

/-! ### Key generation -/

/-- `KeyShare`: what the dealer gives to one participant, in hexadecimal. -/
structure KeyShare where
  identifier : ℤ
  secretShare : String
  verificationShare : String
  deriving DecidableEq

/-- `KeygenOutput`: what the dealer returns, with the shares of all participants. -/
structure KeygenOutput where
  groupPublicKey : String
  threshold : ℕ
  total : ℕ
  shares : List KeyShare
  deriving DecidableEq

/-- `Commitment`: what a participant publishes of its nonces. -/
structure Commitment where
  identifier : ℤ
  hidingHex : String
  bindingHex : String
  deriving DecidableEq

/-- The private nonces of round 1, as hexadecimal scalars; they are for one signature only. -/
structure Nonces where
  hidingHex : String
  bindingHex : String
  deriving DecidableEq

/-- `Round1Output`: the nonces of a participant, and their commitments. -/
structure Round1Output where
  nonces : Nonces
  hidingHex : String
  bindingHex : String
  deriving DecidableEq

/-- The entry of participant `identifier` in the commitment list. -/
def Round1Output.commitment (o : Round1Output) (identifier : ℤ) : Commitment :=
  ⟨identifier, o.hidingHex, o.bindingHex⟩

/-- The coefficients of the dealer's polynomial, constant term first. -/
def drawCoeffs : ℕ → List Bytes → Option (List ℤ)
  | 0, _ => some []
  | t + 1, draws => do
      let (s, draws) ← randomScalar C draws
      let rest ← drawCoeffs t draws
      pure (s :: rest)

/-- The value of the dealer's polynomial at `x`: the loop over the coefficients, with the
running power of `x`. -/
def evalShare (coeffs : List ℤ) (x : ℤ) : ℤ :=
  (coeffs.foldl (fun st c => (mod (st.1 + c * st.2) C.L, mod (st.2 * x) C.L)) (0, 1)).1

/-- The share of participant `id`, as the loop of the dealer makes it. -/
def dealShare (coeffs : List ℤ) (id : ℤ) : Except String KeyShare := do
  let acc := evalShare C coeffs id
  pure { identifier := id
         secretShare := scalarToHex C acc
         verificationShare := pointToHex C (← C.multiply C.base acc) }

/-- `trustedDealerKeygen` after its coefficients have been drawn. -/
def dealKeys (t n : ℕ) (coeffs : List ℤ) : Except String KeygenOutput := do
  let shares ← (List.range n).mapM fun k : ℕ => dealShare C coeffs (k + 1)
  pure { groupPublicKey := pointToHex C (← C.multiply C.base (coeffs.headD 0))
         threshold := t
         total := n
         shares := shares }

/-- `trustedDealerKeygen`; `none` while it is still drawing coefficients. -/
def trustedDealerKeygen (t n : ℕ) (draws : List Bytes) : Option (Except String KeygenOutput) :=
  if t < 1 ∨ n < t then some (.error "invalid threshold parameters")
  else (drawCoeffs C t draws).map (dealKeys C t n)

/-! ### Round 1 -/

/-- `gen`: the first draw whose hash with the secret is not zero, and the draws left. -/
def genNonce (sk : ℤ) : List Bytes → Option (ℤ × List Bytes)
  | [] => none
  | draw :: draws =>
      let s := H3 C (draw ++ scalarToBytes C sk)
      if s ≠ 0 then some (s, draws) else genNonce sk draws

/-- What round 1 keeps and sends for the nonces `d` and `e`. -/
def commit (d e : ℤ) : Except String Round1Output := do
  pure { nonces := ⟨scalarToHex C d, scalarToHex C e⟩
         hidingHex := pointToHex C (← C.multiply C.base d)
         bindingHex := pointToHex C (← C.multiply C.base e) }

/-- `round1`; `none` while it is still drawing nonces. -/
def round1 (secretShareHex : String) (draws : List Bytes) : Option (Except String Round1Output) :=
  match scalarFromHex C secretShareHex with
  | .error e => some (.error e)
  | .ok sk => do
      let (d, draws) ← genNonce C sk draws
      let (e, _) ← genNonce C sk draws
      pure (commit C d e)

/-! ### Shared derivations -/

/-- The commitments in the order of their identifiers. -/
def sortById (commitments : List Commitment) : List Commitment :=
  commitments.insertionSort fun a b => a.identifier ≤ b.identifier

/-- `sortedCommitments`: sorted by identifier, and refused where an identifier comes twice. -/
def sortedCommitments (commitments : List Commitment) : Except String (List Commitment) :=
  let sorted := sortById commitments
  if (sorted.map (·.identifier)).Nodup then .ok sorted
  else .error "duplicate identifiers in commitment list"

/-- One commitment as it is hashed: its identifier and its two points in bytes. -/
def encodeCommitment (c : Commitment) : Except String Bytes := do
  pure (scalarToBytes C c.identifier ++ (← hexToBytes c.hidingHex) ++ (← hexToBytes c.bindingHex))

/-- `bindingFactors`: a map from identifiers, in their order. -/
def bindingFactors (groupPublicKeyHex : String) (commitments : List Commitment)
    (message : Bytes) : Except String (List (ℤ × ℤ)) := do
  let sorted ← sortedCommitments commitments
  let encoded ← sorted.mapM (encodeCommitment C)
  let pre := (← hexToBytes groupPublicKeyHex) ++ H4 C message ++ H5 C encoded.flatten
  pure (sorted.map fun c => (c.identifier, H1 C (pre ++ scalarToBytes C c.identifier)))

/-- `rho.get(id)`: every identifier that is looked up has an entry. -/
def rhoOf (rho : List (ℤ × ℤ)) (id : ℤ) : ℤ := (rho.lookup id).getD 0

/-- One round of the loop of `groupCommitment`. -/
def addCommitment (rho : List (ℤ × ℤ)) (R : C.Pt) (c : Commitment) : Except String C.Pt := do
  pure (R + (← pointFromHex C c.hidingHex) +
    mulUnsafe C (← pointFromHex C c.bindingHex) (rhoOf rho c.identifier))

/-- `groupCommitment`: the sum of the commitments, each binding point times the factor of its
participant. -/
def groupCommitment (commitments : List Commitment) (rho : List (ℤ × ℤ)) :
    Except String C.Pt := do
  (← sortedCommitments commitments).foldlM (addCommitment C rho) 0

/-- `challenge`: the hash of the group commitment, the group key and the message. -/
def challenge (R : C.Pt) (groupPublicKeyHex : String) (message : Bytes) : Except String ℤ := do
  pure (H2 C (C.toRawBytes R ++ (← hexToBytes groupPublicKeyHex) ++ message))

/-- `lagrangeCoefficient`: the product of the quotients over the other participants, which must not
repeat the own one. -/
def lagrangeCoefficient (identifier : ℤ) (participants : List ℤ) : Except String ℤ :=
  let (num, den) := participants.foldl (fun st j =>
    if j = identifier then st
    else (mod (st.1 * j) C.L, mod (st.2 * (j - identifier)) C.L)) ((1 : ℤ), (1 : ℤ))
  if den = 0 then .error "duplicate participant identifiers"
  else .ok (mod (num * invert C den) C.L)

/-! ### Round 2 -/

/-- `Round2Params`: what a participant signs with. -/
structure Round2Params where
  identifier : ℤ
  secretShare : String
  nonces : Nonces
  message : Bytes
  commitments : List Commitment
  groupPublicKey : String

/-- `round2Sign`: the share of a participant in the signature. -/
def round2Sign (p : Round2Params) : Except String String := do
  let sorted ← sortedCommitments p.commitments
  let participants := sorted.map (·.identifier)
  match sorted.find? (·.identifier = p.identifier) with
  | none => throw "own identifier missing from commitment list"
  | some own => do
      let d ← scalarFromHex C p.nonces.hidingHex
      let e ← scalarFromHex C p.nonces.bindingHex
      -- the coordinator-supplied commitment for us must match our nonces
      if pointToHex C (← C.multiply C.base d) ≠ own.hidingHex ∨
          pointToHex C (← C.multiply C.base e) ≠ own.bindingHex then
        throw "commitment list does not match local nonces"
      else do
        let rho ← bindingFactors C p.groupPublicKey sorted p.message
        let R ← groupCommitment C sorted rho
        let c ← challenge C R p.groupPublicKey p.message
        let lambda ← lagrangeCoefficient C p.identifier participants
        let sk ← scalarFromHex C p.secretShare
        pure (scalarToHex C (mod (d + e * rhoOf rho p.identifier + lambda * sk * c) C.L))

/-! ### Aggregation and verification -/

/-- `SignatureShare`: the share of a participant, as it is sent to the aggregator. -/
structure SignatureShare where
  identifier : ℤ
  zi : String
  deriving DecidableEq

/-- `verifySignatureShare`: whether a share fits the commitments and the verification share of its
participant. -/
def verifySignatureShare (share : SignatureShare) (verificationShareHex : String)
    (commitments : List Commitment) (groupPublicKeyHex : String) (message : Bytes) :
    Except String Bool := do
  let sorted ← sortedCommitments commitments
  let participants := sorted.map (·.identifier)
  match sorted.find? (·.identifier = share.identifier) with
  | none => pure false
  | some own => do
      let rho ← bindingFactors C groupPublicKeyHex sorted message
      let R ← groupCommitment C sorted rho
      let c ← challenge C R groupPublicKeyHex message
      let lambda ← lagrangeCoefficient C share.identifier participants
      let lhs := mulUnsafe C C.base (← scalarFromHex C share.zi)
      let rhs := (← pointFromHex C own.hidingHex) +
        mulUnsafe C (← pointFromHex C own.bindingHex) (rhoOf rho share.identifier) +
        mulUnsafe C (← pointFromHex C verificationShareHex) (mod (c * lambda) C.L)
      pure (decide (lhs = rhs))

/-- One round of the summation in `aggregate`. -/
def addShare (z : ℤ) (s : SignatureShare) : Except String ℤ := do
  pure (mod (z + (← scalarFromHex C s.zi)) C.L)

/-- `aggregate`: the 64-byte signature `R || z`. -/
def aggregate (commitments : List Commitment) (shares : List SignatureShare)
    (groupPublicKeyHex : String) (message : Bytes) : Except String String := do
  let sorted ← sortedCommitments commitments
  if shares.length ≠ sorted.length then throw "share count must match commitment count"
  else do
    let rho ← bindingFactors C groupPublicKeyHex sorted message
    let R ← groupCommitment C sorted rho
    let z ← shares.foldlM (addShare C) 0
    pure (bytesToHex (C.toRawBytes R ++ scalarToBytes C z))

/-- The Schnorr equation `z • B = R + c • A` with the plain challenge `c` of `R`, the key
and the message. -/
def SchnorrEq (R A : C.Pt) (z : ℤ) (pk message : Bytes) : Prop :=
  z • C.base = R + H2 C (C.toRawBytes R ++ pk ++ message) • A

instance (R A : C.Pt) (z : ℤ) (pk message : Bytes) : Decidable (SchnorrEq C R A z pk message) :=
  inferInstanceAs (Decidable (_ = _))

/-- `verifySignature`: the verifier of the library, where whatever it raises counts as a refusal. -/
def verifySignature (signatureHex : String) (message : Bytes) (groupPublicKeyHex : String) :
    Bool :=
  match hexToBytes signatureHex, hexToBytes groupPublicKeyHex with
  | .ok sig, .ok pk => C.verify sig message pk
  | _, _ => false

end Frost

end NoGhost
