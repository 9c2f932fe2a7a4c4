import Mathlib.Data.List.Nodup
import NoGhost.Js.Value

/-!
# Shared Configuration

The model of `common/config.ts`: the signer registry, the thresholds and the pricing. The
registry and the thresholds are a `Config`, so that results hold for every consortium; the
one of the source is `config`.
-/

open Js

namespace NoGhost

/-- An entry of the signer registry: the name of a member and the identifier of its key share. -/
structure SignerInfo (SignerId : Type) where
  signerId : SignerId
  /-- The FROST participant identifier. -/
  identifier : ℤ
  deriving DecidableEq

/-- The registry and the thresholds of a consortium: its signers, with distinct names and
identifiers, and how many of them must approve and sign. -/
structure Config where
  SignerId : Type
  [decidableEq : DecidableEq SignerId]
  /-- A signer's identifier as it stands in texts. -/
  idText : SignerId → String
  idText_injective : Function.Injective idText
  SIGNERS : List (SignerInfo SignerId)
  nodup_signerId : (SIGNERS.map (·.signerId)).Nodup
  nodup_identifier : (SIGNERS.map (·.identifier)).Nodup
  /-- `THRESHOLD.t` and `THRESHOLD.n`. -/
  t : ℕ
  n : ℕ
  XRPL_MULTISIGN_QUORUM : ℕ

attribute [instance] Config.decidableEq

/-- `SignerId`: the members of the consortium of the source. -/
inductive SignerId
  | utility
  | cityA
  | cityB
  deriving DecidableEq

/-- The text of a signer identifier, as it stands in bodies and memos. -/
def SignerId.text : SignerId → String
  | utility => "utility"
  | cityA => "city-a"
  | cityB => "city-b"

/-- The configuration of the source: three members, of whom two must sign. -/
def config : Config where
  SignerId := SignerId
  idText := SignerId.text
  idText_injective := by
    intro a b h
    cases a <;> cases b <;> first | rfl | exact absurd h (by decide)
  SIGNERS := [⟨.utility, 1⟩, ⟨.cityA, 2⟩, ⟨.cityB, 3⟩]
  nodup_signerId := by decide
  nodup_identifier := by decide
  t := 2
  n := 3
  XRPL_MULTISIGN_QUORUM := 2

/-- `RATE_ZAR_PER_KWH`: the price of a unit of energy in rand. -/
def RATE_ZAR_PER_KWH : ℚ := 5 / 2

/-- `CURRENCY`: the currency of every debit. -/
def CURRENCY : String := "ZAR"

/-- `priceZar`: the price of an amount, rounded to cents. Numbers are exact rationals here: a
product that a double rounds, or that overflows to `Infinity` (an amount of about 7.2e305 or more,
whose price would be sent as null and refused by the bank), is left out. -/
def priceZar (amountKwh : Number) : Number :=
  (((amountKwh.mul (.fin RATE_ZAR_PER_KWH)).mul (.fin 100)).round).divBy 100

/-- `priceZar` of a value of unknown shape, which the multiplication coerces. -/
def priceZarOf (N : Numeral) (amountKwh : Option Json) : Except String Number := do
  pure (priceZar (← toNum N amountKwh))

end NoGhost
