import Mathlib.Data.String.Basic
import OmocNode.Dict
import OmocNode.Python

/-! The table of exchanges in a form that does not depend on the order in which its
file lists things. Nodes compare a digest of it, to know that they price alike. -/

namespace OmocNode

/-- A `Decimal` with the digits it was written with, which its text shows. -/
inductive DecimalTuple
  | finite (sign : Bool) (coefficient : Nat) (exponent : Int)
  | infinity (sign : Bool)
  | nan (sign signaling : Bool) (payload : Nat)
  deriving DecidableEq

namespace DecimalTuple

def signText (sign : Bool) : List Char := if sign then ['-'] else []

/-- `str(value)`: the plain notation, or the scientific one for an exponent above zero or a very small value. -/
def str : DecimalTuple → String
  | infinity sign => String.ofList (signText sign ++ "Infinity".toList)
  | nan sign signaling payload =>
    let name := if signaling then "sNaN".toList else "NaN".toList
    String.ofList (signText sign ++ name ++ if payload = 0 then [] else Nat.toDigits 10 payload)
  | finite sign coefficient exponent =>
    let digits := Nat.toDigits 10 coefficient
    let leftDigits := exponent + digits.length
    let dotPlace := if exponent ≤ 0 ∧ leftDigits > -6 then leftDigits else 1
    let number :=
      if dotPlace ≤ 0 then '0' :: '.' :: List.replicate (-dotPlace).toNat '0' ++ digits
      else if dotPlace ≥ digits.length then digits ++ List.replicate (dotPlace - digits.length).toNat '0'
      else digits.take dotPlace.toNat ++ '.' :: digits.drop dotPlace.toNat
    let shift := leftDigits - dotPlace
    let exponentText := if shift = 0 then [] else 'E' :: (if shift < 0 then '-' else '+') :: Nat.toDigits 10 shift.natAbs
    String.ofList (signText sign ++ number ++ exponentText)

example : [(finite false 22 (-2)).str, (finite true 5 (-9)).str, (finite false 12 3).str] = ["0.22", "-5E-9", "1.2E+4"] := by
  decide +kernel

end DecimalTuple

/-- A value in a record of `exchanges.json`, as it is loaded. -/
inductive ExchangeValue
  | decimal (value : DecimalTuple)
  | json (value : Json)

abbrev ExchangeRecord := Dict String ExchangeValue

/-- The records of each coin pair. -/
abbrev ExchangeTable := Dict String (List ExchangeRecord)

namespace OracleSettings

def dToStr : ExchangeValue → Json
  | .decimal value => .string value.str
  | .json value => value

/-- `items.sort()` for pairs with different first components, which are all that is compared. -/
def sortPairs {α : Type} (items : List (String × α)) : List (String × α) := items.mergeSort fun x y => x.1 ≤ y.1

def d2l (aDict : ExchangeRecord) : List (String × Json) :=
  sortPairs (aDict.entries.map fun item => (item.1, dToStr item.2))

def normalizeExchangeInfo (data : ExchangeTable) : List (String × List (List (String × Json))) :=
  sortPairs (data.entries.map fun item => (item.1, item.2.map d2l))

end OracleSettings
end OmocNode
