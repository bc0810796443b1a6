import OmocNode.PyFloat

/-! The number encodings of signed messages, and the price distance. -/

namespace OmocNode.Helpers

def encUint256 (x : Int) : List Char := Python.hexPadded 64 x

def encByte32 (x : Bytes) : List Char := Python.hex (Python.ljust 32 x)

def encPackedAddress (x : Int) : List Char := Python.hexPadded 40 x

def addrToNumber (addr : String) : Except PyError Int :=
  if addr = "" then .ok 0
  else match addr.toList with
    | '0' :: 'x' :: digits => Python.parseInt 16 (String.ofList digits)
    | _ => Python.parseInt 16 addr

/-- Percentage between two prices, relative to the smaller one. -/
def priceDelta (price1 price2 : Int) : Except PyError PyFloat := do
  return (← PyFloat.divide |price1 - price2| |min price1 price2|).times 100

end OmocNode.Helpers
