import Mathlib.Data.Rat.Defs
import Mathlib.Algebra.Order.Ring.Rat

/-! The parts of Python's built-in behaviour the node relies on: the exceptions
its functions raise, integers read from text, and hexadecimal formatting. -/

namespace OmocNode

abbrev Bytes := List UInt8

/-- Exceptions other than the request validation failures, which carry more
data and have a type of their own. -/
inductive PyError
  | exception (text : String)
  | attributeError (name : String)
  | indexError
  | keyError
  | typeError
  | valueError
  | zeroDivisionError
  | overflowError
  | timeoutError
  deriving DecidableEq, Repr

/-- A double, exact where it is finite. Timestamps reach the node as floats. -/
inductive PyFloat
  | finite (value : ℚ)
  | infinity
  | negInfinity
  | nan
  deriving DecidableEq

/-- `x <= 0`, which is false for NaN. -/
def PyFloat.nonpositive : PyFloat → Bool
  | finite value => value ≤ 0
  | negInfinity => true
  | infinity | nan => false

/-- What `json.loads` builds. -/
inductive Json
  | null
  | bool (value : Bool)
  | number (value : PyFloat)
  | string (value : String)
  | array (items : List Json)
  | object (fields : List (String × Json))

/-- `data.get(key)`, where the last of several equal keys of a JSON text counts. -/
def Json.get (fields : List (String × Json)) (key : String) : Json :=
  match fields.reverse.find? fun field => field.1 = key with
  | some field => field.2
  | none => .null

namespace Python

/-- Code points of the characters with decimal digit value zero; each starts a
run of ten. `int` reads all of them, not only the ASCII ones. -/
def zeros : List Nat :=
  [0x30, 0x660, 0x6f0, 0x7c0, 0x966, 0x9e6, 0xa66, 0xae6, 0xb66, 0xbe6, 0xc66, 0xce6, 0xd66, 0xde6, 0xe50, 0xed0,
    0xf20, 0x1040, 0x1090, 0x17e0, 0x1810, 0x1946, 0x19d0, 0x1a80, 0x1a90, 0x1b50, 0x1bb0, 0x1c40, 0x1c50, 0xa620,
    0xa8d0, 0xa900, 0xa9d0, 0xa9f0, 0xaa50, 0xabf0, 0xff10, 0x104a0, 0x10d30, 0x11066, 0x110f0, 0x11136, 0x111d0,
    0x112f0, 0x11450, 0x114d0, 0x11650, 0x116c0, 0x11730, 0x118e0, 0x11950, 0x11c50, 0x11d50, 0x11da0, 0x16a60,
    0x16ac0, 0x16b50, 0x1d7ce, 0x1d7d8, 0x1d7e2, 0x1d7ec, 0x1d7f6, 0x1e140, 0x1e2f0, 0x1e950, 0x1fbf0]

def spaces : List Nat :=
  [0x9, 0xa, 0xb, 0xc, 0xd, 0x1c, 0x1d, 0x1e, 0x1f, 0x20, 0x85, 0xa0, 0x1680, 0x2000, 0x2001, 0x2002, 0x2003, 0x2004,
    0x2005, 0x2006, 0x2007, 0x2008, 0x2009, 0x200a, 0x2028, 0x2029, 0x202f, 0x205f, 0x3000]

def decimalValue (c : Char) : Option Nat :=
  (zeros.find? fun first => first ≤ c.toNat && c.toNat < first + 10).map (c.toNat - ·)

def letterValue (c : Char) : Option Nat :=
  if 'a' ≤ c ∧ c ≤ 'f' then some (c.toNat - 'a'.toNat + 10)
  else if 'A' ≤ c ∧ c ≤ 'F' then some (c.toNat - 'A'.toNat + 10)
  else none

/-- `text.strip()`. -/
def strip (text : List Char) : List Char :=
  let isSpace := fun c : Char => spaces.contains c.toNat
  ((text.dropWhile isSpace).reverse.dropWhile isSpace).reverse

/-- The value of one digit in base ten or sixteen. -/
def digitValue (base : Nat) (c : Char) : Option Nat :=
  match decimalValue c with
  | some value => some value
  | none => if base = 16 then letterValue c else none

/-- The digits after the first; a single underscore may separate two. -/
def digitValues (base : Nat) : List Char → Option (List Nat)
  | [] => some []
  | '_' :: c :: rest => do
    let digit ← digitValue base c
    return digit :: (← digitValues base rest)
  | c :: rest => do
    let digit ← digitValue base c
    return digit :: (← digitValues base rest)

/-- CPython refuses longer decimal texts, to bound the cost of the conversion. -/
def intMaxStrDigits : Nat := 4300

def magnitude (base : Nat) (text : List Char) : Option Nat := do
  let digits ← match text with
    | c :: rest => digitValues base rest >>= fun tail => (digitValue base c).map (· :: tail)
    | [] => none
  if base = 10 ∧ intMaxStrDigits < digits.length then none
  else some (digits.foldl (fun value digit => value * base + digit) 0)

/-- In base sixteen a `0x`, with one underscore after it, may precede the digits. -/
def withoutBasePrefix (base : Nat) (text : List Char) : List Char :=
  match text with
  | '0' :: x :: rest =>
    if base = 16 ∧ (x = 'x' ∨ x = 'X') then (match rest with | '_' :: digits => digits | digits => digits) else text
  | text => text

/-- `int(text, base)` for the two bases in use; `none` is a `ValueError`. -/
def int (base : Nat) (text : String) : Option Int :=
  match strip text.toList with
  | '-' :: rest => (magnitude base (withoutBasePrefix base rest)).map fun value => -(value : Int)
  | '+' :: rest => (magnitude base (withoutBasePrefix base rest)).map fun value => (value : Int)
  | rest => (magnitude base (withoutBasePrefix base rest)).map fun value => (value : Int)

def parseInt (base : Nat) (text : String) : Except PyError Int :=
  match int base text with
  | some value => .ok value
  | none => .error .valueError

/-- `str(value)`, which refuses to write more digits than `int` reads. -/
def str (value : Int) : Except PyError String :=
  let digits := Nat.toDigits 10 value.natAbs
  if intMaxStrDigits < digits.length then .error .valueError
  else .ok (String.ofList (if value < 0 then '-' :: digits else digits))

/-- `"%0<width>x" % value`: the sign counts towards the width. -/
def hexPadded (width : Nat) (value : Int) : List Char :=
  let digits := Nat.toDigits 16 value.natAbs
  if value < 0 then '-' :: (List.replicate (width - 1 - digits.length) '0' ++ digits)
  else List.replicate (width - digits.length) '0' ++ digits

/-- `bytes.hex()`. -/
def hex (bytes : Bytes) : List Char :=
  bytes.flatMap fun byte => [Nat.digitChar (byte.toNat / 16), Nat.digitChar (byte.toNat % 16)]

/-- `items[index]`; negative indices count from the end. -/
def getItem {α : Type} (items : List α) (index : Int) : Except PyError α :=
  let position := if index < 0 then index + items.length else index
  if position < 0 then .error .indexError
  else match items[position.toNat]? with
    | some item => .ok item
    | none => .error .indexError

/-- `text.encode("ascii")`. -/
def encodeAscii (text : String) : Except PyError Bytes :=
  text.toList.mapM fun c => if c.toNat < 128 then .ok (UInt8.ofNat c.toNat) else .error .valueError

/-- `bytes.decode("ascii")`. -/
def decodeAscii (bytes : Bytes) : Except PyError String := do
  let chars ← bytes.mapM fun byte : UInt8 => if byte.toNat < 128 then .ok (Char.ofNat byte.toNat) else .error .valueError
  return String.ofList chars

/-- `bytes.ljust(width, b'\0')`. -/
def ljust (width : Nat) (bytes : Bytes) : Bytes :=
  bytes ++ List.replicate (width - bytes.length) 0

end Python
end OmocNode
