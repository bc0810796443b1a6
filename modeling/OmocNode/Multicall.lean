import OmocNode.Python

/-! The signatures of the calls that go into one multicall. A signature names a
function, and gives the types of its arguments and of what it returns. -/

namespace OmocNode.Multicall

abbrev Text := List Char

/-- `text[start:stop]`. -/
def slice (text : Text) (start stop : ℕ) : Text := (text.take stop).drop start

/-- The variables of the loop over a signature. -/
structure Scan where
  parts : List Text
  stack : List Char
  start : ℕ

def scanStep (signature : Text) (s : Scan) (stop : ℕ) (character : Char) : Except PyError Scan :=
  if character = '(' then
    let stack := s.stack ++ [character]
    if s.parts.isEmpty then .ok { parts := [slice signature s.start stop], stack, start := stop }
    else .ok { s with stack }
  else if character = ')' then
    if s.stack.isEmpty then .error .indexError
    else
      let stack := s.stack.dropLast
      if stack.isEmpty then
        .ok { parts := s.parts ++ [slice signature s.start (stop + 1)], stack, start := stop + 1 }
      else .ok { s with stack }
  else .ok s

/-- `for end, character in enumerate(signature)`, from a position on. -/
def scan (signature : Text) : ℕ → Scan → Text → Except PyError Scan
  | _, s, [] => .ok s
  | stop, s, character :: rest => do
    let s ← scanStep signature s stop character
    scan signature (stop + 1) s rest

/-- The variables of the loop over the types. -/
structure TypeScan where
  parts : List Text
  part : Text
  insideTuples : ℤ

def typeStep (s : TypeScan) (character : Char) : TypeScan :=
  if character = '(' then { s with insideTuples := s.insideTuples + 1, part := s.part ++ [character] }
  else if character = ')' then { s with insideTuples := s.insideTuples - 1, part := s.part ++ [character] }
  else if character = ',' ∧ s.insideTuples = 0 then { s with parts := s.parts ++ [s.part], part := [] }
  else { s with part := s.part ++ [character] }

def parseTypeString (typestring : Text) : List Text :=
  if typestring = ['(', ')'] then []
  else
    let s := (typestring.drop 1).dropLast.foldl typeStep ⟨[], [], 0⟩
    s.parts ++ [s.part]

def parseSignature (signature : Text) : Except PyError (Text × List Text × List Text) := do
  let s ← scan signature 0 ⟨[], [], 0⟩ signature
  let function := (s.parts.take 2).flatten
  let inputTypes := parseTypeString (← Python.getItem s.parts 1)
  let outputTypes := parseTypeString (← Python.getItem s.parts 2)
  return (function, inputTypes, outputTypes)

end OmocNode.Multicall
