import Mathlib.Algebra.Group.Nat.Defs
import Mathlib.Data.List.Basic

/-! A weighted draw in which one number plays two parts. Its leading digits deal
the items into an order, and its value chooses the place in that order. -/

namespace OmocNode.Lottery

variable {α : Type*}

def deal (key : Nat → Nat) : Nat → Nat → List α → List α
  | 0, _, _ => []
  | rounds + 1, idx, pool =>
    match pool[key idx % pool.length]? with
    | none => []
    | some item => item :: deal key rounds (idx + 1) (pool.eraseIdx (key idx % pool.length))

def buckets (weight : α → Nat) (limit : Nat) : List α → List Nat
  | [] => []
  | item :: rest => (limit + weight item) :: buckets weight (limit + weight item) rest

/-- The first position whose bucket is not passed; the number of items, if all are. -/
def place (weight : α → Nat) (passed : Nat → Bool) (limit : Nat) (items : List α) : Nat :=
  ((buckets weight limit items).takeWhile passed).length

def digit (base width number idx : Nat) : Nat := number / base ^ (width - 1 - idx) % base

/-- The numbers that draw `item`, from one of them on and below another. Numbers below
`reach limit` are the ones for which `limit` is not passed. -/
def bucket [DecidableEq α] (weight : α → Nat) (reach : Nat → Nat) (item : α) (start limit : Nat) : List α → Nat × Nat
  | [] => (start, start)
  | other :: rest =>
    if other = item then (start, reach (limit + weight other))
    else bucket weight reach item (reach (limit + weight other)) (limit + weight other) rest

/-- Counts the numbers from `lo` on, `2 ^ bits` many, with a property that only
an initial segment of them has. -/
def bisect (holds : Nat → Bool) : Nat → Nat → Nat
  | 0, lo => if holds lo then 1 else 0
  | bits + 1, lo => if holds (lo + 2 ^ bits) then 2 ^ bits + bisect holds bits (lo + 2 ^ bits) else bisect holds bits lo

end OmocNode.Lottery
