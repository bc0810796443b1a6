import Mathlib.Data.List.DropRight
import OmocNode.Dict

/-! Queues of a bounded length, which drop their oldest item, and dictionaries
of them in which an item makes the queue of its key. What such a queue holds is
the end of all that was appended to it. -/

namespace OmocNode

structure BoundedQueue (α : Type*) where
  maxlen : Nat
  items : List α
  bounded : items.length ≤ maxlen

namespace BoundedQueue
variable {α κ : Type*}

theorem length_rtake (items : List α) (count : Nat) : (items.rtake count).length = min count items.length := by
  rw [List.rtake, List.length_drop]
  omega

/-- The queue that is left of a list of items. -/
def ofItems (maxlen : Nat) (items : List α) : BoundedQueue α :=
  ⟨maxlen, items.rtake maxlen, by rw [length_rtake]; exact min_le_left _ _⟩

def empty (maxlen : Nat) : BoundedQueue α := ⟨maxlen, [], Nat.zero_le _⟩

def append (queue : BoundedQueue α) (item : α) : BoundedQueue α := ofItems queue.maxlen (queue.items ++ [item])

@[simp] theorem maxlen_ofItems (maxlen : Nat) (items : List α) : (ofItems maxlen items).maxlen = maxlen := rfl

@[simp] theorem items_ofItems (maxlen : Nat) (items : List α) : (ofItems maxlen items).items = items.rtake maxlen := rfl

@[simp] theorem ofItems_nil (maxlen : Nat) : ofItems maxlen ([] : List α) = empty maxlen := by
  simp [ofItems, empty]

/-- What was dropped before does not count. -/
theorem rtake_append_rtake (front back : List α) (count : Nat) :
    (front.rtake count ++ back).rtake count = (front ++ back).rtake count := by
  simp only [List.rtake, List.length_append, List.length_drop, List.drop_append]
  rw [List.drop_drop]
  congr 2 <;> omega

theorem append_ofItems (maxlen : Nat) (items : List α) (item : α) :
    (ofItems maxlen items).append item = ofItems maxlen (items ++ [item]) := by
  simp only [append, ofItems, rtake_append_rtake]

/-- An item for a key, with the length of the queue where it is the key's first. -/
structure Arrival (κ α : Type*) where
  maxlen : Nat
  key : κ
  item : α
  deriving DecidableEq

/-- The queue of the key is made where there is none. -/
def push [DecidableEq κ] (queues : Dict κ (BoundedQueue α)) (arrival : Arrival κ α) : Dict κ (BoundedQueue α) :=
  queues.set arrival.key (((queues.get? arrival.key).getD (empty arrival.maxlen)).append arrival.item)

/-- The queue that the arrivals for one key leave, if there are any. -/
def queueOf : List (Arrival κ α) → Option (BoundedQueue α)
  | [] => none
  | first :: rest => some (ofItems first.maxlen ((first :: rest).map Arrival.item))

theorem queueOf_concat (arrivals : List (Arrival κ α)) (arrival : Arrival κ α) :
    queueOf (arrivals ++ [arrival]) = some (((queueOf arrivals).getD (empty arrival.maxlen)).append arrival.item) := by
  cases arrivals with
  | nil => rw [List.nil_append, queueOf, queueOf, Option.getD_none, ← ofItems_nil, append_ofItems]; rfl
  | cons first rest =>
    rw [List.cons_append, queueOf, queueOf, Option.getD_some, append_ofItems, ← List.cons_append, List.map_append]
    rfl

/-- Every queue holds the end of what has come for its key. -/
theorem get?_pushes [DecidableEq κ] (arrivals : List (Arrival κ α)) (key : κ) :
    (arrivals.foldl push Dict.empty).get? key = queueOf (arrivals.filter (·.key = key)) := by
  induction arrivals using List.reverseRecOn with
  | nil => rfl
  | append_singleton arrivals arrival ih =>
    rw [List.foldl_concat, push, Dict.get?_set, List.filter_append]
    by_cases same : key = arrival.key
    · subst same
      rw [if_pos rfl, ih, List.filter_singleton, decide_eq_true rfl, Bool.cond_true, queueOf_concat]
    · rw [if_neg same, ih, List.filter_singleton, decide_eq_false (Ne.symm same), Bool.cond_false, List.append_nil]

end BoundedQueue
end OmocNode
