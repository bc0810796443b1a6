import Mathlib.Data.List.Induction
import Mathlib.Data.List.Nodup

/-! Dictionaries that keep the order in which their keys were inserted. A key
that is set again stays where it is. -/

namespace OmocNode

structure Dict (κ α : Type*) where
  entries : List (κ × α)
  distinct : (entries.map Prod.fst).Nodup

namespace Dict
variable {κ α : Type*}

def empty : Dict κ α := ⟨[], List.nodup_nil⟩

def keys (dict : Dict κ α) : List κ := dict.entries.map Prod.fst

@[simp] theorem keys_empty : (empty : Dict κ α).keys = [] := rfl

theorem keys_nodup (dict : Dict κ α) : dict.keys.Nodup := dict.distinct

variable [DecidableEq κ]

def get? (dict : Dict κ α) (key : κ) : Option α := (dict.entries.find? fun entry => entry.1 = key).map Prod.snd

def replaced (key : κ) (value : α) (entries : List (κ × α)) : List (κ × α) :=
  entries.map fun entry => if entry.1 = key then (key, value) else entry

omit [DecidableEq κ] in
theorem map_fst_of_same {change : κ × α → κ × α} (same : ∀ entry, (change entry).1 = entry.1) (entries : List (κ × α)) :
    (entries.map change).map Prod.fst = entries.map Prod.fst := by
  rw [List.map_map]
  exact List.map_congr_left fun entry _ => same entry

@[simp] theorem map_fst_replaced (key : κ) (value : α) (entries : List (κ × α)) :
    (replaced key value entries).map Prod.fst = entries.map Prod.fst := by
  apply map_fst_of_same
  intro entry
  split
  next same => exact same.symm
  next => rfl

def set (dict : Dict κ α) (key : κ) (value : α) : Dict κ α :=
  if present : key ∈ dict.keys then ⟨replaced key value dict.entries, by rw [map_fst_replaced]; exact dict.distinct⟩
  else ⟨dict.entries ++ [(key, value)], by
    rw [List.map_append, List.nodup_append_comm]
    exact List.nodup_cons.mpr ⟨present, dict.distinct⟩⟩

def erase (dict : Dict κ α) (key : κ) : Dict κ α :=
  ⟨dict.entries.filter fun entry => entry.1 ≠ key, dict.distinct.sublist (List.filter_sublist.map _)⟩

/-- The dictionary built by setting the entries of a list in their order. -/
def ofList (items : List (κ × α)) : Dict κ α := items.foldl (fun dict item => dict.set item.1 item.2) empty

private theorem find?_of_mem {entries : List (κ × α)} (distinct : (entries.map Prod.fst).Nodup) {key : κ} {value : α}
    (member : (key, value) ∈ entries) : entries.find? (fun entry => entry.1 = key) = some (key, value) := by
  induction entries with
  | nil => cases member
  | cons entry entries ih =>
    rw [List.map_cons, List.nodup_cons] at distinct
    rcases List.mem_cons.mp member with rfl | later
    · simp
    · have other : entry.1 ≠ key := fun same => distinct.1 (same ▸ List.mem_map_of_mem later)
      rw [List.find?_cons_of_neg (by simpa using other)]
      exact ih distinct.2 later

theorem get?_eq_some_iff {dict : Dict κ α} {key : κ} {value : α} : dict.get? key = some value ↔ (key, value) ∈ dict.entries := by
  rw [get?]
  constructor
  · intro read
    obtain ⟨⟨other, _⟩, found, rfl⟩ := Option.map_eq_some_iff.mp read
    obtain rfl : other = key := by simpa using List.find?_some found
    exact List.mem_of_find?_eq_some found
  · intro member
    rw [find?_of_mem dict.distinct member, Option.map_some]

theorem mem_keys_iff {dict : Dict κ α} {key : κ} : key ∈ dict.keys ↔ ∃ value, dict.get? key = some value := by
  simp only [get?_eq_some_iff, keys, List.mem_map, Prod.exists, exists_and_right, exists_eq_right]

theorem get?_eq_none_iff {dict : Dict κ α} {key : κ} : dict.get? key = none ↔ key ∉ dict.keys := by
  rw [mem_keys_iff, Option.eq_none_iff_forall_ne_some, not_exists]

theorem mem_entries_set {dict : Dict κ α} {key other : κ} {value read : α} :
    (other, read) ∈ (dict.set key value).entries ↔
      other = key ∧ read = value ∨ other ≠ key ∧ (other, read) ∈ dict.entries := by
  rw [set]
  split
  next present =>
    simp only [replaced, List.mem_map, Prod.exists]
    constructor
    · intro changed
      obtain ⟨before, old, member, same⟩ := changed
      split at same
      · obtain ⟨rfl, rfl⟩ := Prod.mk.inj same
        exact Or.inl ⟨rfl, rfl⟩
      next different =>
        obtain ⟨rfl, rfl⟩ := Prod.mk.inj same
        exact Or.inr ⟨different, member⟩
    · intro source
      rcases source with ⟨rfl, rfl⟩ | ⟨different, member⟩
      · obtain ⟨⟨before, old⟩, member, rfl⟩ := List.mem_map.mp present
        exact ⟨before, old, member, if_pos rfl⟩
      · exact ⟨other, read, member, if_neg different⟩
  next absent =>
    have different : (other, read) ∈ dict.entries → other ≠ key := by
      intro member same
      exact absent (same ▸ List.mem_map_of_mem member)
    simp only [List.mem_append, List.mem_singleton, Prod.mk.injEq]
    constructor
    · intro appended
      rcases appended with member | same
      · exact Or.inr ⟨different member, member⟩
      · exact Or.inl same
    · intro source
      rcases source with same | ⟨_, member⟩
      · exact Or.inr same
      · exact Or.inl member

@[simp] theorem get?_set (dict : Dict κ α) (key other : κ) (value : α) :
    (dict.set key value).get? other = if other = key then some value else dict.get? other := by
  apply Option.ext
  intro read
  split
  next same =>
    rw [get?_eq_some_iff, mem_entries_set, Option.some.injEq, eq_comm (a := value)]
    simp [same]
  next different => simp [get?_eq_some_iff, mem_entries_set, different]

@[simp] theorem get?_erase (dict : Dict κ α) (key other : κ) :
    (dict.erase key).get? other = if other = key then none else dict.get? other := by
  apply Option.ext
  intro read
  split
  next same => simp [get?_eq_some_iff, erase, same]
  next different => simp [get?_eq_some_iff, erase, different]

theorem mem_keys_set {dict : Dict κ α} {key other : κ} {value : α} :
    other ∈ (dict.set key value).keys ↔ other = key ∨ other ∈ dict.keys := by
  simp only [mem_keys_iff, get?_set]
  by_cases same : other = key <;> simp [same]

theorem mem_keys_erase {dict : Dict κ α} {key other : κ} : other ∈ (dict.erase key).keys ↔ other ≠ key ∧ other ∈ dict.keys := by
  simp only [mem_keys_iff, get?_erase]
  by_cases same : other = key <;> simp [same]

theorem keys_erase (dict : Dict κ α) (key : κ) : (dict.erase key).keys = dict.keys.filter fun other => other ≠ key := by
  rw [keys, keys, erase, List.filter_map]
  rfl

theorem keys_prefix_set (dict : Dict κ α) (key : κ) (value : α) : dict.keys <+: (dict.set key value).keys := by
  rw [set]
  split
  · simp only [keys, map_fst_replaced, List.prefix_rfl]
  · rw [keys, keys, List.map_append]
    exact List.prefix_append _ _

theorem mem_keys_ofList {items : List (κ × α)} {key : κ} : key ∈ (ofList items).keys ↔ key ∈ items.map Prod.fst := by
  induction items using List.reverseRecOn with
  | nil => simp [ofList]
  | append_singleton items item ih =>
    rw [ofList, List.foldl_concat, ← ofList, mem_keys_set, ih, List.map_append, List.mem_append, List.map_singleton,
      List.mem_singleton, or_comm]

theorem mem_of_mem_ofList {items : List (κ × α)} {entry : κ × α} (member : entry ∈ (ofList items).entries) : entry ∈ items := by
  induction items using List.reverseRecOn with
  | nil => cases member
  | append_singleton items item ih =>
    rw [ofList, List.foldl_concat, ← ofList] at member
    rcases mem_entries_set.mp member with ⟨same, read⟩ | ⟨_, earlier⟩
    · rw [List.mem_append, List.mem_singleton]
      exact Or.inr (Prod.ext same read)
    · exact List.mem_append_left _ (ih earlier)

end Dict
end OmocNode
