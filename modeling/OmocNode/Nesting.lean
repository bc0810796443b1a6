import Mathlib

/-! Texts with brackets, and their fields: what stands between separators that are
in no bracket. -/

namespace OmocNode.Nesting

variable {α : Type*} [DecidableEq α]

/-- The symbols of a notation. -/
structure Symbols (α : Type*) where
  opening : α
  closing : α
  separator : α
  openingClosing : opening ≠ closing
  openingSeparator : opening ≠ separator
  closingSeparator : closing ≠ separator

variable (symbols : Symbols α)

/-- How many brackets are open after an item, unless it closes one that was not open. -/
def level (depth : ℕ) (item : α) : Option ℕ :=
  if item = symbols.opening then some (depth + 1)
  else if item = symbols.closing then if depth = 0 then none else some (depth - 1)
  else some depth

def depthAfter (depth : ℕ) (text : List α) : Option ℕ := text.foldlM (level symbols) depth

def Nested (text : List α) : Prop := depthAfter symbols 0 text = some 0

instance (text : List α) : Decidable (Nested symbols text) := inferInstanceAs (Decidable (_ = _))

/-- No symbol of the notation. -/
def Plain (text : List α) : Prop :=
  ∀ item ∈ text, item ≠ symbols.opening ∧ item ≠ symbols.closing ∧ item ≠ symbols.separator

/-- The fields of a text, when some brackets are open and a part of the first field is read. -/
def splitFrom (depth : ℤ) (part : List α) : List α → List (List α)
  | [] => [part]
  | item :: rest =>
    if item = symbols.opening then splitFrom (depth + 1) (part ++ [item]) rest
    else if item = symbols.closing then splitFrom (depth - 1) (part ++ [item]) rest
    else if item = symbols.separator ∧ depth = 0 then part :: splitFrom depth [] rest
    else splitFrom depth (part ++ [item]) rest

def split (text : List α) : List (List α) := splitFrom symbols 0 [] text

def join (fields : List (List α)) : List α := List.intercalate [symbols.separator] fields

/-- One field. -/
structure Single (text : List α) : Prop where
  nested : Nested symbols text
  field : split symbols text = [text]

variable {symbols} {text rest inner : List α} {depth final : ℕ}

@[simp] theorem level_opening : level symbols depth symbols.opening = some (depth + 1) := if_pos rfl

@[simp] theorem level_closing : level symbols (depth + 1) symbols.closing = some depth := by
  simp [level, symbols.openingClosing.symm]

@[simp] theorem level_closing_zero : level symbols 0 symbols.closing = none := by
  simp [level, symbols.openingClosing.symm]

theorem level_other {item : α} (opens : item ≠ symbols.opening) (closes : item ≠ symbols.closing) :
    level symbols depth item = some depth := by
  simp [level, opens, closes]

theorem level_add {item : α} (more : ℕ) (reached : level symbols depth item = some final) :
    level symbols (depth + more) item = some (final + more) := by
  unfold level at reached ⊢
  split_ifs at reached ⊢
  next opens =>
    obtain rfl := Option.some.inj reached
    rw [Nat.add_right_comm]
  next => omega
  next positive later =>
    obtain rfl := Option.some.inj reached
    congr 1
    omega
  next =>
    obtain rfl := Option.some.inj reached
    rfl

@[simp] theorem depthAfter_nil : depthAfter symbols depth [] = some depth := rfl

theorem depthAfter_cons (item : α) : depthAfter symbols depth (item :: text) =
    (level symbols depth item).bind fun middle => depthAfter symbols middle text := rfl

theorem depthAfter_append : depthAfter symbols depth (text ++ rest) =
    (depthAfter symbols depth text).bind fun middle => depthAfter symbols middle rest := List.foldlM_append

/-- A text reads the same inside more brackets. -/
theorem depthAfter_add (more : ℕ) (ends : depthAfter symbols depth text = some final) :
    depthAfter symbols (depth + more) text = some (final + more) := by
  induction text generalizing depth with
  | nil =>
    obtain rfl := Option.some.inj ends
    rfl
  | cons item text ih =>
    obtain ⟨middle, first, later⟩ := Option.bind_eq_some_iff.mp ends
    rw [depthAfter_cons, level_add more first]
    exact ih later

theorem nested_append (first : Nested symbols text) (second : Nested symbols rest) : Nested symbols (text ++ rest) := by
  rw [Nested, depthAfter_append, first]
  exact second

theorem nested_group (nested : Nested symbols inner) (second : Nested symbols rest) :
    Nested symbols (symbols.opening :: inner ++ symbols.closing :: rest) := by
  have opened : depthAfter symbols 1 inner = some 1 := by simpa using depthAfter_add 1 nested
  rw [Nested, List.cons_append, depthAfter_cons, level_opening, Option.bind_some, depthAfter_append, opened, Option.bind_some,
    depthAfter_cons, level_closing]
  exact second

theorem nested_plain (plain : Plain symbols text) : Nested symbols text := by
  induction text with
  | nil => rfl
  | cons item text ih =>
    obtain ⟨first, others⟩ := List.forall_mem_cons.mp plain
    rw [Nested, depthAfter_cons, level_other first.1 first.2.1]
    exact ih others

/-- A bracket that is open is closed somewhere in the text, or nowhere. -/
theorem closes_or_stays (depth : ℕ) (text : List α) :
    (∃ inner rest, text = inner ++ symbols.closing :: rest ∧ depthAfter symbols depth inner = some 0) ∨
      ∃ final, depthAfter symbols depth text = some final := by
  induction text generalizing depth with
  | nil => exact .inr ⟨depth, rfl⟩
  | cons item text ih =>
    cases first : level symbols depth item with
    | none =>
      have closes : item = symbols.closing ∧ depth = 0 := by
        unfold level at first
        split_ifs at first
        next closes zero => exact ⟨closes, zero⟩
      exact .inl ⟨[], text, by rw [closes.1, List.nil_append], by rw [closes.2]; rfl⟩
    | some middle =>
      rcases ih middle with ⟨inner, rest, rfl, ends⟩ | ⟨final, ends⟩
      · refine .inl ⟨item :: inner, rest, rfl, ?_⟩
        rw [depthAfter_cons, first]
        exact ends
      · refine .inr ⟨final, ?_⟩
        rw [depthAfter_cons, first]
        exact ends

/-- How many more brackets an item opens than it closes. -/
def change (symbols : Symbols α) (item : α) : ℤ :=
  if item = symbols.opening then 1 else if item = symbols.closing then -1 else 0

def balance (symbols : Symbols α) (text : List α) : ℤ := (text.map (change symbols)).sum

theorem balance_of_depthAfter (ends : depthAfter symbols depth text = some final) :
    (depth : ℤ) + balance symbols text = final := by
  induction text generalizing depth with
  | nil =>
    obtain rfl := Option.some.inj ends
    exact Int.add_zero _
  | cons item text ih =>
    obtain ⟨middle, first, later⟩ := Option.bind_eq_some_iff.mp ends
    have rest := ih later
    have here : (depth : ℤ) + change symbols item = middle := by
      unfold level at first
      unfold change
      split_ifs at first ⊢
      all_goals
        obtain rfl := Option.some.inj first
        omega
    rw [balance, List.map_cons, List.sum_cons]
    rw [balance] at rest
    omega

theorem balance_of_nested (nested : Nested symbols text) : balance symbols text = 0 := by
  simpa using balance_of_depthAfter nested

variable {part : List α} {depths : ℤ}

theorem splitFrom_cons (item : α) : splitFrom symbols depths part (item :: text) =
    if item = symbols.separator ∧ depths = 0 then part :: splitFrom symbols depths [] text
    else splitFrom symbols (depths + change symbols item) (part ++ [item]) text := by
  rw [splitFrom, change]
  by_cases opens : item = symbols.opening
  · have other : ¬(item = symbols.separator ∧ depths = 0) := fun both => symbols.openingSeparator (opens ▸ both.1)
    rw [if_pos opens, if_neg other, if_pos opens]
  by_cases closes : item = symbols.closing
  · have other : ¬(item = symbols.separator ∧ depths = 0) := fun both => symbols.closingSeparator (closes ▸ both.1)
    rw [if_neg opens, if_pos closes, if_neg other, if_neg opens, if_pos closes]
    rfl
  · rw [if_neg opens, if_neg closes, if_neg opens, if_neg closes, Int.add_zero]

theorem splitFrom_ne_nil : splitFrom symbols depths part text ≠ [] := by
  induction text generalizing depths part with
  | nil => exact List.cons_ne_nil _ _
  | cons item text ih =>
    rw [splitFrom_cons]
    split_ifs
    · exact List.cons_ne_nil _ _
    · exact ih

/-- What is read of the last field goes on after more text. -/
theorem splitFrom_append : splitFrom symbols depths part (text ++ rest) =
    (splitFrom symbols depths part text).dropLast ++
      splitFrom symbols (depths + balance symbols text) ((splitFrom symbols depths part text).getLast splitFrom_ne_nil) rest := by
  induction text generalizing depths part with
  | nil => simp [splitFrom, balance]
  | cons item text ih =>
    simp only [List.cons_append, splitFrom_cons, balance, List.map_cons, List.sum_cons]
    split_ifs with separates
    · have level : change symbols item = 0 := by
        rw [change, separates.1, if_neg symbols.openingSeparator.symm, if_neg symbols.closingSeparator.symm]
      simp only [ih, List.dropLast_cons_of_ne_nil splitFrom_ne_nil, List.cons_append, List.getLast_cons splitFrom_ne_nil, level,
        Int.zero_add, balance]
    · simp only [ih, balance, Int.add_assoc]

theorem Single.split_cons (single : Single symbols text) :
    split symbols (text ++ symbols.separator :: rest) = text :: split symbols rest := by
  have whole : splitFrom symbols 0 [] text = [text] := single.field
  have level : (0 : ℤ) + balance symbols text = 0 := by rw [balance_of_nested single.nested]; rfl
  rw [split, splitFrom_append]
  simp only [whole, List.dropLast_singleton, List.nil_append, List.getLast_singleton, level]
  rw [splitFrom_cons, if_pos ⟨rfl, rfl⟩]
  rfl

/-- Fields that are joined are split again. -/
theorem split_join {fields : List (List α)} (some : fields ≠ []) (each : ∀ field ∈ fields, Single symbols field) :
    split symbols (join symbols fields) = fields := by
  induction fields with
  | nil => exact absurd rfl some
  | cons field fields ih =>
    obtain ⟨first, others⟩ := List.forall_mem_cons.mp each
    cases fields with
    | nil => simpa [join] using first.field
    | cons next fields =>
      have shape : join symbols (field :: next :: fields) = field ++ symbols.separator :: join symbols (next :: fields) := by
        simp [join, List.intercalate_cons_cons]
      rw [shape, first.split_cons, ih (List.cons_ne_nil _ _) others]

/-- No item of a text gets lost. -/
theorem join_split (text : List α) : join symbols (split symbols text) = text := by
  have from_part : ∀ (text part : List α) (depths : ℤ), join symbols (splitFrom symbols depths part text) = part ++ text := by
    intro text
    induction text with
    | nil => simp [splitFrom, join]
    | cons item text ih =>
      intro part depths
      rw [splitFrom_cons]
      split_ifs with separates
      · obtain ⟨next, fields, shape⟩ := List.exists_cons_of_ne_nil (@splitFrom_ne_nil _ _ symbols text [] depths)
        have later := ih [] depths
        rw [shape] at later ⊢
        rw [join, List.intercalate_cons_cons, ← join, later, separates.1]
        simp
      · rw [ih, List.append_assoc]
        rfl
  exact from_part text [] 0

theorem Single.append (first : Single symbols text) (second : Plain symbols rest) : Single symbols (text ++ rest) := by
  have plain : ∀ (rest part : List α), Plain symbols rest → splitFrom symbols 0 part rest = [part ++ rest] := by
    intro rest
    induction rest with
    | nil => simp [splitFrom]
    | cons item rest ih =>
      intro part plain
      obtain ⟨here, others⟩ := List.forall_mem_cons.mp plain
      have other : ¬(item = symbols.separator ∧ (0 : ℤ) = 0) := fun both => here.2.2 both.1
      rw [splitFrom_cons, if_neg other, change, if_neg here.1, if_neg here.2.1, Int.add_zero, ih _ others, List.append_assoc]
      rfl
  have whole : splitFrom symbols 0 [] text = [text] := first.field
  have level : (0 : ℤ) + balance symbols text = 0 := by rw [balance_of_nested first.nested]; rfl
  refine ⟨nested_append first.nested (nested_plain second), ?_⟩
  rw [split, splitFrom_append]
  simp only [whole, List.dropLast_singleton, List.nil_append, List.getLast_singleton, level]
  exact plain rest text second

theorem single_nil : Single symbols ([] : List α) := ⟨rfl, rfl⟩

theorem single_plain (plain : Plain symbols text) : Single symbols text := by
  have appended := single_nil.append plain
  rwa [List.nil_append] at appended

/-- Inside a bracket separators do not separate. -/
theorem single_group (nested : Nested symbols inner) : Single symbols (symbols.opening :: inner ++ [symbols.closing]) := by
  refine ⟨nested_group nested rfl, ?_⟩
  have inside : ∀ (inner part : List α) (depth final : ℕ), depthAfter symbols depth inner = some final →
      splitFrom symbols (depth + 1) part inner = [part ++ inner] := by
    intro inner
    induction inner with
    | nil => simp [splitFrom]
    | cons item inner ih =>
      intro part depth final ends
      obtain ⟨middle, first, later⟩ := Option.bind_eq_some_iff.mp ends
      have here : (depth : ℤ) + change symbols item = middle := by
        have one := @balance_of_depthAfter _ _ symbols [item] depth middle (by rw [depthAfter_cons, first]; rfl)
        simpa [balance] using one
      have other : ¬(item = symbols.separator ∧ ((depth : ℤ) + 1) = 0) := by omega
      rw [splitFrom_cons, if_neg other, show (depth : ℤ) + 1 + change symbols item = middle + 1 by omega, ih _ _ _ later,
        List.append_assoc]
      rfl
  have within : splitFrom symbols (0 + 1) [symbols.opening] inner = [[symbols.opening] ++ inner] := inside inner _ 0 0 nested
  have level : (0 : ℤ) + 1 + balance symbols inner = 1 := by rw [balance_of_nested nested]; rfl
  have zero : ¬(symbols.opening = symbols.separator ∧ (0 : ℤ) = 0) := fun both => symbols.openingSeparator both.1
  have other : ¬(symbols.closing = symbols.separator ∧ (1 : ℤ) = 0) := by omega
  rw [split, List.cons_append, splitFrom_cons, if_neg zero, change, if_pos rfl, List.nil_append, splitFrom_append]
  simp only [within, List.dropLast_singleton, List.nil_append, List.getLast_singleton, level]
  rw [splitFrom_cons, if_neg other]
  rfl

/-- Fields joined are nested, if each of them is. -/
theorem nested_join {fields : List (List α)} (each : ∀ field ∈ fields, Nested symbols field) : Nested symbols (join symbols fields) := by
  induction fields with
  | nil => rfl
  | cons field fields ih =>
    obtain ⟨first, others⟩ := List.forall_mem_cons.mp each
    cases fields with
    | nil => simpa [join] using first
    | cons next fields =>
      have shape : join symbols (field :: next :: fields) = field ++ ([symbols.separator] ++ join symbols (next :: fields)) := by
        simp [join, List.intercalate_cons_cons]
      have separates : Nested symbols [symbols.separator] := by
        rw [Nested, depthAfter_cons, level_other symbols.openingSeparator.symm symbols.closingSeparator.symm]
        rfl
      rw [shape]
      exact nested_append first (nested_append separates (ih others))

end OmocNode.Nesting
