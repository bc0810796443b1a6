import OmocNode.Multicall
import OmocNode.Nesting
import OmocNode.Proofs.Outcomes

/-! Which signatures the multicall reads, and as what. The function, its argument
types and its result types are found again in any signature written in full. -/

namespace OmocNode.Proofs.MulticallSignatures
open Multicall Nesting Outcomes

/-- The brackets and the comma of a signature. -/
def symbols : Symbols Char := ⟨'(', ')', ',', by decide, by decide, by decide⟩

section Types

private theorem foldl_typeStep (text : Text) (s : TypeScan) :
    (text.foldl typeStep s).parts ++ [(text.foldl typeStep s).part] = s.parts ++ splitFrom symbols s.insideTuples s.part text := by
  induction text generalizing s with
  | nil => rfl
  | cons character text ih =>
    rw [List.foldl_cons, ih, splitFrom, typeStep]
    change _ = s.parts ++ if character = '(' then _ else if character = ')' then _ else
      if character = ',' ∧ s.insideTuples = 0 then _ else _
    split_ifs <;> simp

def group (inner : Text) : Text := '(' :: inner ++ [')']

/-- The types of a group are its fields. -/
theorem parseTypeString_group (inner : Text) :
    parseTypeString (group inner) = if inner = [] then [] else split symbols inner := by
  unfold parseTypeString
  have empty_iff : group inner = ['(', ')'] ↔ inner = [] := by simp [group]
  by_cases empty : inner = []
  · rw [if_pos (empty_iff.mpr empty), if_pos empty]
  · have trimmed : ((group inner).drop 1).dropLast = inner := by simp [group]
    rw [if_neg fun both => empty (empty_iff.mp both), if_neg empty]
    dsimp only
    rw [trimmed, foldl_typeStep]
    rfl

private theorem parseTypeString_join {types : List Text} (each : ∀ text ∈ types, Single symbols text ∧ text ≠ []) :
    parseTypeString (group (join symbols types)) = types := by
  rw [parseTypeString_group]
  cases types with
  | nil => rfl
  | cons first rest =>
    have filled : join symbols (first :: rest) ≠ [] := by
      have nonempty := (each first List.mem_cons_self).2
      cases rest with
      | nil => simpa [join] using nonempty
      | cons next rest => simp [join, List.intercalate_cons_cons]
    rw [if_neg filled]
    exact split_join (List.cons_ne_nil _ _) fun text member => (each text member).1

end Types

section Scan

/-- The loop without positions: the parts, the text read since the last of them, and the depth. -/
structure Fed where
  parts : List Text
  current : Text
  depth : ℕ

def feed (s : Fed) (character : Char) : Except PyError Fed :=
  if character = '(' then
    if s.parts = [] then .ok ⟨[s.current], [character], s.depth + 1⟩
    else .ok ⟨s.parts, s.current ++ [character], s.depth + 1⟩
  else if character = ')' then
    if s.depth = 0 then .error .indexError
    else if s.depth = 1 then .ok ⟨s.parts ++ [s.current ++ [character]], [], 0⟩
    else .ok ⟨s.parts, s.current ++ [character], s.depth - 1⟩
  else .ok ⟨s.parts, s.current ++ [character], s.depth⟩

/-- The loop stands behind the text that it has read. -/
structure Reads (past : Text) (s : Scan) (fed : Fed) : Prop where
  parts : s.parts = fed.parts
  depth : s.stack.length = fed.depth
  start : s.start ≤ past.length
  current : fed.current = past.drop s.start

/-- The positions say what the text does. -/
theorem scanStep_feed {past rest : Text} {s : Scan} {fed : Fed} (reads : Reads past s fed) (character : Char) :
    match scanStep (past ++ character :: rest) s past.length character, feed fed character with
    | .ok s, .ok fed => Reads (past ++ [character]) s fed
    | .error first, .error second => first = second
    | _, _ => False := by
  obtain ⟨parts, depth, start, current⟩ := reads
  have before : slice (past ++ character :: rest) s.start past.length = fed.current := by
    rw [slice, List.take_left, current]
  have through : slice (past ++ character :: rest) s.start (past.length + 1) = fed.current ++ [character] := by
    have taken : (past ++ character :: rest).take (past.length + 1) = past ++ [character] := by
      rw [List.take_length_add_append]
      rfl
    rw [slice, taken, List.drop_append_of_le_length start, current]
  have later : fed.current ++ [character] = (past ++ [character]).drop s.start := by
    rw [List.drop_append_of_le_length start, current]
  unfold scanStep feed
  by_cases opens : character = '('
  · rw [if_pos opens, if_pos opens]
    by_cases first : fed.parts = []
    · rw [if_pos (by rw [parts, first]; rfl), if_pos first]
      exact ⟨by simp [before], by simp [depth], by simp, by simp⟩
    · rw [if_neg (by rw [parts, List.isEmpty_iff]; exact first), if_neg first]
      exact ⟨parts, by simp [depth], by simp; omega, later⟩
  rw [if_neg opens, if_neg opens]
  by_cases closes : character = ')'
  · rw [if_pos closes, if_pos closes]
    by_cases none_open : fed.depth = 0
    · have empty : s.stack = [] := List.eq_nil_of_length_eq_zero (depth.trans none_open)
      rw [if_pos (by rw [empty]; rfl), if_pos none_open]
    have some_open : ¬s.stack.isEmpty = true := by
      rw [List.isEmpty_iff]
      rintro empty
      exact none_open (by rw [← depth, empty]; rfl)
    rw [if_neg some_open, if_neg none_open]
    have popped : s.stack.dropLast.length = fed.depth - 1 := by rw [List.length_dropLast, depth]
    by_cases outermost : fed.depth = 1
    · have last : s.stack.dropLast.isEmpty = true := by
        rw [List.isEmpty_iff]
        exact List.eq_nil_of_length_eq_zero (by rw [popped, outermost])
      dsimp only
      rw [if_pos last, if_pos outermost]
      exact ⟨by simp [parts, through], by simp [popped, outermost], by simp, by simp⟩
    · have more : ¬s.stack.dropLast.isEmpty = true := by
        rw [List.isEmpty_iff]
        intro empty
        rw [empty] at popped
        simp at popped
        omega
      dsimp only
      rw [if_neg more, if_neg outermost]
      exact ⟨parts, popped, by simp; omega, later⟩
  · rw [if_neg closes, if_neg closes]
    exact ⟨parts, depth, by simp; omega, later⟩

private theorem scan_feed {past : Text} (rest : Text) {s : Scan} {fed : Fed} (reads : Reads past s fed) :
    (scan (past ++ rest) past.length s rest).map Scan.parts = (rest.foldlM feed fed).map Fed.parts := by
  induction rest generalizing past s fed with
  | nil => exact congrArg Except.ok reads.parts
  | cons character rest ih =>
    have stepped := @scanStep_feed past rest s fed reads character
    rw [scan, List.foldlM_cons]
    cases first : scanStep (past ++ character :: rest) s past.length character with
    | error err =>
      cases second : feed fed character with
      | error err' =>
        rw [first, second] at stepped
        rw [show err = err' from stepped]
        rfl
      | ok fed' =>
        rw [first, second] at stepped
        exact stepped.elim
    | ok s' =>
      cases second : feed fed character with
      | error err' =>
        rw [first, second] at stepped
        exact stepped.elim
      | ok fed' =>
        rw [first, second] at stepped
        have later := ih (show Reads (past ++ [character]) s' fed' from stepped)
        rw [List.append_assoc, List.length_append] at later
        exact later

end Scan

section Groups
variable {text inner : Text} {parts : List Text} {current : Text} {depth final : ℕ}

def Unbracketed (text : Text) : Prop := ∀ character ∈ text, character ≠ '(' ∧ character ≠ ')'

private theorem feed_open (some : parts ≠ []) : feed ⟨parts, current, depth⟩ '(' = .ok ⟨parts, current ++ ['('], depth + 1⟩ := by
  rw [feed, if_pos rfl, if_neg some]

private theorem feed_close : feed ⟨parts, current, depth + 2⟩ ')' = .ok ⟨parts, current ++ [')'], depth + 1⟩ := by
  simp [feed]

private theorem feed_last : feed ⟨parts, current, 1⟩ ')' = .ok ⟨parts ++ [current ++ [')']], [], 0⟩ := by
  simp [feed]

private theorem feed_other {character : Char} (opens : character ≠ '(') (closes : character ≠ ')') :
    feed ⟨parts, current, depth⟩ character = .ok ⟨parts, current ++ [character], depth⟩ := by
  rw [feed, if_neg opens, if_neg closes]

private theorem feed_unbracketed (unbracketed : Unbracketed text) :
    text.foldlM feed ⟨parts, current, depth⟩ = .ok ⟨parts, current ++ text, depth⟩ := by
  induction text generalizing current with
  | nil => simp; rfl
  | cons character text ih =>
    obtain ⟨here, others⟩ := List.forall_mem_cons.mp unbracketed
    have later := @ih (current ++ [character]) others
    rw [List.append_assoc] at later
    rw [List.foldlM_cons, feed_other here.1 here.2]
    exact later

/-- Inside a group a character changes the depth, and nothing else. -/
theorem feed_level (some : parts ≠ []) {character : Char} (first : level symbols depth character = Option.some final) :
    feed ⟨parts, current, depth + 1⟩ character = .ok ⟨parts, current ++ [character], final + 1⟩ := by
  by_cases opens : character = '('
  · subst opens
    obtain rfl : depth + 1 = final := Option.some.inj first
    exact feed_open some
  by_cases closes : character = ')'
  · subst closes
    cases depth with
    | zero => cases first
    | succ depth =>
      obtain rfl : depth = final := Option.some.inj first
      exact feed_close
  · rw [level_other opens closes] at first
    obtain rfl := Option.some.inj first
    exact feed_other opens closes

private theorem feed_inside (some : parts ≠ []) (ends : depthAfter symbols depth text = Option.some final) :
    text.foldlM feed ⟨parts, current, depth + 1⟩ = .ok ⟨parts, current ++ text, final + 1⟩ := by
  induction text generalizing current depth with
  | nil =>
    obtain rfl := Option.some.inj ends
    simp
    rfl
  | cons character text ih =>
    obtain ⟨middle, first, later⟩ := Option.bind_eq_some_iff.mp ends
    have rest := @ih (current ++ [character]) middle later
    rw [List.append_assoc] at rest
    rw [List.foldlM_cons, feed_level some first]
    exact rest

private theorem feed_group (some : parts ≠ []) (nested : Nested symbols inner) :
    (group inner).foldlM feed ⟨parts, current, 0⟩ = .ok ⟨parts ++ [current ++ group inner], [], 0⟩ := by
  have inside := @feed_inside inner parts (current ++ ['(']) 0 0 some nested
  rw [group, List.cons_append, List.foldlM_cons, feed_open some]
  change (inner ++ [')']).foldlM feed ⟨parts, current ++ ['('], 0 + 1⟩ = _
  rw [List.foldlM_append, inside]
  change feed ⟨parts, current ++ ['('] ++ inner, 1⟩ ')' >>= pure = _
  rw [feed_last, List.append_assoc, List.append_assoc]
  rfl

/-- The first group comes after the name. -/
theorem feed_first (nested : Nested symbols inner) :
    (group inner).foldlM feed ⟨[], current, 0⟩ = .ok ⟨[current, group inner], [], 0⟩ := by
  have inside := @feed_inside inner [current] ['('] 0 0 (List.cons_ne_nil _ _) nested
  rw [group, List.cons_append, List.foldlM_cons]
  change (inner ++ [')']).foldlM feed ⟨[current], ['('], 0 + 1⟩ = _
  rw [List.foldlM_append, inside]
  change feed ⟨[current], ['('] ++ inner, 1⟩ ')' >>= pure = _
  rw [feed_last]
  rfl

/-- Once the first parts are found, the others only add to them. -/
theorem feed_rest (some : parts ≠ []) (text : Text) :
    (∃ fed, text.foldlM feed ⟨parts, current, depth⟩ = .ok fed ∧ parts <+: fed.parts ∧
        ∃ final, depthAfter symbols depth text = Option.some final) ∨
      text.foldlM feed ⟨parts, current, depth⟩ = .error .indexError ∧ depthAfter symbols depth text = none := by
  induction text generalizing parts current depth with
  | nil => exact .inl ⟨_, rfl, List.prefix_rfl, depth, rfl⟩
  | cons character text ih =>
    rw [List.foldlM_cons, depthAfter_cons]
    cases first : level symbols depth character with
    | none =>
      have closes : character = ')' ∧ depth = 0 := by
        unfold level at first
        split_ifs at first
        next closes zero => exact ⟨closes, zero⟩
      refine .inr ⟨?_, rfl⟩
      rw [closes.1, closes.2]
      rfl
    | some middle =>
      by_cases outermost : depth = 1 ∧ character = ')'
      · obtain ⟨rfl, rfl⟩ := outermost
        obtain rfl : 0 = middle := Option.some.inj first
        rw [feed_last]
        rcases @ih (parts ++ [current ++ [')']]) [] 0 (by simp) with ⟨fed, ran, grown, ends⟩ | failed
        · exact .inl ⟨fed, ran, (List.prefix_append _ _).trans grown, ends⟩
        · exact .inr failed
      · have stepped : feed ⟨parts, current, depth⟩ character = .ok ⟨parts, current ++ [character], middle⟩ := by
          cases depth with
          | zero =>
            by_cases opens : character = '('
            · subst opens
              obtain rfl : 1 = middle := Option.some.inj first
              exact feed_open some
            by_cases closes : character = ')'
            · subst closes
              cases first
            · rw [level_other opens closes] at first
              obtain rfl := Option.some.inj first
              exact feed_other opens closes
          | succ depth =>
            by_cases closes : character = ')'
            · subst closes
              cases depth with
              | zero => exact absurd ⟨rfl, rfl⟩ outermost
              | succ depth =>
                obtain rfl : depth + 1 = middle := Option.some.inj first
                exact feed_close
            by_cases opens : character = '('
            · subst opens
              obtain rfl : depth + 1 + 1 = middle := Option.some.inj first
              exact feed_open some
            · rw [level_other opens closes] at first
              obtain rfl := Option.some.inj first
              exact feed_other opens closes
        rw [stepped]
        exact @ih parts (current ++ [character]) middle some

end Groups

section Accepted
variable {signature name between first second rest function : Text} {inputs outputs : List Text}

private theorem parseSignature_feed (signature : Text) : parseSignature signature = (do
    let fed ← signature.foldlM feed ⟨[], [], 0⟩
    let inputs ← Python.getItem fed.parts 1
    let outputs ← Python.getItem fed.parts 2
    return ((fed.parts.take 2).flatten, parseTypeString inputs, parseTypeString outputs)) := by
  have scanned := @scan_feed [] signature ⟨[], [], 0⟩ ⟨[], [], 0⟩ ⟨rfl, rfl, le_rfl, rfl⟩
  rw [List.nil_append, List.length_nil] at scanned
  unfold parseSignature
  cases ran : scan signature 0 ⟨[], [], 0⟩ signature with
  | error err =>
    cases read : signature.foldlM feed ⟨[], [], 0⟩ with
    | error err' =>
      rw [ran, read] at scanned
      rw [Except.error.inj scanned]
      rfl
    | ok fed =>
      rw [ran, read] at scanned
      cases scanned
  | ok s =>
    cases read : signature.foldlM feed ⟨[], [], 0⟩ with
    | error err =>
      rw [ran, read] at scanned
      cases scanned
    | ok fed =>
      rw [ran, read] at scanned
      have parts : s.parts = fed.parts := Except.ok.inj scanned
      simp only [bind, Except.bind, parts]

/-- The outermost groups of a signature, and what stands around them. -/
structure Signed (signature name first between second rest : Text) : Prop where
  shape : signature = name ++ (group first ++ (between ++ (group second ++ rest)))
  name : Unbracketed name
  first : Nested symbols first
  between : Unbracketed between
  second : Nested symbols second
  rest : depthAfter symbols 0 rest ≠ none

private theorem feed_append {text : Text} (rest : Text) {fed fed' : Fed} (ran : text.foldlM feed fed = .ok fed') :
    (text ++ rest).foldlM feed fed = rest.foldlM feed fed' := by
  rw [List.foldlM_append, ran]
  rfl

theorem Signed.fed (signed : Signed signature name first between second rest) :
    ∃ fed, signature.foldlM feed ⟨[], [], 0⟩ = .ok fed ∧ [name, group first, between ++ group second] <+: fed.parts := by
  have before : name.foldlM feed ⟨[], [], 0⟩ = .ok ⟨[], name, 0⟩ := by
    simpa using @feed_unbracketed name [] [] 0 signed.name
  have middle : between.foldlM feed ⟨[name, group first], [], 0⟩ = .ok ⟨[name, group first], between, 0⟩ := by
    simpa using @feed_unbracketed between [name, group first] [] 0 signed.between
  have closed : (group second).foldlM feed ⟨[name, group first], between, 0⟩ =
      .ok ⟨[name, group first, between ++ group second], [], 0⟩ := feed_group (List.cons_ne_nil _ _) signed.second
  have whole : signature.foldlM feed ⟨[], [], 0⟩ = rest.foldlM feed ⟨[name, group first, between ++ group second], [], 0⟩ := by
    rw [signed.shape, feed_append _ before, feed_append _ (feed_first signed.first), feed_append _ middle, feed_append _ closed]
  rcases @feed_rest [name, group first, between ++ group second] [] 0 (List.cons_ne_nil _ _) rest with
    ⟨fed, ran, grown, -⟩ | ⟨-, failed⟩
  · exact ⟨fed, whole.trans ran, grown⟩
  · exact absurd failed signed.rest

theorem Signed.parsed (signed : Signed signature name first between second rest) :
    parseSignature signature = .ok (name ++ group first, parseTypeString (group first), parseTypeString (between ++ group second)) := by
  obtain ⟨fed, ran, parts⟩ := signed.fed
  obtain ⟨more, shape⟩ := parts
  rw [parseSignature_feed, ran]
  simp only [bind, Except.bind, pure, Except.pure]
  rw [← shape]
  simp [Python.getItem]

/-- A text goes on to its first group, or has none. -/
inductive FirstGroup : Text → Prop
  | closed {before inner rest : Text} (unbracketed : Unbracketed before) (nested : Nested symbols inner) :
      FirstGroup (before ++ (group inner ++ rest))
  | none {text : Text} (unbracketed : Unbracketed text) : FirstGroup text
  | stays {before inner : Text} (unbracketed : Unbracketed before) {final : ℕ} (ends : depthAfter symbols 0 inner = some final) :
      FirstGroup (before ++ '(' :: inner)
  | closing {before rest : Text} (unbracketed : Unbracketed before) : FirstGroup (before ++ ')' :: rest)

private theorem firstGroup (text : Text) : FirstGroup text := by
  have bracket : Unbracketed text ∨ ∃ before bracket rest, (bracket = '(' ∨ bracket = ')') ∧ Unbracketed before ∧
      text = before ++ bracket :: rest := by
    induction text with
    | nil => exact .inl fun _ member => nomatch member
    | cons character text ih =>
      by_cases here : character = '(' ∨ character = ')'
      · exact .inr ⟨[], character, text, here, (fun _ member => nomatch member), rfl⟩
      · have other := not_or.mp here
        rcases ih with unbracketed | ⟨before, bracket, rest, which, unbracketed, rfl⟩
        · exact .inl (List.forall_mem_cons.mpr ⟨other, unbracketed⟩)
        · exact .inr ⟨character :: before, bracket, rest, which, List.forall_mem_cons.mpr ⟨other, unbracketed⟩, rfl⟩
  rcases bracket with unbracketed | ⟨before, bracket, rest, rfl | rfl, unbracketed, rfl⟩
  · exact .none unbracketed
  · rcases @closes_or_stays _ _ symbols 0 rest with ⟨inner, rest, rfl, nested⟩ | ⟨final, ends⟩
    · have shape : '(' :: (inner ++ ')' :: rest) = group inner ++ rest := by simp [group]
      rw [show symbols.closing = ')' from rfl, shape]
      exact .closed unbracketed nested
    · exact .stays unbracketed ends
  · exact .closing unbracketed

private theorem three_parts {result : Text × List Text × List Text} (parsed : parseSignature signature = .ok result) :
    ∃ fed, signature.foldlM feed ⟨[], [], 0⟩ = .ok fed ∧ 2 < fed.parts.length := by
  rw [parseSignature_feed, bind_eq_ok_iff] at parsed
  obtain ⟨fed, ran, parsed⟩ := parsed
  obtain ⟨inputs, -, parsed⟩ := bind_eq_ok_iff.mp parsed
  obtain ⟨outputs, third, -⟩ := bind_eq_ok_iff.mp parsed
  refine ⟨fed, ran, ?_⟩
  by_contra few
  have missing : fed.parts[2]? = none := List.getElem?_eq_none (by omega)
  simp [Python.getItem, missing] at third

private theorem feed_closing (unbracketed : Unbracketed text) (parts : List Text) (current : Text) :
    (text ++ ')' :: rest).foldlM feed ⟨parts, current, 0⟩ = .error .indexError := by
  rw [feed_append _ (feed_unbracketed unbracketed)]
  rfl

private theorem first_read {fed : Fed} (ran : signature.foldlM feed ⟨[], [], 0⟩ = .ok fed) (three : 2 < fed.parts.length) :
    ∃ name first rest, signature = name ++ (group first ++ rest) ∧ Unbracketed name ∧ Nested symbols first ∧
      rest.foldlM feed ⟨[name, group first], [], 0⟩ = .ok fed := by
  cases firstGroup signature with
  | none unbracketed =>
    rw [feed_unbracketed unbracketed] at ran
    cases ran
    simp at three
  | closing unbracketed =>
    rw [feed_closing unbracketed] at ran
    cases ran
  | @stays name inner unbracketed final ends =>
    have inside := @feed_inside inner [name] ['('] 0 final (List.cons_ne_nil _ _) ends
    have later : ('(' :: inner).foldlM feed ⟨[], name, 0⟩ = .ok ⟨[name], ['('] ++ inner, final + 1⟩ := inside
    rw [feed_append _ (feed_unbracketed unbracketed), List.nil_append, later] at ran
    cases ran
    simp at three
  | @closed name first rest unbracketed nested =>
    rw [feed_append _ (feed_unbracketed unbracketed), List.nil_append, feed_append _ (feed_first nested)] at ran
    exact ⟨name, first, rest, rfl, unbracketed, nested, ran⟩

private theorem second_read {fed : Fed} (ran : text.foldlM feed ⟨[name, group first], [], 0⟩ = .ok fed) (three : 2 < fed.parts.length) :
    ∃ between second rest, text = between ++ (group second ++ rest) ∧ Unbracketed between ∧ Nested symbols second ∧
      depthAfter symbols 0 rest ≠ none := by
  have named : [name, group first] ≠ [] := List.cons_ne_nil _ _
  cases firstGroup text with
  | none unbracketed =>
    rw [feed_unbracketed unbracketed] at ran
    cases ran
    simp at three
  | closing unbracketed =>
    rw [feed_closing unbracketed] at ran
    cases ran
  | @stays between inner unbracketed final ends =>
    have inside := @feed_inside inner [name, group first] (between ++ ['(']) 0 final named ends
    have later : ('(' :: inner).foldlM feed ⟨[name, group first], between, 0⟩ =
        .ok ⟨[name, group first], between ++ ['('] ++ inner, final + 1⟩ := by
      rw [List.foldlM_cons, feed_open named]
      exact inside
    rw [feed_append _ (feed_unbracketed unbracketed), List.nil_append, later] at ran
    cases ran
    simp at three
  | @closed between second rest unbracketed nested =>
    refine ⟨between, second, rest, rfl, unbracketed, nested, ?_⟩
    intro closes
    rw [feed_append _ (feed_unbracketed unbracketed), List.nil_append, feed_append _ (feed_group named nested)] at ran
    rcases @feed_rest ([name, group first] ++ [between ++ group second]) [] 0 (by simp) rest with ⟨_, _, _, _, ends⟩ | ⟨failed, -⟩
    · rw [closes] at ends
      cases ends
    · rw [failed] at ran
      cases ran

/-- A signature is read when it has its two groups, and nothing closes that is not open. -/
theorem signed_of_parsed {result : Text × List Text × List Text} (parsed : parseSignature signature = .ok result) :
    ∃ name first between second rest, Signed signature name first between second rest := by
  obtain ⟨fed, ran, three⟩ := three_parts parsed
  obtain ⟨name, first, text, rfl, name_unbracketed, first_nested, ran⟩ := first_read ran three
  obtain ⟨between, second, rest, rfl, between_unbracketed, second_nested, ends⟩ := second_read ran three
  exact ⟨name, first, between, second, rest, rfl, name_unbracketed, first_nested, between_unbracketed, second_nested, ends⟩

/-- The text that the selector is taken of is the name with the types of the arguments. -/
theorem selector_types (parsed : parseSignature signature = .ok (function, inputs, outputs)) :
    ∃ name, Unbracketed name ∧ name <+: signature ∧ function = name ++ group (join symbols inputs) ∧ function <+: signature := by
  obtain ⟨name, first, between, second, rest, signed⟩ := signed_of_parsed parsed
  have result := signed.parsed.symm.trans parsed
  simp only [Except.ok.injEq, Prod.mk.injEq, parseTypeString_group] at result
  obtain ⟨rfl, rfl, -⟩ := result
  have joined : join symbols (if first = [] then [] else split symbols first) = first := by
    split
    next empty =>
      rw [empty]
      rfl
    next => exact join_split first
  refine ⟨name, signed.name, ?_, by rw [joined], ?_⟩
  · rw [signed.shape]
    exact List.prefix_append _ _
  · rw [signed.shape, ← List.append_assoc]
    exact List.prefix_append _ _

theorem selector_types_aggregate : ∃ name, Unbracketed name ∧ name <+: "f((a,b)[],c) (d)".toList ∧
    "f((a,b)[],c)".toList = name ++ group (join symbols ["(a,b)[]".toList, "c".toList]) ∧
    "f((a,b)[],c)".toList <+: "f((a,b)[],c) (d)".toList :=
  @selector_types _ _ _ [['(', 'd']] (by decide)

end Accepted

section RoundTrip

/-- A type as it is written: a name, or the types of a tuple and what stands behind it. -/
inductive AbiType
  | elementary (name : Text) (plain : Plain symbols name) (named : name ≠ [])
  | tuple (components : List AbiType) (suffix : Text) (plain : Plain symbols suffix)

mutual
def AbiType.render : AbiType → Text
  | .elementary name _ _ => name
  | .tuple components suffix _ => group (join symbols (renderAll components)) ++ suffix

def renderAll : List AbiType → List Text
  | [] => []
  | type :: types => type.render :: renderAll types
end

mutual
theorem AbiType.single : ∀ type : AbiType, Single symbols type.render ∧ type.render ≠ []
  | .elementary _ plain named => ⟨single_plain plain, named⟩
  | .tuple components _ plain => by
    have nested : Nested symbols (join symbols (renderAll components)) :=
      nested_join fun field member => (renderAll_single components field member).1.nested
    exact ⟨(single_group nested).append plain, List.cons_ne_nil _ _⟩

private theorem renderAll_single : ∀ types : List AbiType, ∀ text ∈ renderAll types, Single symbols text ∧ text ≠ []
  | [], _, member => nomatch member
  | type :: types, text, member => by
    rcases List.mem_cons.mp member with rfl | later
    · exact type.single
    · exact renderAll_single types text later
end

structure Signature where
  name : Text
  unbracketed : Unbracketed name
  inputs : List AbiType
  outputs : List AbiType

/-- The selector is taken of this part. -/
def Signature.function (signature : Signature) : Text :=
  signature.name ++ group (join symbols (renderAll signature.inputs))

def Signature.render (signature : Signature) : Text :=
  signature.function ++ group (join symbols (renderAll signature.outputs))

theorem signature_roundTrip (signature : Signature) : parseSignature signature.render =
    .ok (signature.function, renderAll signature.inputs, renderAll signature.outputs) := by
  have nested : ∀ types, Nested symbols (join symbols (renderAll types)) :=
    fun types => nested_join fun field member => (renderAll_single types field member).1.nested
  have signed : Signed signature.render signature.name (join symbols (renderAll signature.inputs)) []
      (join symbols (renderAll signature.outputs)) [] := by
    refine ⟨?_, signature.unbracketed, nested _, (fun _ member => nomatch member), nested _, nofun⟩
    simp [Signature.render, Signature.function]
  rw [signed.parsed, List.nil_append, parseTypeString_join (renderAll_single _), parseTypeString_join (renderAll_single _)]
  rfl

example : parseSignature "aggregate((address,bytes)[])(uint256,bytes[])".toList =
    .ok ("aggregate((address,bytes)[])".toList, ["(address,bytes)[]".toList], ["uint256".toList, "bytes[]".toList]) := by decide

end RoundTrip

end OmocNode.Proofs.MulticallSignatures
