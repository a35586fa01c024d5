import HuntWarden.Lib.JsonSyntax
import Mathlib.Data.Nat.Digits.Lemmas

/-! The JSON that the probe in a Java process writes. Texts are UTF-16 code units; a map is written in the
    order of its entries, with its keys as texts; an object of any other class is written as its text. -/

namespace HuntWarden.Probe.Json

open JsonSyntax

/-- What the writer tells apart; `ν` are the numbers that are finite. -/
inductive Value (ν : Type) where
  | null
  | string (units : Units)
  | character (unit : ℕ)
  | number (value : ν)
  | boolean (value : Bool)
  | map (entries : List (Units × Value ν))
  | collection (items : List (Value ν))
  | array (items : List (Value ν))
  | other (text : Units)

/-- One character of `quote`. -/
def escape (character : ℕ) : Units :=
  if character = 0x22 then [0x5C, 0x22]
  else if character = 0x5C then [0x5C, 0x5C]
  else if character = 0x08 then units "\\b"
  else if character = 0x0C then units "\\f"
  else if character = 0x0A then units "\\n"
  else if character = 0x0D then units "\\r"
  else if character = 0x09 then units "\\t"
  else if character < 0x20 then hexEscape character
  else [character]

def quote (value : Units) : Units := 0x22 :: (value.flatMap escape ++ [0x22])

example : quote [0x61, 0x22, 0x1F] = units "\"a\\\"\\u001f\"" := by decide

variable {ν : Type}

mutual

def append (write : ν → Units) : Value ν → Units
  | .null => units "null"
  | .string text => quote text
  | .character unit => quote [unit]
  | .number value => write value
  | .boolean value => if value then units "true" else units "false"
  | .map entries => 0x7B :: (appendEntries write entries ++ [0x7D])
  | .collection items => 0x5B :: (appendItems write items ++ [0x5D])
  | .array items => 0x5B :: (appendItems write items ++ [0x5D])
  | .other text => quote text

/-- A comma stands before every entry but the first. -/
def appendEntries (write : ν → Units) : List (Units × Value ν) → Units
  | [] => []
  | [(key, value)] => quote key ++ 0x3A :: append write value
  | (key, value) :: entry :: entries =>
    quote key ++ 0x3A :: (append write value ++ 0x2C :: appendEntries write (entry :: entries))

def appendItems (write : ν → Units) : List (Value ν) → Units
  | [] => []
  | [item] => append write item
  | item :: next :: items => append write item ++ 0x2C :: appendItems write (next :: items)

end

def stringify (numbers : Numbers ν) (value : Value ν) : Units := append numbers.write value

mutual

/-- The tree that a value stands for. -/
def tree : Value ν → JsonTree ν
  | .null => .null
  | .string text => .text text
  | .character unit => .text [unit]
  | .number value => .number value
  | .boolean value => .boolean value
  | .map entries => .object (treeEntries entries)
  | .collection items => .array (treeItems items)
  | .array items => .array (treeItems items)
  | .other text => .text text

def treeEntries : List (Units × Value ν) → List (Units × JsonTree ν)
  | [] => []
  | (key, value) :: entries => (key, tree value) :: treeEntries entries

def treeItems : List (Value ν) → List (JsonTree ν)
  | [] => []
  | item :: items => tree item :: treeItems items

end

mutual

/-- No map of the tree has two keys of one text. -/
def DistinctKeys : Value ν → Prop
  | .map entries => (entries.map Prod.fst).Nodup ∧ DistinctEntries entries
  | .collection items => DistinctItems items
  | .array items => DistinctItems items
  | _ => True

def DistinctEntries : List (Units × Value ν) → Prop
  | [] => True
  | (_, value) :: entries => DistinctKeys value ∧ DistinctEntries entries

def DistinctItems : List (Value ν) → Prop
  | [] => True
  | item :: items => DistinctKeys item ∧ DistinctItems items

end

/-! ### Texts -/

theorem textBody_escape (character : ℕ) (rest : Units) : textBody (escape character ++ rest) =
    (textBody rest).map fun later => (character :: later.1, later.2) := by
  rw [escape]
  split
  · next h => rw [h]; exact textBody_letter (by decide) rfl rest
  split
  · next h => rw [h]; exact textBody_letter (by decide) rfl rest
  split
  · next h => rw [h]; exact textBody_letter (by decide) rfl rest
  split
  · next h => rw [h]; exact textBody_letter (by decide) rfl rest
  split
  · next h => rw [h]; exact textBody_letter (by decide) rfl rest
  split
  · next h => rw [h]; exact textBody_letter (by decide) rfl rest
  split
  · next h => rw [h]; exact textBody_letter (by decide) rfl rest
  split
  · next h => exact textBody_hex (by omega) rest
  · next hquote hslash _ _ _ _ _ hplain => exact textBody_raw hquote hslash (Nat.not_lt.1 hplain) rest

/-- A text that was quoted is read back. -/
theorem textBody_quote (text rest : Units) :
    textBody (text.flatMap escape ++ 0x22 :: rest) = some (text, rest) := by
  induction text with
  | nil => exact textBody_close rest
  | cons character text ih => rw [List.flatMap_cons, List.append_assoc, textBody_escape, ih, Option.map_some]

theorem quote_append (text rest : Units) : quote text ++ rest = 0x22 :: (text.flatMap escape ++ 0x22 :: rest) := by
  simp [quote]

/-! ### Values -/

variable {numbers : Numbers ν}

/-- A value starts with no blank and with no closing bracket. -/
theorem append_starts (value : Value ν) (rest : Units) : ∃ first more,
    append numbers.write value ++ rest = first :: more ∧ isBlank first = false ∧ first ≠ 0x5D := by
  cases value with
  | null => exact ⟨0x6E, _, rfl, rfl, by decide⟩
  | string text => exact ⟨0x22, _, rfl, rfl, by decide⟩
  | character unit => exact ⟨0x22, _, rfl, rfl, by decide⟩
  | number value =>
    obtain ⟨first, more, hfirst, hstart⟩ := (numbers.grammar value).starts rest
    rw [isDigit_iff] at hstart
    refine ⟨first, more, by rw [append, hfirst], ?_, by omega⟩
    rcases hstart with rfl | hdigit
    · rfl
    · simp only [isBlank, Bool.or_eq_false_iff, decide_eq_false_iff_not]
      omega
  | boolean value =>
    cases value
    · exact ⟨0x66, _, rfl, rfl, by decide⟩
    · exact ⟨0x74, _, rfl, rfl, by decide⟩
  | map entries => exact ⟨0x7B, _, by rw [append]; rfl, rfl, by decide⟩
  | collection items => exact ⟨0x5B, _, by rw [append]; rfl, rfl, by decide⟩
  | array items => exact ⟨0x5B, _, by rw [append]; rfl, rfl, by decide⟩
  | other text => exact ⟨0x22, _, rfl, rfl, by decide⟩

theorem appendItems_starts (item : Value ν) (items : List (Value ν)) (rest : Units) : ∃ first more,
    appendItems numbers.write (item :: items) ++ rest = first :: more ∧ isBlank first = false ∧ first ≠ 0x5D := by
  cases items with
  | nil => exact append_starts item rest
  | cons next items =>
    rw [appendItems, List.append_assoc]
    exact append_starts item _

theorem appendEntries_starts (entry : Units × Value ν) (entries : List (Units × Value ν)) (rest : Units) :
    ∃ more, appendEntries numbers.write (entry :: entries) ++ rest = 0x22 :: more := by
  obtain ⟨key, value⟩ := entry
  cases entries with
  | nil => exact ⟨_, by rw [appendEntries, quote]; rfl⟩
  | cons next entries => exact ⟨_, by rw [appendEntries, quote]; rfl⟩

theorem keys_treeEntries : ∀ entries : List (Units × Value ν),
    (treeEntries entries).map Prod.fst = entries.map Prod.fst
  | [] => rfl
  | (key, _) :: entries => congrArg (key :: ·) (keys_treeEntries entries)

/-- What is read of a value, and what is left, whatever the fuel beyond some of it. -/
def Recovers (numbers : Numbers ν) (v : Value ν) : Prop :=
  ∃ n, ∀ more rest, Ends rest →
    value numbers.read (n + more) (append numbers.write v ++ rest) = some (tree v, rest)

theorem recovers_array {items : List (Value ν)} (h : items ≠ [] → ∃ n, ∀ more rest,
    JsonSyntax.items numbers.read (n + more) (appendItems numbers.write items ++ 0x5D :: rest) =
      some (treeItems items, rest)) :
    ∃ n, ∀ more rest, value numbers.read (n + more) (0x5B :: (appendItems numbers.write items ++ 0x5D :: rest)) =
      some (.array (treeItems items), rest) := by
  cases items with
  | nil =>
    refine ⟨1, fun more rest => ?_⟩
    rw [Nat.add_comm]
    exact value_array_nil numbers.read more
  | cons item items =>
    obtain ⟨n, hitems⟩ := h (List.cons_ne_nil _ _)
    refine ⟨n + 1, fun more rest => ?_⟩
    have hread := hitems more rest
    obtain ⟨first, later, hfirst, hblank, hclose⟩ :=
      @appendItems_starts _ numbers item items (0x5D :: rest)
    rw [Nat.add_right_comm, hfirst]
    rw [hfirst] at hread
    exact value_array numbers.read (n + more) hblank hclose hread

theorem ends_mark {unit : ℕ} (h : unit = 0x2C ∨ unit = 0x5D ∨ unit = 0x7D) (rest : Units) : Ends (unit :: rest) :=
  starts_cons h rest

theorem recovers_text {text : Units} : ∃ n, ∀ more rest,
    value numbers.read (n + more) (quote text ++ rest) = some (.text text, rest) := by
  refine ⟨1, fun more rest => ?_⟩
  rw [quote_append, Nat.add_comm]
  exact value_text numbers.read more (textBody_quote text rest)

mutual

theorem recovers : ∀ v : Value ν, DistinctKeys v → Recovers numbers v
  | .null, _ => ⟨1, fun more rest _ => by rw [Nat.add_comm]; exact value_null numbers.read more⟩
  | .string text, _ => by
      obtain ⟨n, hn⟩ := @recovers_text _ numbers text
      exact ⟨n, fun more rest _ => hn more rest⟩
  | .character unit, _ => by
      obtain ⟨n, hn⟩ := @recovers_text _ numbers [unit]
      exact ⟨n, fun more rest _ => hn more rest⟩
  | .number n, _ => ⟨1, fun more rest hrest => by
      rw [Nat.add_comm, append, value_number numbers.read more (numbers.grammar n) hrest, numbers.read_write, tree]⟩
  | .boolean true, _ => ⟨1, fun more rest _ => by rw [Nat.add_comm]; exact value_true numbers.read more⟩
  | .boolean false, _ => ⟨1, fun more rest _ => by rw [Nat.add_comm]; exact value_false numbers.read more⟩
  | .map entries, h => by
      rw [DistinctKeys] at h
      cases entries with
      | nil =>
        refine ⟨1, fun more rest _ => ?_⟩
        rw [Nat.add_comm]
        exact value_object_nil numbers.read more
      | cons entry entries =>
        obtain ⟨n, hentries⟩ := recovers_entries (entry :: entries) (List.cons_ne_nil _ _) h.1 h.2
        refine ⟨n + 1, fun more rest _ => ?_⟩
        have hread := hentries more rest
        obtain ⟨later, hlater⟩ := @appendEntries_starts _ numbers entry entries (0x7D :: rest)
        rw [Nat.add_right_comm, append, List.cons_append, List.append_assoc, List.singleton_append, hlater]
        rw [hlater] at hread
        exact value_object numbers.read (n + more) hread
  | .collection items, h => by
      rw [DistinctKeys] at h
      obtain ⟨n, hn⟩ := recovers_array fun hsome => recovers_items items hsome h
      refine ⟨n, fun more rest _ => ?_⟩
      rw [append, List.cons_append, List.append_assoc, List.singleton_append]
      exact hn more rest
  | .array items, h => by
      rw [DistinctKeys] at h
      obtain ⟨n, hn⟩ := recovers_array fun hsome => recovers_items items hsome h
      refine ⟨n, fun more rest _ => ?_⟩
      rw [append, List.cons_append, List.append_assoc, List.singleton_append]
      exact hn more rest
  | .other text, _ => by
      obtain ⟨n, hn⟩ := @recovers_text _ numbers text
      exact ⟨n, fun more rest _ => hn more rest⟩

theorem recovers_items : ∀ items : List (Value ν), items ≠ [] → DistinctItems items → ∃ n, ∀ more rest,
    JsonSyntax.items numbers.read (n + more) (appendItems numbers.write items ++ 0x5D :: rest) =
      some (treeItems items, rest)
  | [], h, _ => absurd rfl h
  | [item], _, h => by
      rw [DistinctItems] at h
      obtain ⟨n, hitem⟩ := recovers item h.1
      refine ⟨n + 1, fun more rest => ?_⟩
      rw [Nat.add_right_comm, appendItems]
      exact items_last numbers.read (n + more) (hitem more _ (ends_mark (Or.inr (Or.inl rfl)) rest))
  | item :: next :: items, _, h => by
      rw [DistinctItems] at h
      obtain ⟨n, hitem⟩ := recovers item h.1
      obtain ⟨m, hitems⟩ := recovers_items (next :: items) (List.cons_ne_nil _ _) h.2
      refine ⟨n + m + 1, fun more rest => ?_⟩
      have hfirst := hitem (m + more) (0x2C :: (appendItems numbers.write (next :: items) ++ 0x5D :: rest))
        (ends_mark (Or.inl rfl) _)
      have hlater := hitems (n + more) rest
      rw [show n + m + 1 + more = (n + (m + more)) + 1 by omega, appendItems, List.append_assoc, List.cons_append]
      rw [show m + (n + more) = n + (m + more) by omega] at hlater
      exact items_more numbers.read _ hfirst hlater

theorem recovers_entries : ∀ entries : List (Units × Value ν), entries ≠ [] → (entries.map Prod.fst).Nodup →
    DistinctEntries entries → ∃ n, ∀ more rest,
      members numbers.read (n + more) (appendEntries numbers.write entries ++ 0x7D :: rest) =
        some (treeEntries entries, rest)
  | [], h, _, _ => absurd rfl h
  | [(key, v)], _, _, h => by
      rw [DistinctEntries] at h
      obtain ⟨n, hvalue⟩ := recovers v h.1
      refine ⟨n + 2, fun more rest => ?_⟩
      have hread := hvalue more (0x7D :: rest) (ends_mark (Or.inr (Or.inr rfl)) rest)
      rw [show n + 2 + more = (n + more) + 1 + 1 by omega, appendEntries, List.append_assoc, List.cons_append,
        quote_append]
      exact members_last numbers.read _ (member_read numbers.read _ (textBody_quote key _) hread)
  | (key, v) :: next :: entries, _, hnodup, h => by
      rw [DistinctEntries] at h
      rw [List.map_cons, List.nodup_cons] at hnodup
      obtain ⟨n, hvalue⟩ := recovers v h.1
      obtain ⟨m, hentries⟩ := recovers_entries (next :: entries) (List.cons_ne_nil _ _) hnodup.2 h.2
      refine ⟨n + m + 2, fun more rest => ?_⟩
      have hread := hvalue (m + more) (0x2C :: (appendEntries numbers.write (next :: entries) ++ 0x7D :: rest))
        (ends_mark (Or.inl rfl) _)
      have hlater := hentries (n + more + 1) rest
      have hnew : put key (tree v) (treeEntries (next :: entries)) = treeEntries ((key, v) :: next :: entries) :=
        put_new (by rw [keys_treeEntries]; exact hnodup.1)
      rw [show n + m + 2 + more = (n + (m + more)) + 1 + 1 by omega, appendEntries, List.append_assoc, List.cons_append,
        List.append_assoc, List.cons_append, quote_append, ← hnew]
      rw [show m + (n + more + 1) = (n + (m + more)) + 1 by omega] at hlater
      exact members_more numbers.read _ (member_read numbers.read _ (textBody_quote key _) hread) hlater

end

/-- **The round trip.** For every value whose maps have keys of different texts, the text that is written is
    JSON, and a reader recovers the tree of the value from it. -/
theorem stringify_recovers (numbers : Numbers ν) (value : Value ν) (h : DistinctKeys value) :
    ∃ steps, ∀ more, parse numbers.read (steps + more) (stringify numbers value) = some (tree value) := by
  obtain ⟨n, hn⟩ := recovers value h
  refine ⟨n, fun more => ?_⟩
  have hread := hn more [] fun unit later h => absurd h.symm (List.cons_ne_nil _ _)
  rw [List.append_nil] at hread
  rw [parse, stringify, hread]
  rfl

/-! ### Whole numbers -/

/-- `Long.toString` of a number that is not negative. -/
def decimal (n : ℕ) : Units := if n = 0 then [0x30] else (Nat.digits 10 n).reverse.map (0x30 + ·)

def ofDecimal (text : Units) : ℕ := Nat.ofDigits 10 ((text.map (· - 0x30)).reverse)

theorem isWhole_decimal (n : ℕ) : IsWhole (decimal n) := by
  rw [decimal]
  split
  · exact Or.inl rfl
  · next hzero =>
    refine Or.inr ⟨⟨?_, ?_⟩, ?_⟩
    · simpa [Nat.digits_ne_nil_iff_ne_zero] using hzero
    · intro unit hunit
      obtain ⟨digit, hdigit, rfl⟩ := List.mem_map.1 hunit
      have hlt := Nat.digits_lt_base (by decide : 1 < 10) (List.mem_reverse.1 hdigit)
      rw [isDigit_iff]
      omega
    · have hlast := Nat.getLast_digit_ne_zero 10 hzero
      rw [List.head?_map, List.head?_reverse,
        List.getLast?_eq_getLast_of_ne_nil (Nat.digits_ne_nil_iff_ne_zero.2 hzero)]
      simpa using hlast

theorem ofDecimal_decimal (n : ℕ) : ofDecimal (decimal n) = n := by
  rw [decimal]
  split
  · next hzero => rw [hzero]; rfl
  · have hsame : ∀ digits : List ℕ, (digits.map (0x30 + ·)).map (· - 0x30) = digits := fun digits => by
      rw [List.map_map]
      exact (List.map_congr_left fun digit _ => Nat.add_sub_cancel_left 0x30 digit).trans (List.map_id _)
    rw [ofDecimal, hsame, List.reverse_reverse, Nat.ofDigits_digits]

/-- The numbers of type `long`. -/
def longNumbers : Numbers ℤ where
  write n := (if n < 0 then [0x2D] else []) ++ decimal n.natAbs
  read text := if text.head? = some 0x2D then -(ofDecimal text.tail : ℤ) else ofDecimal text
  grammar n := by
    refine ⟨⟨_, _, [], [], by rw [List.append_nil, List.append_nil], ?_, isWhole_decimal n.natAbs,
      Or.inl rfl, Or.inl rfl⟩⟩
    split
    · exact Or.inr rfl
    · exact Or.inl rfl
  read_write n := by
    by_cases hsign : n < 0
    · have hhead : ([0x2D] ++ decimal n.natAbs : Units).head? = some 0x2D := rfl
      have htail : ([0x2D] ++ decimal n.natAbs : Units).tail = decimal n.natAbs := rfl
      rw [if_pos hsign, if_pos hhead, htail, ofDecimal_decimal]
      omega
    · obtain ⟨first, more, hfirst, hdigit⟩ := (isWhole_decimal n.natAbs).starts []
      rw [List.append_nil] at hfirst
      have hhead : (decimal n.natAbs).head? ≠ some 0x2D := by
        rw [hfirst, List.head?_cons, Ne, Option.some.injEq]
        rintro rfl
        cases hdigit
      rw [if_neg hsign, List.nil_append, if_neg hhead, ofDecimal_decimal]
      omega

/-- A map with a number, and a list with a text of a quotation mark, a backslash and a control character. -/
def sampleValue : Value ℤ :=
  .map [(units "n", .number (-12)), (units "s", .collection [.string [0x22, 0x5C, 0x01, 0xD83D], .null])]

theorem sample_recovers : ∃ steps, ∀ more,
    parse longNumbers.read (steps + more) (stringify longNumbers sampleValue) = some (tree sampleValue) :=
  stringify_recovers longNumbers sampleValue
    (by simp [sampleValue, DistinctKeys, DistinctEntries, DistinctItems, units])

end HuntWarden.Probe.Json
