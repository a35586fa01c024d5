import HuntWarden.Helper.Match
import HuntWarden.Lib.Pieces
import HuntWarden.Lib.Utf8Exact

/-! The scanner behind `match`, turn by turn: it reads a file as UTF-8 and keeps where each character
    starts in the bytes, so that a hit in the text is a place in the file. -/

namespace HuntWarden.Helper.DecodeOffsets

open Utf8 Pieces

/-- One turn: the text for the bytes at `index`, and how many bytes it takes. -/
def readCharacter (raw : List UInt8) (index : ℕ) (first : UInt8) : List Char × ℕ :=
  let candidate := slice raw index (index + width first)
  match if candidate.length ≠ width first then none else strict? candidate with
  | some character => (character, width first)
  | none => ([replacement], 1)

/-- The loop, as far as the steps last. -/
def scan (raw : List UInt8) : ℕ → ℕ → List (List Char) → List ℕ → Option (List Char × List ℕ)
  | 0, _, _, _ => none
  | steps + 1, index, characters, offsets =>
    match raw[index]? with
    | none => some (characters.flatten, offsets ++ [raw.length])
    | some first =>
      scan raw steps (index + (readCharacter raw index first).2)
        (characters ++ [(readCharacter raw index first).1]) (offsets ++ [index])

/-- `decode_utf8_with_offsets` -/
def decodeUtf8WithOffsets (raw : List UInt8) (steps : ℕ) : Option (List Char × List ℕ) := scan raw steps 0 [] []

/-- A text and offsets that part the bytes into its characters. -/
structure Partition (raw : List UInt8) (text : List Char) (offsets : List ℕ) : Prop where
  counted : offsets.length = text.length + 1
  first : offsets.head? = some 0
  last : offsets.getLast? = some raw.length
  increasing : offsets.Pairwise (· < ·)
  whole : (slices raw offsets).flatten = raw
  shown : List.Forall₂ Shows text (slices raw offsets)

variable {raw : List UInt8}

/-! ### One turn -/

theorem slice_here (before rest : List UInt8) (n : ℕ) :
    slice (before ++ rest) before.length (before.length + n) = rest.take n := by
  rw [slice, List.drop_left' rfl, Nat.add_sub_cancel_left]

theorem readCharacter_char (before rest : List UInt8) {c : Char} {first : UInt8} {tail : List UInt8}
    (h : String.utf8EncodeChar c = first :: tail) :
    readCharacter (before ++ (String.utf8EncodeChar c ++ rest)) before.length first =
      ([c], (String.utf8EncodeChar c).length) := by
  obtain ⟨first', tail', hc, hsequence, -⟩ := char_sequence c
  rw [h, List.cons.injEq] at hc
  obtain ⟨rfl, rfl⟩ := hc
  have hwidth : width first = (String.utf8EncodeChar c).length := by rw [h, hsequence.width, List.length_cons]
  have hstrict : strict? (String.utf8EncodeChar c) = some [c] := by
    have hone := strict?_encode [c]
    rwa [List.flatMap_singleton] at hone
  rw [readCharacter, slice_here, hwidth, List.take_left' rfl, if_neg (not_not_intro rfl), hstrict]

/-- A candidate that is read is the sequence of one character. -/
theorem strict?_candidate {first : UInt8} {tail : List UInt8} {cs : List Char}
    (hlength : (first :: tail).length = width first) (h : strict? (first :: tail) = some cs) :
    ∃ c, first :: tail = String.utf8EncodeChar c := by
  have hencode := encode_of_strict? h
  cases cs with
  | nil => exact absurd hencode (List.cons_ne_nil _ _)
  | cons c cs =>
    refine ⟨c, ?_⟩
    obtain ⟨first', tail', hc, hsequence, -⟩ := char_sequence c
    rw [List.flatMap_cons, hc, List.cons_append, List.cons.injEq] at hencode
    obtain ⟨rfl, htail⟩ := hencode
    have hsame : tail.length = tail'.length := Nat.succ.inj (hlength.trans hsequence.width)
    have hnil : cs.flatMap String.utf8EncodeChar = [] := by
      rw [htail, List.length_append] at hsame
      exact List.length_eq_zero_iff.1 (by omega)
    rw [hc, htail, hnil, List.append_nil]

theorem readCharacter_bad (before : List UInt8) {first : UInt8} {rest : List UInt8}
    (h : ∀ c, ¬ String.utf8EncodeChar c <+: first :: rest) :
    readCharacter (before ++ first :: rest) before.length first = ([replacement], 1) := by
  have hpos : ∃ n, width first = n + 1 := by
    rw [width]
    split
    · exact ⟨1, rfl⟩
    · split
      · exact ⟨2, rfl⟩
      · split
        · exact ⟨3, rfl⟩
        · exact ⟨0, rfl⟩
  obtain ⟨n, hn⟩ := hpos
  have hnone : (if ((first :: rest).take (width first)).length ≠ width first then none
      else strict? ((first :: rest).take (width first))) = none := by
    split
    · rfl
    · next hlength =>
      cases hread : strict? ((first :: rest).take (width first)) with
      | none => rfl
      | some cs =>
        rw [hn, List.take_succ_cons] at hread hlength
        rw [← hn] at hlength
        obtain ⟨c, hc⟩ := strict?_candidate (not_not.1 hlength) hread
        exact absurd (hc ▸ (List.prefix_cons_inj first).2 (List.take_prefix n rest)) (h c)
  rw [readCharacter, slice_here, hnone]

/-! ### The loop -/

/-- From any index on, the loop appends what the rest is read as. -/
theorem scan_spec : ∀ (n : ℕ) (rest before : List UInt8), rest.length ≤ n → ∃ pieces, Reads rest pieces ∧
    ∀ (more : ℕ) (characters : List (List Char)) (offsets : List ℕ),
      scan (before ++ rest) (n + 1 + more) before.length characters offsets =
        some (characters.flatten ++ pieces.map Prod.fst, offsets ++ bounds before.length (pieces.map Prod.snd))
  | n, [], before, _ => by
      refine ⟨[], .nil, fun more characters offsets => ?_⟩
      have hend : (before ++ [])[before.length]? = none := by
        rw [List.append_nil]
        exact List.getElem?_eq_none (le_refl _)
      rw [show n + 1 + more = (n + more) + 1 by omega, scan, hend]
      simp only [List.map_nil, List.append_nil, bounds]
  | 0, first :: rest, before, h => by
      rw [List.length_cons] at h
      omega
  | n + 1, first :: rest, before, h => by
      have hhere : (before ++ first :: rest)[before.length]? = some first := by
        rw [List.getElem?_append_right (le_refl _), Nat.sub_self, List.getElem?_cons_zero]
      rw [List.length_cons] at h
      by_cases hread : ∃ c, String.utf8EncodeChar c <+: first :: rest
      · obtain ⟨c, later, hlater⟩ := hread
        obtain ⟨first', tail, hc, -⟩ := char_sequence c
        have hlength := congrArg List.length hlater
        have hfirst : first = first' := by
          rw [hc, List.cons_append, List.cons.injEq] at hlater
          exact hlater.1.symm
        subst hfirst
        rw [List.length_append, hc, List.length_cons, List.length_cons] at hlength
        obtain ⟨pieces, hpieces, hscan⟩ := scan_spec n later (before ++ String.utf8EncodeChar c) (by omega)
        refine ⟨(c, String.utf8EncodeChar c) :: pieces, hlater ▸ .char c hpieces, fun more characters offsets => ?_⟩
        rw [show n + 1 + 1 + more = (n + 1 + more) + 1 by omega, scan, hhere]
        dsimp only
        rw [← hlater, readCharacter_char before later hc]
        have hrest := hscan more (characters ++ [[c]]) (offsets ++ [before.length])
        rw [List.append_assoc, List.length_append] at hrest
        rw [hrest, List.flatten_append, List.flatten_singleton, List.append_assoc, List.append_assoc]
        rfl
      · have hbad : ∀ c, ¬ String.utf8EncodeChar c <+: first :: rest := fun c hc => hread ⟨c, hc⟩
        obtain ⟨pieces, hpieces, hscan⟩ := scan_spec n rest (before ++ [first]) (by omega)
        refine ⟨(replacement, [first]) :: pieces, .bad hbad hpieces, fun more characters offsets => ?_⟩
        rw [show n + 1 + 1 + more = (n + 1 + more) + 1 by omega, scan, hhere]
        dsimp only
        rw [readCharacter_bad before hbad]
        have hrest := hscan more (characters ++ [[replacement]]) (offsets ++ [before.length])
        rw [List.append_assoc, List.length_append] at hrest
        rw [show before ++ first :: rest = before ++ ([first] ++ rest) from rfl]
        rw [show [first].length = 1 from rfl] at hrest
        rw [hrest, List.flatten_append, List.flatten_singleton, List.append_assoc, List.append_assoc]
        rfl

theorem partition_of_reads {pieces : List (Char × List UInt8)} (h : Reads raw pieces) :
    Partition raw (pieces.map Prod.fst) (bounds 0 (pieces.map Prod.snd)) := by
  have hslices : slices raw (bounds 0 (pieces.map Prod.snd)) = pieces.map Prod.snd := by
    have hbounds := slices_bounds (pieces.map Prod.snd) []
    rwa [List.nil_append, h.flatten] at hbounds
  refine ⟨?_, head?_bounds 0 _, ?_, increasing_bounds 0 h.ne_nil, ?_, ?_⟩
  · rw [length_bounds, List.length_map, List.length_map]
  · rw [getLast?_bounds, h.flatten, Nat.zero_add]
  · rw [hslices, h.flatten]
  · rw [hslices]
    exact h.shows

/-- The direct reading, which the search in a file uses, takes the same pieces. -/
theorem decodeFrom_reads {pieces : List (Char × List UInt8)} (h : Reads raw pieces) : ∀ index : ℕ,
    (decodeFrom false index 0 raw).map Prod.fst = pieces.map Prod.fst ∧
      (decodeFrom false index 0 raw).map Prod.snd ++ [index + raw.length] =
        bounds index (pieces.map Prod.snd) := by
  induction h with
  | nil => exact fun index => ⟨rfl, rfl⟩
  | @char c rest pieces later ih =>
    intro index
    obtain ⟨hchars, hbounds⟩ := ih (index + (String.utf8EncodeChar c).length)
    rw [decodeFrom_char, List.map_cons, List.map_cons, List.map_cons, List.map_cons, hchars, List.length_append,
      ← Nat.add_assoc, List.cons_append, hbounds]
    exact ⟨rfl, rfl⟩
  | @bad byte rest pieces none later ih =>
    intro index
    obtain ⟨hchars, hbounds⟩ := ih (index + 1)
    rw [decodeFrom, step_bad none, List.map_cons, List.map_cons, List.map_cons, List.map_cons, hchars, List.length_cons,
      Nat.add_comm rest.length, ← Nat.add_assoc, List.cons_append, hbounds]
    exact ⟨rfl, rfl⟩

theorem decode_eq {pieces : List (Char × List UInt8)} (h : Reads raw pieces) :
    Match.decodeUtf8WithOffsets raw = (pieces.map Prod.fst, bounds 0 (pieces.map Prod.snd)) := by
  obtain ⟨hchars, hbounds⟩ := decodeFrom_reads h 0
  rw [Nat.zero_add] at hbounds
  exact Prod.ext hchars hbounds

/-- **The scanner.** For every sequence of bytes the loop ends, with what the search in a file uses: the
    offsets are strictly increasing from 0 to the length, one for each character and one for the end; the
    slices between neighbouring ones are the bytes, each the UTF-8 sequence of its character or a single
    byte shown as U+FFFD; and valid UTF-8 is read as exactly its characters. -/
theorem decodeUtf8WithOffsets_partition (raw : List UInt8) : ∃ text offsets,
    (∃ steps, ∀ more, decodeUtf8WithOffsets raw (steps + more) = some (text, offsets)) ∧
      Match.decodeUtf8WithOffsets raw = (text, offsets) ∧ Partition raw text offsets ∧
        ∀ cs : List Char, raw = cs.flatMap String.utf8EncodeChar → text = cs := by
  obtain ⟨pieces, hpieces, hscan⟩ := scan_spec raw.length raw [] (le_refl _)
  refine ⟨pieces.map Prod.fst, bounds 0 (pieces.map Prod.snd), ⟨raw.length + 1, fun more => ?_⟩, decode_eq hpieces,
    partition_of_reads hpieces, hpieces.valid⟩
  exact hscan more [] []

end HuntWarden.Helper.DecodeOffsets
