import HuntWarden.Helper.Match
import Mathlib.Data.List.Infix

/-! Asking for context. Whether an object has a hit is decided by a search without context, and by the list
    of offsets with it; the offsets come from a scan that cuts the text off behind each match. The two
    ways agree for a literal. For RE2 they agree but on an empty text, and the offsets are those of
    matches in the whole text, each once, where the pattern does not see a cut behind its matches. -/

namespace HuntWarden.Helper.Match

open Outcome

/-! ### Occurrences -/

/-- A search of RE2: where the pattern occurs, and that a leftmost occurrence is found. -/
structure Leftmost (occurs : List Char → ℕ → ℕ → Prop) (search : List Char → Option (ℕ × ℕ)) : Prop where
  inside : ∀ text start stop, occurs text start stop → start ≤ stop ∧ stop ≤ text.length
  found : ∀ text start stop, search text = some (start, stop) → occurs text start stop
  leftmost : ∀ text start stop start' stop', search text = some (start, stop) →
    occurs text start' stop' → start ≤ start'
  absent : ∀ text, search text = none → ∀ start stop, ¬ occurs text start stop

theorem Leftmost.absent_iff {occurs : List Char → ℕ → ℕ → Prop} {search : List Char → Option (ℕ × ℕ)}
    (h : Leftmost occurs search) {text : List Char} :
    search text = none ↔ ∀ start stop, ¬ occurs text start stop := by
  refine ⟨h.absent text, fun hnone => ?_⟩
  cases hsearch : search text with
  | none => rfl
  | some found => exact absurd (h.found text found.1 found.2 hsearch) (hnone found.1 found.2)

/-- The literal is at these places. -/
def literalOccurs (pattern text : List Char) (start stop : ℕ) : Prop :=
  pattern <+: text.drop start ∧ stop = start + pattern.length

/-- Strictly increasing offsets, each the start of a match in the whole text. -/
structure Sound (occurs : List Char → ℕ → ℕ → Prop) (text : List Char) (offsets : List ℕ) : Prop where
  increasing : offsets.Pairwise (· < ·)
  starts : ∀ offset ∈ offsets, ∃ stop, occurs text offset stop

/-- The scan does not see where the text was cut off: what it finds behind the cut is a match of the whole
    text, and an empty match behind the cut is not found a second time. -/
def Unaffected (occurs : List Char → ℕ → ℕ → Prop) (search : List Char → Option (ℕ × ℕ)) (text : List Char) :
    ℕ → ℕ → Prop
  | 0, _ => True
  | wanted + 1, position =>
    position < text.length → ∀ start stop, search (text.drop position) = some (start, stop) →
      (∃ stop', occurs text (position + start) stop') ∧
      (wanted ≠ 0 → stop = start → 0 < start → position + start < text.length →
        ∀ again, search (text.drop (position + start)) ≠ some (0, again)) ∧
      Unaffected occurs search text wanted (position + max 1 stop)

variable {occurs : List Char → ℕ → ℕ → Prop} {search : List Char → Option (ℕ × ℕ)} {text pattern : List Char}

theorem find_eq_some {position index : ℕ} (h : Py.find text pattern position = some index) :
    position ≤ index ∧ pattern <+: text.drop index := by
  have hfound := List.find?_some h
  rw [Bool.and_eq_true, decide_eq_true_eq, List.isPrefixOf_iff_prefix] at hfound
  exact hfound

theorem find_isSome_iff : (Py.find text pattern 0).isSome = true ↔ pattern <:+: text := by
  rw [Py.find, List.find?_isSome]
  constructor
  · rintro ⟨index, -, hfound⟩
    rw [Bool.and_eq_true, List.isPrefixOf_iff_prefix] at hfound
    exact hfound.2.isInfix.trans (List.drop_suffix index text).isInfix
  · rintro ⟨before, after, rfl⟩
    refine ⟨before.length, List.mem_range.2 ?_, ?_⟩
    · simp only [List.length_append]
      omega
    · rw [Bool.and_eq_true, List.isPrefixOf_iff_prefix, List.append_assoc, List.drop_left' rfl]
      exact ⟨decide_eq_true (Nat.zero_le _), List.prefix_append pattern after⟩

/-! ### The offsets -/

theorem pairwise_cons_iff {offset : ℕ} {offsets : List ℕ} : (offset :: offsets).Pairwise (· < ·) ↔
    (∀ next, offsets.head? = some next → offset < next) ∧ offsets.Pairwise (· < ·) := by
  rw [List.pairwise_cons]
  refine and_congr_left fun hoffsets => ⟨fun h next hnext => h next (List.mem_of_head? hnext), fun h later hlater => ?_⟩
  cases offsets with
  | nil => cases hlater
  | cons first offsets =>
    have hfirst := h first rfl
    rcases List.mem_cons.1 hlater with rfl | hlater
    · exact hfirst
    · exact Nat.lt_trans hfirst ((List.pairwise_cons.1 hoffsets).1 later hlater)

theorem sound_nil : Sound occurs text [] := ⟨List.Pairwise.nil, fun _ h => absurd h List.not_mem_nil⟩

theorem sound_cons {offset : ℕ} {offsets : List ℕ} : Sound occurs text (offset :: offsets) ↔
    (∃ stop, occurs text offset stop) ∧ (∀ next, offsets.head? = some next → offset < next) ∧
      Sound occurs text offsets := by
  constructor
  · rintro ⟨hincreasing, hstarts⟩
    obtain ⟨hnext, hincreasing⟩ := pairwise_cons_iff.1 hincreasing
    exact ⟨hstarts offset List.mem_cons_self, hnext, hincreasing,
      fun later hlater => hstarts later (List.mem_cons_of_mem _ hlater)⟩
  · rintro ⟨hstart, hnext, hincreasing, hstarts⟩
    refine ⟨pairwise_cons_iff.2 ⟨hnext, hincreasing⟩, fun later hlater => ?_⟩
    rcases List.mem_cons.1 hlater with rfl | hlater
    · exact hstart
    · exact hstarts later hlater

theorem literalOffsets_head : ∀ {wanted position offset : ℕ},
    (literalOffsets text pattern wanted position).head? = some offset → position ≤ offset
  | 0, _, _, h => by cases h
  | wanted + 1, position, offset, h => by
      rw [literalOffsets] at h
      cases hfind : Py.find text pattern position with
      | none => rw [hfind] at h; cases h
      | some index =>
        rw [hfind] at h
        cases h
        exact (find_eq_some hfind).1

/-- The offsets of a literal are sound. -/
theorem sound_literal : ∀ wanted position : ℕ,
    Sound (literalOccurs pattern) text (literalOffsets text pattern wanted position)
  | 0, _ => sound_nil
  | wanted + 1, position => by
      rw [literalOffsets]
      cases hfind : Py.find text pattern position with
      | none => exact sound_nil
      | some index =>
        refine sound_cons.2 ⟨⟨_, (find_eq_some hfind).2, rfl⟩, fun next hnext => ?_, sound_literal wanted _⟩
        have hle := literalOffsets_head hnext
        omega

/-- The first offset of the rest is where the search in the rest finds something. -/
theorem re2Offsets_head {wanted position offset : ℕ} : (re2Offsets search text wanted position).head? = some offset ↔
    wanted ≠ 0 ∧ position < text.length ∧ ∃ start stop, search (text.drop position) = some (start, stop) ∧
      offset = position + start := by
  cases wanted with
  | zero => simp [re2Offsets]
  | succ wanted =>
    rw [re2Offsets]
    by_cases hopen : position < text.length
    · rw [if_pos hopen]
      cases hsearch : search (text.drop position) with
      | none => simp
      | some found =>
        obtain ⟨start, stop⟩ := found
        simp [hopen, eq_comm]
    · simp [hopen]

/-- **The offsets of RE2** are sound exactly where the scan is not affected by the cuts. -/
theorem sound_re2_iff (hleft : Leftmost occurs search) : ∀ wanted position : ℕ,
    Sound occurs text (re2Offsets search text wanted position) ↔ Unaffected occurs search text wanted position
  | 0, _ => by simp [re2Offsets, Unaffected, sound_nil]
  | wanted + 1, position => by
      rw [re2Offsets, Unaffected]
      by_cases hopen : position < text.length
      · rw [if_pos hopen]
        cases hsearch : search (text.drop position) with
        | none => simp [sound_nil]
        | some found =>
          obtain ⟨start, stop⟩ := found
          have hinside := hleft.inside _ _ _ (hleft.found _ _ _ hsearch)
          dsimp only
          rw [sound_cons, sound_re2_iff hleft wanted (position + max 1 stop)]
          -- the next offset is behind this one unless an empty match is found again
          have hnext : (∀ next, (re2Offsets search text wanted (position + max 1 stop)).head? = some next →
              position + start < next) ↔
              (wanted ≠ 0 → stop = start → 0 < start → position + start < text.length →
                ∀ again, search (text.drop (position + start)) ≠ some (0, again)) := by
            constructor
            · rintro h hwanted rfl hpos hlt again hagain
              have hplace : position + max 1 stop = position + stop := by omega
              rw [hplace] at h
              exact absurd (h _ (re2Offsets_head.2 ⟨hwanted, hlt, 0, again, hagain, rfl⟩)) (by omega)
            · rintro h next hhead
              obtain ⟨hwanted, hlt, start', stop', hsearch', rfl⟩ := re2Offsets_head.1 hhead
              by_contra hle
              have hempty : stop = start := by omega
              have hzero : start' = 0 := by omega
              have hplace : position + max 1 stop = position + start := by omega
              rw [hplace] at hlt hsearch'
              rw [hzero] at hsearch'
              exact h hwanted hempty (by omega) hlt stop' hsearch'
          rw [hnext]
          constructor
          · rintro h - start' stop' hsame
            cases hsame
            exact h
          · intro h
            exact h hopen start stop rfl
      · simp [hopen, sound_nil]

/-- The word boundaries of a text, one at a time. -/
def boundary (text : List Char) : Option (ℕ × ℕ) :=
  ((List.range (text.length + 1)).find? fun i =>
    decide (0 < i) && (text.getD (i - 1) ' ').isAlphanum != (text.getD i ' ').isAlphanum ||
      decide (i = 0) && (text.getD 0 ' ').isAlphanum).map fun i => (i, i)

/-- One of them is found twice, and one not at all. -/
example : re2Offsets boundary ['a', ' ', 'b'] matchContextHits 0 = [0, 2, 2] := by decide

/-- Where a scan for matches may cut the text off: behind a match, and one character behind an empty one. -/
def Cut (occurs : List Char → ℕ → ℕ → Prop) (text : List Char) (position : ℕ) : Prop :=
  position = 0 ∨ ∃ start stop, occurs text start stop ∧ (position = stop ∨ start = stop ∧ position = stop + 1)

/-- The pattern does not see the cuts: what it matches behind one it matches there in the whole text, and an empty
    match behind a cut, inside the text, is not the first one. -/
structure Seamless (occurs : List Char → ℕ → ℕ → Prop) (text : List Char) : Prop where
  behind : ∀ position < text.length, Cut occurs text position → ∀ start stop, occurs (text.drop position) start stop →
    occurs text (position + start) (position + stop)
  inside : ∀ position, Cut occurs text position → ∀ start, 0 < start → position + start < text.length →
    occurs (text.drop position) start start → ∃ start' stop', start' < start ∧ occurs (text.drop position) start' stop'

theorem unaffected_of_seamless (hleft : Leftmost occurs search) (h : Seamless occurs text) : ∀ wanted position : ℕ,
    Cut occurs text position → Unaffected occurs search text wanted position
  | 0, _, _ => trivial
  | wanted + 1, position, hcut => by
      intro hopen start stop hsearch
      have hfound := hleft.found _ _ _ hsearch
      have hwhole := h.behind position hopen hcut start stop hfound
      refine ⟨⟨_, hwhole⟩, fun _ hempty hpos hlt => ?_, unaffected_of_seamless hleft h wanted _ ?_⟩
      · rw [hempty] at hfound
        obtain ⟨start', stop', hbefore, hoccurs⟩ := h.inside position hcut start hpos hlt hfound
        have hle := hleft.leftmost _ _ _ _ _ hsearch hoccurs
        omega
      · have hle := (hleft.inside _ _ _ hfound).1
        refine Or.inr ⟨_, _, hwhole, ?_⟩
        omega

/-- A pattern that sees nothing but the characters that it matches. -/
def Local (occurs : List Char → ℕ → ℕ → Prop) : Prop := ∃ language : List Char → Prop, ∀ text start stop,
  occurs text start stop ↔ start ≤ stop ∧ stop ≤ text.length ∧ language ((text.drop start).take (stop - start))

theorem seamless_of_local (h : Local occurs) : Seamless occurs text := by
  obtain ⟨language, hlanguage⟩ := h
  refine ⟨fun position hopen _ start stop hoccurs => ?_, fun position _ start hpos _ hoccurs => ⟨0, 0, hpos, ?_⟩⟩
  · obtain ⟨hle, hlength, hword⟩ := (hlanguage _ _ _).1 hoccurs
    rw [List.length_drop] at hlength
    rw [List.drop_drop] at hword
    refine (hlanguage _ _ _).2 ⟨by omega, by omega, ?_⟩
    rwa [Nat.add_sub_add_left]
  · obtain ⟨-, -, hword⟩ := (hlanguage _ _ _).1 hoccurs
    rw [Nat.sub_self, List.take_zero] at hword
    exact (hlanguage _ _ _).2 ⟨le_refl _, Nat.zero_le _, by rwa [Nat.sub_self, List.take_zero]⟩

/-! ### One object -/

theorem bytes_isEmpty {raw : List UInt8} {offsets : List ℕ}
    (h : ∀ offset ∈ offsets, offset ≤ (decodeUtf8WithOffsets raw).1.length) :
    (characterOffsetsToBytes (decodeUtf8WithOffsets raw).2 offsets).isEmpty = offsets.isEmpty := by
  cases offsets with
  | nil => rfl
  | cons offset offsets =>
    have hlength : (decodeUtf8WithOffsets raw).2.length = (decodeUtf8WithOffsets raw).1.length + 1 := by
      simp [decodeUtf8WithOffsets]
    have hlt : offset < (decodeUtf8WithOffsets raw).2.length := by
      have hle := h offset List.mem_cons_self
      omega
    rw [characterOffsetsToBytes, List.filterMap_cons_some (List.getElem?_eq_getElem hlt)]
    rfl

theorem literalOffsets_le {wanted position : ℕ} :
    ∀ offset ∈ literalOffsets text pattern wanted position, offset ≤ text.length := by
  induction wanted generalizing position with
  | zero => exact fun offset h => absurd h List.not_mem_nil
  | succ wanted ih =>
    rw [literalOffsets]
    cases hfind : Py.find text pattern position with
    | none => exact fun offset h => absurd h List.not_mem_nil
    | some index =>
      refine List.forall_mem_cons.2 ⟨?_, ih⟩
      have hrange := List.mem_range.1 (List.mem_of_find?_eq_some hfind)
      omega

theorem re2Offsets_le (hleft : Leftmost occurs search) {wanted position : ℕ} :
    ∀ offset ∈ re2Offsets search text wanted position, offset ≤ text.length := by
  induction wanted generalizing position with
  | zero => exact fun offset h => absurd h List.not_mem_nil
  | succ wanted ih =>
    rw [re2Offsets]
    by_cases hopen : position < text.length
    · rw [if_pos hopen]
      cases hsearch : search (text.drop position) with
      | none => exact fun offset h => absurd h List.not_mem_nil
      | some found =>
        obtain ⟨start, stop⟩ := found
        have hinside := hleft.inside _ _ _ (hleft.found _ _ _ hsearch)
        rw [List.length_drop] at hinside
        exact List.forall_mem_cons.2 ⟨by omega, ih⟩
    · rw [if_neg hopen]
      exact fun offset h => absurd h List.not_mem_nil

/-- A literal is found with context where it is found without. -/
theorem matched_literal (pattern : String) (raw : List UInt8) :
    (searchLiteral pattern true raw).matched = (searchLiteral pattern false raw).matched := by
  have hcontext : (searchLiteral pattern true raw).matched =
      !(literalOffsets (decodeUtf8WithOffsets raw).1 pattern.toList matchContextHits 0).isEmpty :=
    congrArg (!·) (bytes_isEmpty literalOffsets_le)
  have hplain : (searchLiteral pattern false raw).matched =
      decide (pattern.toList <:+: (decodeUtf8WithOffsets raw).1) := rfl
  rw [hcontext, hplain, matchContextHits, literalOffsets, Bool.eq_iff_iff, decide_eq_true_eq, ← find_isSome_iff]
  cases Py.find (decodeUtf8WithOffsets raw).1 pattern.toList 0 <;> simp

/-- RE2 finds the same with context but in an empty text. -/
theorem matched_re2_iff (hleft : Leftmost occurs search) (raw : List UInt8) :
    (searchRe2 search true raw).matched = (searchRe2 search false raw).matched ↔
      ((decodeUtf8WithOffsets raw).1 = [] → search [] = none) := by
  have hcontext : (searchRe2 search true raw).matched =
      !(re2Offsets search (decodeUtf8WithOffsets raw).1 matchContextHits 0).isEmpty :=
    congrArg (!·) (bytes_isEmpty (re2Offsets_le hleft))
  have hplain : (searchRe2 search false raw).matched = (search (decodeUtf8WithOffsets raw).1).isSome := rfl
  rw [hcontext, hplain, matchContextHits, re2Offsets, List.drop_zero]
  generalize (decodeUtf8WithOffsets raw).1 = text
  cases text with
  | nil => cases search [] <;> simp
  | cons first rest =>
    rw [if_pos (by simp)]
    cases search (first :: rest) <;> simp

/-! ### The loop -/

/-- The request, without context. -/
def Request.plain (request : Request) : Request := { request with includeContext := false }

/-- The loop reports a hit on the object, once it has reached it. -/
def reports (env : Env) (request : Request) (binding : Json) : Bool :=
  match matchObject env request binding with
  | .ok visit => visit.hit.isSome
  | .error _ => false

def flags (visits : List Visit) : List Bool := visits.map (·.hit.isSome)

/-- The text of an object that the request without context comes to before it has enough hits. -/
def Reached (env : Env) (request : Request) (text : List Char) : Prop :=
  ∃ before binding after file, request.refs = before ++ binding :: after ∧
    before.countP (reports env request.plain) < request.maximum ∧ isFileBinding binding = true ∧
    v2_bound_file env.fs binding = .ok file ∧ v2_content_class file.canonical ≠ .deniedText ∧
    text = (decodeUtf8WithOffsets (file.read 0 matchWindowBytes)).1

section

variable {env : Env} {request : Request} {binding : Json} {visit visit' : Visit}

/-- The object's text, when it is searched at all. -/
def TextOf (env : Env) (binding : Json) (text : List Char) : Prop :=
  ∃ file, isFileBinding binding = true ∧ v2_bound_file env.fs binding = .ok file ∧
    v2_content_class file.canonical ≠ .deniedText ∧ text = (decodeUtf8WithOffsets (file.read 0 matchWindowBytes)).1

theorem reports_ok (h : matchObject env request binding = .ok visit) :
    reports env request binding = visit.hit.isSome := by
  rw [reports, h]

/-- Two requests that differ in context decide alike on an object where the engine does. -/
theorem same_flag_iff {agrees : List Char → Prop}
    (hengine : ∀ file finding finding', Match.search env request file (file.read 0 matchWindowBytes) = .ok finding →
      Match.search env request.plain file (file.read 0 matchWindowBytes) = .ok finding' →
        (finding.matched = finding'.matched ↔ agrees (decodeUtf8WithOffsets (file.read 0 matchWindowBytes)).1))
    (h : matchObject env request binding = .ok visit) (h' : matchObject env request.plain binding = .ok visit') :
    visit.hit.isSome = visit'.hit.isSome ↔ ∀ text, TextOf env binding text → agrees text := by
  rcases matchObject_ok h with ⟨rfl, hskipped⟩ | ⟨file, finding, hfile, hbound, hclass, hfinding, -, -, hhit⟩
  · rcases matchObject_ok h' with ⟨rfl, -⟩ | ⟨file, finding, hfile, hbound, hclass, -⟩
    · refine iff_of_true rfl ?_
      rintro text ⟨file, hfile, hbound, hclass, -⟩
      obtain ⟨other, hother, hdenied⟩ := hskipped hfile
      rw [hbound] at hother
      cases hother
      exact absurd hdenied hclass
    · obtain ⟨other, hother, hdenied⟩ := hskipped hfile
      rw [hbound] at hother
      cases hother
      exact absurd hdenied hclass
  · rcases matchObject_ok h' with ⟨rfl, hskipped⟩ | ⟨file', finding', -, hbound', -, hfinding', -, -, hhit'⟩
    · obtain ⟨other, hother, hdenied⟩ := hskipped hfile
      rw [hbound] at hother
      cases hother
      exact absurd hdenied hclass
    · rw [hbound] at hbound'
      cases hbound'
      rw [hhit, hhit', hengine file finding finding' hfinding hfinding']
      constructor
      · rintro hagrees text ⟨other, -, hother, -, rfl⟩
        rw [hbound] at hother
        cases hother
        exact hagrees
      · exact fun hall => hall _ ⟨file, hfile, hbound, hclass, rfl⟩

theorem hits_of_flags {visits visits' : List Visit} (h : flags visits = flags visits') :
    (hitsOf visits).length = (hitsOf visits').length := by
  have hcount : ∀ visits : List Visit, (hitsOf visits).length = (flags visits).countP id := fun visits => by
    rw [hitsOf_length, flags, List.countP_map]
    rfl
  rw [hcount, hcount, h]

/-- The loops decide alike on what they come to, exactly where the engine agrees on the texts they come to. -/
theorem flags_iff (agrees : List Char → Prop)
    (hengine : ∀ file finding finding', Match.search env request file (file.read 0 matchWindowBytes) = .ok finding →
      Match.search env request.plain file (file.read 0 matchWindowBytes) = .ok finding' →
        (finding.matched = finding'.matched ↔ agrees (decodeUtf8WithOffsets (file.read 0 matchWindowBytes)).1)) :
    ∀ {refs : List Json} {visits visits' out out' : List Visit}, flags visits = flags visits' →
      matchLoop env request refs visits = .ok out → matchLoop env request.plain refs visits' = .ok out' →
      (flags out = flags out' ↔ ∀ before binding after, refs = before ++ binding :: after →
        (hitsOf visits').length + before.countP (reports env request.plain) < request.maximum →
          ∀ text, TextOf env binding text → agrees text)
  | [], visits, visits', out, out', hflags, h, h' => by
      cases h
      cases h'
      refine iff_of_true hflags fun before binding after hrefs => ?_
      exact absurd hrefs.symm (List.append_ne_nil_of_right_ne_nil before (List.cons_ne_nil binding after))
  | binding :: refs, visits, visits', out, out', hflags, h, h' => by
      have hhits := hits_of_flags hflags
      rw [matchLoop] at h h'
      by_cases henough : request.maximum ≤ (hitsOf visits').length
      · rw [hhits, if_pos henough] at h
        rw [if_pos (show request.plain.maximum ≤ _ from henough)] at h'
        cases h
        cases h'
        exact iff_of_true hflags fun before binding after _ hfew => by omega
      · rw [hhits, if_neg henough] at h
        rw [if_neg (show ¬ request.plain.maximum ≤ _ from henough)] at h'
        obtain ⟨visit, hvisit, h⟩ := bind_ok.1 h
        obtain ⟨visit', hvisit', h'⟩ := bind_ok.1 h'
        have hobject := same_flag_iff hengine hvisit hvisit'
        by_cases hsame : visit.hit.isSome = visit'.hit.isSome
        · have hboth : flags (visits ++ [visit]) = flags (visits' ++ [visit']) := by
            simp only [flags, List.map_append, List.map_cons, List.map_nil, hsame]
            exact congrArg (· ++ [visit'.hit.isSome]) hflags
          have hcount : (hitsOf (visits' ++ [visit'])).length =
              (hitsOf visits').length + if reports env request.plain binding then 1 else 0 := by
            rw [hitsOf_length, hitsOf_length, List.countP_append, List.countP_singleton, reports_ok hvisit']
          rw [flags_iff agrees hengine hboth h h', hcount]
          constructor
          · rintro hlater (_ | ⟨first, before⟩) reached after hrefs hfew
            · cases hrefs
              exact hobject.1 hsame
            · cases hrefs
              rw [List.countP_cons] at hfew
              exact hlater before reached after rfl (by omega)
          · rintro hall before reached after rfl hfew
            refine hall (binding :: before) reached after rfl ?_
            rw [List.countP_cons]
            omega
        · refine iff_of_false (fun heq => hsame ?_) fun hall => hsame (hobject.2 ?_)
          · obtain ⟨new, rfl, -⟩ := matchLoop_ok h
            obtain ⟨new', rfl, -⟩ := matchLoop_ok h'
            simp only [flags, List.map_append, List.append_assoc, List.map_cons, List.singleton_append] at heq
            have hrest := (List.append_inj heq (by simpa [flags] using congrArg List.length hflags)).2
            exact (List.cons.inj hrest).1
          · exact hall [] binding refs rfl (by simpa using henough)

end

/-! ### A request with context and without -/

theorem reached_iff {env : Env} {request : Request} {agrees : List Char → Prop} :
    (∀ before binding after, request.refs = before ++ binding :: after →
      (hitsOf []).length + before.countP (reports env request.plain) < request.maximum →
        ∀ text, TextOf env binding text → agrees text) ↔ ∀ text, Reached env request text → agrees text := by
  constructor
  · rintro h text ⟨before, binding, after, file, hrefs, hfew, hfile, hbound, hclass, htext⟩
    refine h before binding after hrefs ?_ text ⟨file, hfile, hbound, hclass, htext⟩
    rw [hitsOf, List.filterMap_nil, List.length_nil, Nat.zero_add]
    exact hfew
  · rintro h before binding after hrefs hfew text ⟨file, hfile, hbound, hclass, htext⟩
    rw [hitsOf, List.filterMap_nil, List.length_nil, Nat.zero_add] at hfew
    exact h text ⟨before, binding, after, file, hrefs, hfew, hfile, hbound, hclass, htext⟩

/-- Two requests for RE2 that differ in context only, both answered, report hits on the same objects exactly where no
    text that they come to is empty and matched. -/
theorem same_hits_iff {env : Env} {params params' : Json} {result result' : Result} {occurs : List Char → ℕ → ℕ → Prop}
    {search : List Char → Option (ℕ × ℕ)} (h : v2_match env params = .ok result)
    (h' : v2_match env params' = .ok result') (hcontext : result.request.includeContext = true)
    (hsame : result'.request = result.request.plain) (hengine : result.request.engine = .re2 search)
    (hleft : Leftmost occurs search) :
    flags result.visits = flags result'.visits ↔
      ∀ text, Reached env result.request text → text = [] → search [] = none := by
  have hloop := (v2_match_ok h).2
  have hloop' := (v2_match_ok h').2
  rw [hsame] at hloop'
  rw [flags_iff (fun text => text = [] → search [] = none) ?_ rfl hloop hloop', reached_iff]
  intro file finding finding' hfinding hfinding'
  rw [Match.search, hengine, hcontext] at hfinding
  rw [Match.search, show result.request.plain.engine = _ from hengine] at hfinding'
  cases hfinding
  cases hfinding'
  exact matched_re2_iff hleft _

/-- **Context.** Two requests that differ in context only, both answered. For a literal they report hits on the
    same objects, and the offsets are those of its occurrences, each once. For RE2 they report hits on the
    same objects exactly where the pattern does not match the empty text or no text that they come to is empty; and
    the offsets are those of matches in the whole text, each once, where the pattern does not see the cuts. -/
theorem context_hits {env : Env} {params params' : Json} {result result' : Result}
    (h : v2_match env params = .ok result) (h' : v2_match env params' = .ok result')
    (hcontext : result.request.includeContext = true) (hsame : result'.request = result.request.plain) :
    (∀ pattern, result.request.engine = .literal pattern → flags result.visits = flags result'.visits ∧
      ∀ text, Sound (literalOccurs pattern.toList) text (literalOffsets text pattern.toList matchContextHits 0)) ∧
    ∀ search occurs, result.request.engine = .re2 search → Leftmost occurs search →
      (flags result.visits = flags result'.visits ↔
        ∀ text, Reached env result.request text → text = [] → ∀ start stop, ¬ occurs [] start stop) ∧
      ∀ text, Seamless occurs text → Sound occurs text (re2Offsets search text matchContextHits 0) := by
  refine ⟨fun pattern hengine => ⟨?_, fun text => sound_literal matchContextHits 0⟩,
    fun search occurs hengine hleft => ?_⟩
  · have hloop := (v2_match_ok h).2
    have hloop' := (v2_match_ok h').2
    rw [hsame] at hloop'
    refine (flags_iff (fun _ => True) ?_ rfl hloop hloop').2 fun _ _ _ _ _ _ _ => trivial
    intro file finding finding' hfinding hfinding'
    rw [Match.search, hengine, hcontext] at hfinding
    rw [Match.search, show result.request.plain.engine = _ from hengine] at hfinding'
    cases hfinding
    cases hfinding'
    exact iff_of_true (matched_literal pattern _) trivial
  · refine ⟨?_, fun text hseamless =>
      (sound_re2_iff hleft _ _).2 (unaffected_of_seamless hleft hseamless _ _ (Or.inl rfl))⟩
    rw [same_hits_iff h h' hcontext hsame hengine hleft]
    exact forall₃_congr fun text _ _ => hleft.absent_iff

/-! ### A file, with context and without -/

def contextFile (content : String) : OpenFile := sampleFile "/srv/a.txt" 2 content

def contextEnv (content : String) (search : List Char → Option (ℕ × ℕ)) : Env :=
  { sampleEnv [contextFile content] with re2 := some fun _ => some search }

def contextParams (pattern : String) (includeContext : Bool) : Json :=
  .obj [("objects", .arr [sampleBinding (contextFile "")]),
    ("matcher", .obj [("engine", .str "re2"), ("pattern", .str pattern)]),
    ("maxHits", .num 10), ("includeContext", .bool includeContext)]

/-- `^$` -/
def nothing (text : List Char) : Option (ℕ × ℕ) := if text = [] then some (0, 0) else none

def nothingOccurs (text : List Char) (start stop : ℕ) : Prop := text = [] ∧ start = 0 ∧ stop = 0

theorem leftmost_nothing : Leftmost nothingOccurs nothing where
  inside := by rintro text start stop ⟨rfl, rfl, rfl⟩; exact ⟨le_refl _, le_refl _⟩
  found text start stop h := by
    rw [nothing] at h
    split at h
    · next hnil =>
      cases h
      exact ⟨hnil, rfl, rfl⟩
    · cases h
  leftmost text start stop start' stop' h _ := by
    rw [nothing] at h
    split at h
    · cases h
      exact Nat.zero_le _
    · cases h
  absent text h start stop := by
    rintro ⟨rfl, -⟩
    cases h

/-- An empty file has a hit without context and none with it. -/
theorem empty_file_differs : ∃ result result',
    v2_match (contextEnv "" nothing) (contextParams "^$" true) = .ok result ∧
    v2_match (contextEnv "" nothing) (contextParams "^$" false) = .ok result' ∧
    result'.request = result.request.plain ∧ result.request.includeContext = true ∧
    result.request.engine = .re2 nothing ∧ Leftmost nothingOccurs nothing ∧
    flags result.visits = [false] ∧ flags result'.visits = [true] :=
  ⟨_, _, rfl, rfl, rfl, rfl, rfl, leftmost_nothing, rfl, rfl⟩

/-- The word is at these places. -/
def wordOccurs (word text : List Char) (start stop : ℕ) : Prop :=
  start ≤ stop ∧ stop ≤ text.length ∧ (text.drop start).take (stop - start) = word

def isAt (word text : List Char) (start : ℕ) : Bool :=
  start + word.length ≤ text.length && (text.drop start).take word.length = word

/-- The search for a word. -/
def firstWord (word text : List Char) : Option (ℕ × ℕ) :=
  ((List.range (text.length + 1)).find? (isAt word text)).map fun start => (start, start + word.length)

theorem isAt_of_wordOccurs {word text : List Char} {start stop : ℕ} (h : wordOccurs word text start stop) :
    isAt word text start = true ∧ start ≤ text.length := by
  obtain ⟨hle, hlength, rfl⟩ := h
  have hsize : ((text.drop start).take (stop - start)).length = stop - start := by
    rw [List.length_take, List.length_drop]
    omega
  rw [isAt, hsize, Bool.and_eq_true, decide_eq_true_eq, decide_eq_true_eq]
  exact ⟨⟨by omega, rfl⟩, by omega⟩

theorem leftmost_firstWord (word : List Char) : Leftmost (wordOccurs word) (firstWord word) where
  inside _ _ _ h := ⟨h.1, h.2.1⟩
  found text start stop h := by
    obtain ⟨place, hplace, heq⟩ := Option.map_eq_some_iff.1 h
    cases heq
    have hat := List.find?_some hplace
    rw [isAt, Bool.and_eq_true, decide_eq_true_eq, decide_eq_true_eq] at hat
    exact ⟨Nat.le_add_right _ _, hat.1, by rw [Nat.add_sub_cancel_left]; exact hat.2⟩
  leftmost text start stop start' stop' h hoccurs := by
    obtain ⟨place, hplace, heq⟩ := Option.map_eq_some_iff.1 h
    cases heq
    by_contra hlt
    have hnot := (List.find?_range_eq_some.1 hplace).2.2 start' (by omega)
    rw [(isAt_of_wordOccurs hoccurs).1] at hnot
    cases hnot
  absent text h start stop hoccurs := by
    obtain ⟨hat, hle⟩ := isAt_of_wordOccurs hoccurs
    have hnot := List.find?_range_eq_none.1 (Option.map_eq_none_iff.1 h) start (by omega)
    rw [hat] at hnot
    cases hnot

theorem local_wordOccurs (word : List Char) : Local (wordOccurs word) := ⟨(· = word), fun _ _ _ => Iff.rfl⟩

/-- A file in which the word stands three times has a hit both ways, with three offsets. -/
theorem three_hits_same : ∃ result result',
    v2_match (contextEnv "abaca" (firstWord ['a'])) (contextParams "a" true) = .ok result ∧
    v2_match (contextEnv "abaca" (firstWord ['a'])) (contextParams "a" false) = .ok result' ∧
    flags result.visits = flags result'.visits ∧ flags result'.visits = [true] ∧
    re2Offsets (firstWord ['a']) "abaca".toList matchContextHits 0 = [0, 2, 4] ∧
    Sound (wordOccurs ['a']) "abaca".toList (re2Offsets (firstWord ['a']) "abaca".toList matchContextHits 0) := by
  have hrun : ∃ result result', v2_match (contextEnv "abaca" (firstWord ['a'])) (contextParams "a" true) = .ok result ∧
      v2_match (contextEnv "abaca" (firstWord ['a'])) (contextParams "a" false) = .ok result' ∧
      result.request.includeContext = true ∧ result'.request = result.request.plain ∧
      result.request.engine = .re2 (firstWord ['a']) ∧ flags result'.visits = [true] :=
    ⟨_, _, rfl, rfl, rfl, rfl, rfl, rfl⟩
  obtain ⟨result, result', hresult, hresult', hcontext, hsame, hengine, hflags⟩ := hrun
  obtain ⟨hverdict, hoffsets⟩ := (context_hits hresult hresult' hcontext hsame).2 (firstWord ['a']) (wordOccurs ['a'])
    hengine (leftmost_firstWord ['a'])
  refine ⟨result, result', hresult, hresult', hverdict.2 fun text _ _ start stop hoccurs => ?_, hflags, by decide,
    hoffsets _ (seamless_of_local (local_wordOccurs ['a']))⟩
  have hat := (isAt_of_wordOccurs hoccurs).1
  simp [isAt] at hat

end HuntWarden.Helper.Match
