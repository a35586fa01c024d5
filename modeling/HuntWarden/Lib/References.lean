import Mathlib.Data.List.Basic
import Mathlib.Data.Nat.Notation

/-! References in a text, as a regular expression `\bHEAD[class]{n}` with the flags `gi` finds them, and texts
    made of fixed and of given pieces. A reference never reaches over a character that is neither part of a
    word nor a hyphen, so that where the fixed pieces end in such characters the references in the whole are
    those in the given pieces. -/

namespace HuntWarden.References

/-- `\w` -/
def word (c : Char) : Bool := c.isAlphanum || c = '_'

/-- What a reference can consist of. -/
def part (c : Char) : Bool := word c || c = '-'

/-- A head, given by the characters that each place admits, and so many characters of a class. -/
structure Pattern where
  head : List (List Char)
  class_ : Char → Bool
  count : ℕ
  head_ne_nil : head ≠ []
  head_part : ∀ place ∈ head, ∀ c ∈ place, part c
  class_part : ∀ c, class_ c → part c

namespace Pattern

variable (p : Pattern)

def size : ℕ := p.head.length + p.count

def headFits : List (List Char) → List Char → Bool
  | [], _ => true
  | place :: places, c :: text => place.contains c && headFits places text
  | _ :: _, [] => false

/-- Whether the characters are a reference. -/
def fits (text : List Char) : Bool :=
  text.length = p.size && headFits p.head text && (text.drop p.head.length).all p.class_

/-- The references from left to right; so many characters belong to the last one still, and the character
    before was one of a word or not. -/
def scan : ℕ → Bool → List Char → List (List Char)
  | _, _, [] => []
  | skip + 1, _, c :: rest => scan skip (word c) rest
  | 0, before, c :: rest =>
    if before != word c && p.fits ((c :: rest).take p.size) then
      (c :: rest).take p.size :: scan (p.size - 1) (word c) rest
    else scan 0 (word c) rest

/-- `text.match(/…/gi) ?? []` -/
def references (text : List Char) : List (List Char) := p.scan 0 false text

variable {p}

theorem headFits_part {places : List (List Char)} {text : List Char}
    (hpart : ∀ place ∈ places, ∀ c ∈ place, part c) (h : headFits places text) :
    ∀ c ∈ text.take places.length, part c := by
  induction places generalizing text with
  | nil => simp
  | cons place places ih =>
    cases text with
    | nil => simp
    | cons d text =>
      rw [headFits, Bool.and_eq_true, List.contains_iff_mem] at h
      intro c hc
      rw [List.length_cons, List.take_succ_cons] at hc
      rcases List.mem_cons.1 hc with rfl | hc
      · exact hpart place List.mem_cons_self c h.1
      · exact ih (fun q hq => hpart q (List.mem_cons_of_mem _ hq)) h.2 c hc

theorem fits_length {text : List Char} (h : p.fits text) : text.length = p.size := by
  rw [fits, Bool.and_eq_true, Bool.and_eq_true] at h
  exact of_decide_eq_true h.1.1

theorem fits_part {text : List Char} (h : p.fits text) : ∀ c ∈ text, part c := by
  rw [fits, Bool.and_eq_true, Bool.and_eq_true, List.all_eq_true] at h
  intro c hc
  rw [← List.take_append_drop p.head.length text] at hc
  rcases List.mem_append.1 hc with hc | hc
  · exact headFits_part p.head_part h.1.2 c hc
  · exact p.class_part c (h.2 c hc)

theorem size_pos (p : Pattern) : 0 < p.size :=
  Nat.lt_of_lt_of_le (List.length_pos_iff.2 p.head_ne_nil) (Nat.le_add_right _ _)

theorem word_of_part {c : Char} (h : part c = false) : word c = false := by
  rw [part, Bool.or_eq_false_iff] at h
  exact h.1

/-- A reference is found before a breaking character or not at all. -/
theorem fits_take_append {c : Char} (hc : part c = false) (a rest : List Char) :
    p.fits ((a ++ c :: rest).take p.size) = p.fits (a.take p.size) := by
  by_cases hsize : p.size ≤ a.length
  · rw [List.take_append_of_le_length hsize]
  · have hnot : p.fits ((a ++ c :: rest).take p.size) = false := by
      rw [Bool.eq_false_iff]
      intro h
      have hmem : c ∈ (a ++ c :: rest).take p.size := by
        rw [List.take_append]
        refine List.mem_append_right _ ?_
        rw [List.take_cons (by omega)]
        exact List.mem_cons_self
      rw [fits_part h c hmem] at hc
      cases hc
    have hnot' : p.fits (a.take p.size) = false := by
      rw [Bool.eq_false_iff]
      intro h
      have hlength := fits_length h
      rw [List.length_take] at hlength
      omega
    rw [hnot, hnot']

theorem scan_break {c : Char} (hc : part c = false) (before : Bool) (rest : List Char) :
    p.scan 0 before (c :: rest) = p.references rest := by
  have hnot : p.fits ((c :: rest).take p.size) = false := by
    rw [← List.nil_append (c :: rest), fits_take_append hc, Bool.eq_false_iff]
    intro h
    have hlength := fits_length h
    rw [List.take_nil, List.length_nil] at hlength
    exact absurd hlength (Nat.ne_of_lt p.size_pos)
  rw [scan, hnot, Bool.and_false, if_neg Bool.false_ne_true, word_of_part hc]
  rfl

theorem scan_append_break {c : Char} (hc : part c = false) {a rest : List Char} {skip : ℕ}
    (hskip : skip ≤ a.length) (before : Bool) :
    p.scan skip before (a ++ c :: rest) = p.scan skip before a ++ p.references rest := by
  induction a generalizing skip before with
  | nil =>
    obtain rfl : skip = 0 := Nat.le_zero.1 hskip
    exact scan_break hc before rest
  | cons d a ih =>
    cases skip with
    | succ skip =>
      rw [List.cons_append, scan, scan]
      exact ih (Nat.le_of_succ_le_succ hskip) _
    | zero =>
      have hfits : p.fits ((d :: (a ++ c :: rest)).take p.size) = p.fits ((d :: a).take p.size) :=
        fits_take_append hc (d :: a) rest
      rw [List.cons_append, scan, scan, hfits]
      split
      · rename_i h
        rw [Bool.and_eq_true] at h
        have hlength := fits_length h.2
        rw [List.length_take, List.length_cons] at hlength
        have htake : (d :: (a ++ c :: rest)).take p.size = (d :: a).take p.size := by
          rw [← List.cons_append]
          exact List.take_append_of_le_length (by rw [List.length_cons]; omega)
        rw [htake, ih (by omega), List.cons_append]
      · exact ih (Nat.zero_le _) _

theorem references_append_break {c : Char} (hc : part c = false) (a rest : List Char) :
    p.references (a ++ c :: rest) = p.references a ++ p.references rest :=
  scan_append_break hc (Nat.zero_le _) false

@[simp] theorem references_nil : p.references [] = [] := rfl

/-- After a breaking character the text begins anew. -/
theorem references_append_of_ends {a rest : List Char}
    (h : a = [] ∨ ∃ c ∈ a.getLast?, part c = false) :
    p.references (a ++ rest) = p.references a ++ p.references rest := by
  rcases h with rfl | ⟨c, hlast, hc⟩
  · rfl
  · obtain ⟨before, rfl⟩ := List.getLast?_eq_some_iff.1 hlast
    rw [List.append_assoc, List.singleton_append, references_append_break hc, references_append_break hc,
      references_nil, List.append_nil]

theorem references_append_of_starts {a rest : List Char} (h : ∃ c ∈ rest.head?, part c = false) :
    p.references (a ++ rest) = p.references a ++ p.references rest := by
  obtain ⟨c, hhead, hc⟩ := h
  obtain ⟨later, rfl⟩ := List.head?_eq_some_iff.1 hhead
  rw [references_append_break hc, ← List.nil_append (c :: later), references_append_break hc,
    references_nil, List.nil_append]

theorem mem_of_headFits {d : Char} {places : List (List Char)} {text : List Char} (hd : [d] ∈ places)
    (h : headFits places text) : d ∈ text := by
  induction places generalizing text with
  | nil => cases hd
  | cons place places ih =>
    cases text with
    | nil => cases h
    | cons c text =>
      rw [headFits, Bool.and_eq_true, List.contains_iff_mem] at h
      rcases List.mem_cons.1 hd with rfl | hd
      · rw [List.mem_singleton.1 h.1]
        exact List.mem_cons_self
      · exact List.mem_cons_of_mem _ (ih hd h.2)

/-- A text without a character that every reference has. -/
theorem references_eq_nil {d : Char} (hd : [d] ∈ p.head) {a : List Char} (ha : d ∉ a) :
    p.references a = [] := by
  rw [references]
  generalize false = before
  induction a generalizing before with
  | nil => rfl
  | cons c a ih =>
    have hnot : p.fits ((c :: a).take p.size) = false := by
      rw [Bool.eq_false_iff]
      intro h
      rw [fits, Bool.and_eq_true, Bool.and_eq_true] at h
      exact ha (List.mem_of_mem_take (mem_of_headFits hd h.1.2))
    rw [scan, hnot, Bool.and_false, if_neg Bool.false_ne_true]
    exact ih (fun hmem => ha (List.mem_cons_of_mem _ hmem)) _

end Pattern

/-! ### Templates -/

/-- A piece of a template: its own text, or one that is put in. -/
inductive Piece where
  | lit (text : String)
  | val (text : String)

namespace Piece

def text : Piece → String
  | .lit text => text
  | .val text => text

def val? : Piece → Option String
  | .lit _ => none
  | .val text => some text

end Piece

def chars (pieces : List Piece) : List Char := pieces.flatMap fun piece => piece.text.toList

def vals (pieces : List Piece) : List String := pieces.filterMap Piece.val?

def starts (text : String) : Bool := text.toList.head?.any fun c => !part c

def ends (text : String) : Bool := text.toList.getLast?.any fun c => !part c

variable (patterns : List Pattern)

def quiet (text : String) : Bool := patterns.all fun p => (p.references text.toList).isEmpty

/-- No text that is put in touches another character that could belong to a reference; `fresh` when nothing
    such stands before. -/
def apart : Bool → List Piece → Bool
  | _, [] => true
  | fresh, .lit text :: rest => quiet patterns text && (fresh || starts text) && apart (ends text) rest
  | fresh, .val _ :: rest => fresh && apart false rest

variable {patterns}

theorem references_prefix {p : Pattern} (hp : p ∈ patterns) {fresh : Bool} {pieces : List Piece}
    (h : apart patterns fresh pieces) {a : List Char}
    (hfresh : fresh → a = [] ∨ ∃ c ∈ a.getLast?, part c = false) :
    p.references (a ++ chars pieces) =
      p.references a ++ (vals pieces).flatMap fun text => p.references text.toList := by
  induction pieces generalizing fresh a with
  | nil => simp [chars, vals]
  | cons piece rest ih =>
    have hchars : a ++ chars (piece :: rest) = a ++ piece.text.toList ++ chars rest := by
      rw [chars, List.flatMap_cons, List.append_assoc]
      rfl
    rw [hchars]
    cases piece with
    | lit text =>
      rw [apart, Bool.and_eq_true, Bool.and_eq_true, Bool.or_eq_true] at h
      obtain ⟨⟨hquiet, hstarts⟩, hrest⟩ := h
      have hnone : p.references text.toList = [] :=
        List.isEmpty_iff.1 (List.all_eq_true.1 hquiet p hp)
      have happend : p.references (a ++ text.toList) = p.references a := by
        rcases hstarts with hfree | hstarts
        · rw [Pattern.references_append_of_ends (hfresh hfree), hnone, List.append_nil]
        · rw [Pattern.references_append_of_starts, hnone, List.append_nil]
          obtain ⟨c, hc, hpart⟩ := (Option.any_eq_true _ _).1 hstarts
          exact ⟨c, hc, by simpa using hpart⟩
      rw [ih hrest, Piece.text, happend]
      · rfl
      · intro hends
        obtain ⟨c, hc, hpart⟩ := (Option.any_eq_true _ _).1 hends
        refine .inr ⟨c, ?_, by simpa using hpart⟩
        rw [Piece.text, List.getLast?_append, hc]
        rfl
    | val text =>
      rw [apart, Bool.and_eq_true] at h
      rw [ih h.2 (fun hf => nomatch hf), Piece.text, Pattern.references_append_of_ends (hfresh h.1),
        List.append_assoc]
      rfl

/-- The references in a template are those in what is put in. -/
theorem references_chars {p : Pattern} (hp : p ∈ patterns) {pieces : List Piece}
    (h : apart patterns true pieces) :
    p.references (chars pieces) = (vals pieces).flatMap fun text => p.references text.toList :=
  references_prefix hp h (a := []) fun _ => .inl rfl

theorem infix_chars {pieces : List Piece} {piece : Piece} (h : piece ∈ pieces) :
    piece.text.toList <:+: chars pieces := by
  obtain ⟨before, after, rfl⟩ := List.append_of_mem h
  refine ⟨chars before, chars after, ?_⟩
  rw [chars, chars, chars, List.flatMap_append, List.flatMap_cons, List.append_assoc]

theorem vals_append (pieces pieces' : List Piece) : vals (pieces ++ pieces') = vals pieces ++ vals pieces' :=
  List.filterMap_append

/-- Whether what comes next begins anew. -/
def after : Bool → List Piece → Bool
  | fresh, [] => fresh
  | _, .lit text :: rest => after (ends text) rest
  | _, .val _ :: rest => after false rest

theorem after_append (fresh : Bool) (pieces pieces' : List Piece) :
    after fresh (pieces ++ pieces') = after (after fresh pieces) pieces' := by
  induction pieces generalizing fresh with
  | nil => rfl
  | cons piece pieces ih => cases piece <;> exact ih _

theorem apart_append {fresh : Bool} {pieces pieces' : List Piece} (h : apart patterns fresh pieces)
    (h' : apart patterns (after fresh pieces) pieces') : apart patterns fresh (pieces ++ pieces') := by
  induction pieces generalizing fresh with
  | nil => exact h'
  | cons piece pieces ih =>
    cases piece with
    | lit own =>
      rw [apart, Bool.and_eq_true] at h
      rw [List.cons_append, apart, h.1, ih h.2 h']
      rfl
    | val text =>
      rw [apart, Bool.and_eq_true] at h
      rw [List.cons_append, apart, h.1, ih h.2 h']
      rfl

/-- A text of the template's own that keeps the distance fits anywhere. -/
theorem apart_lit {text : String} {rest : List Piece} (h : quiet patterns text && starts text)
    (hrest : apart patterns (ends text) rest) (fresh : Bool) :
    apart patterns fresh (.lit text :: rest) := by
  rw [Bool.and_eq_true] at h
  rw [apart, h.1, h.2, hrest, Bool.or_true]
  rfl

/-- A template without what is put in. -/
def Piece.erase : Piece → Piece
  | .lit text => .lit text
  | .val _ => .val ""

theorem apart_erase (fresh : Bool) (pieces : List Piece) :
    apart patterns fresh (pieces.map Piece.erase) = apart patterns fresh pieces := by
  induction pieces generalizing fresh with
  | nil => rfl
  | cons piece pieces ih =>
    cases piece with
    | lit text => rw [List.map_cons, Piece.erase, apart, apart, ih]
    | val text => rw [List.map_cons, Piece.erase, apart, apart, ih]

/-! ### Lines -/

/-- `lines.join("\n")` -/
def joined (lines : List (List Piece)) : List Char :=
  List.intercalate ['\n'] (lines.map chars)

theorem joined_cons {line : List Piece} {lines : List (List Piece)} (h : lines ≠ []) :
    joined (line :: lines) = chars line ++ '\n' :: joined lines := by
  rw [joined, List.map_cons, List.intercalate_cons_of_ne_nil (by simpa using h), List.append_assoc]
  rfl

theorem infix_joined {lines : List (List Piece)} {line : List Piece} (h : line ∈ lines) :
    chars line <:+: joined lines := by
  induction lines with
  | nil => cases h
  | cons first rest ih =>
    by_cases hrest : rest = []
    · subst hrest
      refine ⟨[], [], ?_⟩
      rw [List.mem_singleton.1 h, joined, List.map_singleton, List.intercalate_singleton,
        List.append_nil, List.nil_append]
    · rw [joined_cons hrest]
      rcases List.mem_cons.1 h with rfl | h
      · exact (List.prefix_append _ _).isInfix
      · exact (ih h).trans ((List.suffix_cons _ _).isInfix.trans (List.suffix_append _ _).isInfix)

theorem references_joined {p : Pattern} (hp : p ∈ patterns) {lines : List (List Piece)}
    (h : ∀ line ∈ lines, apart patterns true line) :
    p.references (joined lines) =
      lines.flatMap fun line => (vals line).flatMap fun text => p.references text.toList := by
  induction lines with
  | nil => rfl
  | cons line rest ih =>
    have hline := references_chars hp (h line List.mem_cons_self)
    by_cases hrest : rest = []
    · subst hrest
      rw [joined, List.map_singleton, List.intercalate_singleton, hline, List.flatMap_singleton]
    · rw [joined_cons hrest, Pattern.references_append_break rfl, hline,
        ih fun other hother => h other (List.mem_cons_of_mem _ hother), List.flatMap_cons]

end HuntWarden.References
