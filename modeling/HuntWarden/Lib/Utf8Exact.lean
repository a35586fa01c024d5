import HuntWarden.Lib.Utf16

/-! Strict reading of UTF-8, and what the reading with replacement shares with it: it takes a character
    exactly where the sequence of one begins, and else a single byte. -/

namespace HuntWarden.Utf8

/-- `bytes.decode("utf-8")`, none where it raises. -/
def strict? (bytes : List UInt8) : Option (List Char) := (String.fromUTF8? bytes.toByteArray).map String.toList

theorem toByteArray_inj {a b : List UInt8} (h : a.toByteArray = b.toByteArray) : a = b := by
  have hdata := congrArg ByteArray.data h
  rw [List.data_toByteArray, List.data_toByteArray] at hdata
  exact congrArg Array.toList hdata

theorem strict?_encode (cs : List Char) : strict? (cs.flatMap String.utf8EncodeChar) = some cs := by
  have hvalid : ByteArray.IsValidUTF8 (cs.flatMap String.utf8EncodeChar).toByteArray := ⟨cs, rfl⟩
  have htext : String.fromUTF8 _ hvalid = String.ofList cs := by
    rw [← String.toByteArray_inj, String.toByteArray_ofList]
    rfl
  rw [strict?, String.fromUTF8?, dif_pos hvalid, Option.map_some, htext, String.toList_ofList]

theorem encode_of_strict? {bytes : List UInt8} {cs : List Char} (h : strict? bytes = some cs) :
    bytes = cs.flatMap String.utf8EncodeChar := by
  obtain ⟨text, htext, rfl⟩ := Option.map_eq_some_iff.1 h
  rw [String.fromUTF8?] at htext
  split at htext
  · next hvalid =>
    cases htext
    exact toByteArray_inj (@String.utf8Encode_toList (String.fromUTF8 _ hvalid)).symm
  · cases htext

/-! ### The sequence of a character -/

theorem not_surrogate (c : Char) : ¬ JsonText.surrogate c.toNat = true := by
  have hvalid := c.valid
  rw [JsonText.surrogate_iff]
  intro hsurrogate
  rcases hvalid with h | h
  · exact absurd h (by rw [← Char.toNat_val] at hsurrogate; omega)
  · exact absurd h.1 (by rw [← Char.toNat_val] at hsurrogate; omega)

theorem toNat_lt (c : Char) : c.toNat < 0x110000 := by
  have hvalid := c.valid
  rw [← Char.toNat_val]
  rcases hvalid with h | h
  · exact Nat.lt_of_lt_of_le h (by decide)
  · exact h.2

theorem encodeChar_eq (c : Char) : String.utf8EncodeChar c = Utf16.encodePoint c.toNat := by
  have hlt := toNat_lt c
  rw [Utf16.encodePoint, if_neg (not_surrogate c), String.utf8EncodeChar, Char.toNat_val]
  by_cases hone : c.toNat < 0x80
  · rw [if_pos (by omega), if_pos hone]
  rw [if_neg (by omega), if_neg hone]
  by_cases htwo : c.toNat < 0x800
  · rw [if_pos (by omega), if_pos htwo, Nat.mod_eq_of_lt (by omega), Nat.add_comm, Nat.add_comm (c.toNat % 64)]
  rw [if_neg (by omega), if_neg htwo]
  by_cases hthree : c.toNat < 0x10000
  · rw [if_pos (by omega), if_pos hthree, Nat.mod_eq_of_lt (by omega), Nat.add_comm, Nat.add_comm (c.toNat % 64),
      Nat.add_comm (c.toNat / 64 % 64)]
  rw [if_neg (by omega), if_neg hthree, Nat.mod_eq_of_lt (by omega), Nat.add_comm, Nat.add_comm (c.toNat % 64),
    Nat.add_comm (c.toNat / 64 % 64), Nat.add_comm (c.toNat / 4096 % 64)]

theorem char_sequence (c : Char) : ∃ first tail, String.utf8EncodeChar c = first :: tail ∧
    Utf16.Sequence first tail ∧ character first tail = c := by
  obtain ⟨first, tail, hencode, hsequence, hcharacter⟩ := Utf16.encodePoint_sequence (toNat_lt c)
  refine ⟨first, tail, (encodeChar_eq c).trans hencode, hsequence, hcharacter.trans ?_⟩
  rw [Utf16.scalar, if_neg (not_surrogate c), Char.ofNat_toNat]

theorem byte_eq (byte : UInt8) {n : ℕ} (h : byte.toNat = n) : UInt8.ofNat n = byte := by
  rw [← h, UInt8.ofNat_toNat]

/-- A code point that is no surrogate, as a character, is written as its sequence. -/
theorem encodeChar_ofNat {point : ℕ} (h : ¬ JsonText.surrogate point = true) (hlt : point < 0x110000) :
    String.utf8EncodeChar (Char.ofNat point) = Utf16.encodePoint point := by
  rw [encodeChar_eq, JsonText.toNat_ofNat h hlt]

theorem range_of_width {first : UInt8} {n : ℕ} (h : width first = n + 2) :
    (n = 0 ∧ 0xC2 ≤ first.toNat ∧ first.toNat ≤ 0xDF) ∨ (n = 1 ∧ 0xE0 ≤ first.toNat ∧ first.toNat ≤ 0xEF) ∨
      (n = 2 ∧ 0xF0 ≤ first.toNat ∧ first.toNat ≤ 0xF4) := by
  rw [Utf16.width_eq] at h
  split at h
  · omega
  · split at h
    · omega
    · split at h <;> omega

/-- A well-formed sequence is the one of its character. -/
theorem sequence_encode {first : UInt8} {tail : List UInt8} (h : Utf16.Sequence first tail) :
    String.utf8EncodeChar (character first tail) = first :: tail := by
  obtain ⟨hwidth, hascii, hsecond, htails⟩ := h
  match tail with
  | [] =>
    have hsmall : first.toNat < 0x80 := UInt8.lt_iff_toNat_lt.1 (hascii rfl)
    have hnot : ¬ JsonText.surrogate first.toNat = true := by
      rw [JsonText.surrogate_iff]
      omega
    have hcharacter : character first [] = Char.ofNat first.toNat := by
      rw [character, hwidth]
      rfl
    rw [hcharacter, encodeChar_ofNat hnot (by omega), Utf16.encodePoint, if_neg hnot, if_pos hsmall, UInt8.ofNat_toNat]
  | [b] =>
    have hrange := range_of_width (n := 0) hwidth
    have hb := Utf16.isTail_iff.1 (htails b List.mem_cons_self)
    obtain ⟨point, hpoint⟩ : ∃ point, point = (first.toNat - 0xC0) * 64 + (b.toNat - 0x80) := ⟨_, rfl⟩
    have hnot : ¬ JsonText.surrogate point = true := by
      rw [JsonText.surrogate_iff]
      omega
    rw [Utf16.character_two hwidth, ← hpoint, encodeChar_ofNat hnot (by omega), Utf16.encodePoint, if_neg hnot,
      if_neg (by omega), if_pos (by omega), byte_eq first (n := 0xC0 + point / 0x40) (by omega),
      byte_eq b (n := 0x80 + point % 0x40) (by omega)]
  | [b, c] =>
    have hrange := range_of_width (n := 1) hwidth
    have hb := Utf16.isTail_iff.1 (htails b List.mem_cons_self)
    have hc := Utf16.isTail_iff.1 (htails c (List.mem_cons_of_mem _ List.mem_cons_self))
    obtain ⟨-, hlong, hsurrogate, -, -⟩ := Utf16.isSecond_iff.1 (hsecond b [c] rfl)
    obtain ⟨point, hpoint⟩ : ∃ point,
        point = ((first.toNat - 0xE0) * 64 + (b.toNat - 0x80)) * 64 + (c.toNat - 0x80) := ⟨_, rfl⟩
    have hnot : ¬ JsonText.surrogate point = true := by
      rw [JsonText.surrogate_iff]
      omega
    rw [Utf16.character_three hwidth, ← hpoint, encodeChar_ofNat hnot (by omega), Utf16.encodePoint, if_neg hnot,
      if_neg (by omega), if_neg (by omega), if_pos (by omega), byte_eq first (n := 0xE0 + point / 0x1000) (by omega),
      byte_eq b (n := 0x80 + point / 0x40 % 0x40) (by omega), byte_eq c (n := 0x80 + point % 0x40) (by omega)]
  | [b, c, d] =>
    have hrange := range_of_width (n := 2) hwidth
    have hb := Utf16.isTail_iff.1 (htails b List.mem_cons_self)
    have hc := Utf16.isTail_iff.1 (htails c (List.mem_cons_of_mem _ List.mem_cons_self))
    have hd := Utf16.isTail_iff.1 (htails d (List.mem_cons_of_mem _ (List.mem_cons_of_mem _ List.mem_cons_self)))
    obtain ⟨-, -, -, hlong, hlast⟩ := Utf16.isSecond_iff.1 (hsecond b [c, d] rfl)
    obtain ⟨point, hpoint⟩ : ∃ point, point = (((first.toNat - 0xF0) * 64 + (b.toNat - 0x80)) * 64 +
        (c.toNat - 0x80)) * 64 + (d.toNat - 0x80) := ⟨_, rfl⟩
    have hnot : ¬ JsonText.surrogate point = true := by
      rw [JsonText.surrogate_iff]
      omega
    rw [Utf16.character_four hwidth, ← hpoint, encodeChar_ofNat hnot (by omega), Utf16.encodePoint, if_neg hnot,
      if_neg (by omega), if_neg (by omega), if_neg (by omega), byte_eq first (n := 0xF0 + point / 0x40000) (by omega),
      byte_eq b (n := 0x80 + point / 0x1000 % 0x40) (by omega), byte_eq c (n := 0x80 + point / 0x40 % 0x40) (by omega),
      byte_eq d (n := 0x80 + point % 0x40) (by omega)]
  | _ :: _ :: _ :: _ :: more =>
    have hrange := range_of_width (n := more.length + 3) hwidth
    omega

theorem encode_prefix_inj {c d : Char} {rest rest' : List UInt8}
    (h : String.utf8EncodeChar c ++ rest = String.utf8EncodeChar d ++ rest') : c = d ∧ rest = rest' := by
  obtain ⟨first, tail, hc, hsequence, hcharacter⟩ := char_sequence c
  obtain ⟨first', tail', hd, hsequence', hcharacter'⟩ := char_sequence d
  rw [hc, hd, List.cons_append, List.cons_append, List.cons.injEq] at h
  obtain ⟨rfl, happend⟩ := h
  have hlength : tail.length = tail'.length := Nat.succ.inj (hsequence.width.symm.trans hsequence'.width)
  obtain ⟨rfl, hrest⟩ := List.append_inj happend hlength
  exact ⟨hcharacter.symm.trans hcharacter', hrest⟩

/-! ### Reading with replacement -/

theorem step_char (whole : Bool) {c : Char} {first : UInt8} {tail : List UInt8}
    (h : String.utf8EncodeChar c = first :: tail) (rest : List UInt8) :
    step whole first (tail ++ rest) = (c, tail.length) := by
  obtain ⟨first', tail', hc, hsequence, hcharacter⟩ := char_sequence c
  rw [h, List.cons.injEq] at hc
  obtain ⟨rfl, rfl⟩ := hc
  have hends : width first ≠ 1 ∨ first < 0x80 := by
    rw [hsequence.width]
    cases tail with
    | nil => exact Or.inr (hsequence.ascii rfl)
    | cons b more => exact Or.inl (by rw [List.length_cons]; omega)
  rw [step, Utf16.following_append hsequence, if_pos ⟨hsequence.width.symm, hends⟩, List.take_left' rfl, hcharacter]

/-- What is read as a character is a well-formed sequence. -/
theorem sequence_of_following {first : UInt8} {rest : List UInt8} (h : following first rest + 1 = width first)
    (hends : width first ≠ 1 ∨ first < 0x80) : Utf16.Sequence first (rest.take (following first rest)) := by
  have hnone : following first rest = 0 → Utf16.Sequence first [] := fun hzero => by
    rw [hzero] at h
    refine ⟨h.symm, fun _ => ?_, fun _ _ hcons => absurd hcons.symm (List.cons_ne_nil _ _),
      fun b hb => absurd hb List.not_mem_nil⟩
    rcases hends with hwidth | hascii
    · exact absurd h.symm hwidth
    · exact hascii
  match rest with
  | [] => exact hnone rfl
  | second :: rest =>
    by_cases hopen : 2 ≤ width first ∧ isSecond first second
    · obtain ⟨taken, htaken⟩ : ∃ taken, taken = ((rest.take (width first - 2)).takeWhile isTail).length := ⟨_, rfl⟩
      have hfollowing : following first (second :: rest) = taken + 1 := by
        rw [following, if_pos hopen, ← htaken, Nat.add_comm]
      rw [hfollowing] at h ⊢
      have hwhole : (rest.take (width first - 2)).takeWhile isTail = rest.take (width first - 2) := by
        refine (List.takeWhile_prefix _).eq_of_length (Nat.le_antisymm (List.takeWhile_prefix _).length_le ?_)
        rw [← htaken, List.length_take]
        omega
      have htake : rest.take taken = (rest.take (width first - 2)).takeWhile isTail := by
        rw [hwhole, show width first - 2 = taken by omega]
      have hlength : (rest.take taken).length = taken := by rw [htake, htaken]
      rw [List.take_succ_cons]
      refine ⟨?_, fun hnil => absurd hnil (List.cons_ne_nil _ _), ?_, fun b hb => ?_⟩
      · rw [List.length_cons, hlength]
        exact h.symm
      · rintro b more hcons
        obtain ⟨rfl, -⟩ := List.cons.inj hcons
        exact hopen.2
      · rcases List.mem_cons.1 hb with rfl | hb
        · have hsecond := hopen.2
          rw [isSecond, Bool.and_eq_true] at hsecond
          exact hsecond.1
        · rw [htake] at hb
          exact List.mem_takeWhile_imp hb
    · have hzero : following first (second :: rest) = 0 := by rw [following, if_neg hopen]
      rw [hzero]
      exact hnone hzero

/-- Where the sequence of no character begins, a single byte is replaced. -/
theorem step_bad {first : UInt8} {rest : List UInt8}
    (h : ∀ c, ¬ String.utf8EncodeChar c <+: first :: rest) : step false first rest = (replacement, 0) := by
  by_cases hread : following first rest + 1 = width first ∧ (width first ≠ 1 ∨ first < 0x80)
  · refine absurd ?_ (h (character first (rest.take (following first rest))))
    rw [sequence_encode (sequence_of_following hread.1 hread.2)]
    exact (List.prefix_cons_inj first).2 (List.take_prefix _ _)
  · rw [step, if_neg hread, if_neg Bool.false_ne_true]

/-- The bytes in pieces, each with what it is read as: the sequence of a character where one begins, and
    a single byte, replaced, where none does. -/
inductive Reads : List UInt8 → List (Char × List UInt8) → Prop where
  | nil : Reads [] []
  | char (c : Char) {rest : List UInt8} {pieces : List (Char × List UInt8)} (later : Reads rest pieces) :
      Reads (String.utf8EncodeChar c ++ rest) ((c, String.utf8EncodeChar c) :: pieces)
  | bad {byte : UInt8} {rest : List UInt8} {pieces : List (Char × List UInt8)}
      (none : ∀ c, ¬ String.utf8EncodeChar c <+: byte :: rest) (later : Reads rest pieces) :
      Reads (byte :: rest) ((replacement, [byte]) :: pieces)

variable {raw : List UInt8} {pieces : List (Char × List UInt8)}

theorem Reads.flatten (h : Reads raw pieces) : (pieces.map Prod.snd).flatten = raw := by
  induction h with
  | nil => rfl
  | char c later ih => exact congrArg (String.utf8EncodeChar c ++ ·) ih
  | @bad byte rest pieces none later ih => exact congrArg (byte :: ·) ih

/-- A piece, and the character that it is shown as. -/
def Shows (c : Char) (piece : List UInt8) : Prop :=
  piece = String.utf8EncodeChar c ∨ c = replacement ∧ ∃ byte, piece = [byte]

theorem Reads.shows (h : Reads raw pieces) : List.Forall₂ Shows (pieces.map Prod.fst) (pieces.map Prod.snd) := by
  induction h with
  | nil => exact .nil
  | char c later ih => exact .cons (Or.inl rfl) ih
  | @bad byte rest pieces none later ih => exact .cons (Or.inr ⟨rfl, byte, rfl⟩) ih

theorem Reads.ne_nil (h : Reads raw pieces) : ∀ piece ∈ pieces.map Prod.snd, piece ≠ [] := by
  induction h with
  | nil => exact fun piece hpiece => absurd hpiece List.not_mem_nil
  | char c later ih =>
    rw [List.map_cons, List.forall_mem_cons]
    exact ⟨String.utf8EncodeChar_ne_nil, ih⟩
  | bad none later ih =>
    rw [List.map_cons, List.forall_mem_cons]
    exact ⟨List.cons_ne_nil _ _, ih⟩

/-- Valid UTF-8 is read as its characters. -/
theorem Reads.valid (h : Reads raw pieces) :
    ∀ cs : List Char, raw = cs.flatMap String.utf8EncodeChar → pieces.map Prod.fst = cs := by
  induction h with
  | nil =>
    rintro (_ | ⟨d, cs⟩) hcs
    · rfl
    · rw [List.flatMap_cons] at hcs
      exact absurd (List.append_eq_nil_iff.1 hcs.symm).1 String.utf8EncodeChar_ne_nil
  | char c later ih =>
    rintro (_ | ⟨d, cs⟩) hcs
    · exact absurd (List.append_eq_nil_iff.1 hcs).1 String.utf8EncodeChar_ne_nil
    · obtain ⟨rfl, hrest⟩ := encode_prefix_inj (hcs.trans List.flatMap_cons)
      rw [List.map_cons, ih cs hrest]
  | bad none later ih =>
    rintro (_ | ⟨d, cs⟩) hcs
    · exact absurd hcs (List.cons_ne_nil _ _)
    · exact absurd ⟨_, hcs.symm⟩ (none d)

theorem decodeFrom_skip (whole : Bool) : ∀ (taken rest : List UInt8) (index : ℕ),
    decodeFrom whole index taken.length (taken ++ rest) = decodeFrom whole (index + taken.length) 0 rest
  | [], _, _ => rfl
  | byte :: taken, rest, index => by
      rw [List.length_cons, List.cons_append, decodeFrom, decodeFrom_skip whole taken rest,
        Nat.add_assoc, Nat.add_comm 1]

theorem decodeFrom_char (whole : Bool) (c : Char) (rest : List UInt8) (index : ℕ) :
    decodeFrom whole index 0 (String.utf8EncodeChar c ++ rest) =
      (c, index) :: decodeFrom whole (index + (String.utf8EncodeChar c).length) 0 rest := by
  obtain ⟨first, tail, hc, -⟩ := char_sequence c
  rw [hc, List.cons_append, decodeFrom, step_char whole hc, decodeFrom_skip, List.length_cons, Nat.add_assoc,
    Nat.add_comm 1]

end HuntWarden.Utf8
