import HuntWarden.Lib.Inet
import Mathlib.Data.List.Induction
import Mathlib.Tactic.IntervalCases

/-! The text that a program writes for an internet address: bytes in decimal between dots; groups in
    hexadecimal between colons, with the first of the longest runs of zero groups left out, and a quad at
    the end of what embeds an IPv4 address. The text denotes the address it was written for. -/

namespace HuntWarden.Inet

/-! ### The texts -/

/-- `inet_ntop` of an IPv4 address. -/
def quadText (quad : V4) : List Char := ['.'].intercalate (quad.parts.map (Nat.toDigits 10))

/-- How many zero groups stand from a position on. -/
def zeroRun (groups : List ℕ) (i : ℕ) : ℕ := ((groups.drop i).takeWhile (· = 0)).length

/-- The first of the longest runs of zero groups, and its length. -/
def bestRun (groups : List ℕ) : ℕ × ℕ :=
  (List.range groups.length).foldl
    (fun best i => if best.2 < zeroRun groups i then (i, zeroRun groups i) else best) (0, 0)

def hexPieces (groups : List ℕ) : List (List Char) := groups.map (Nat.toDigits 16)

def joinColons (pieces : List (List Char)) : List Char := [':'].intercalate pieces

/-- The quad of the last two groups. -/
def lastQuad (a : V6) : V4 where
  parts := (a.parts.drop 6).flatMap fun group => [group / 256, group % 256]
  length_eq := by
    have hlength := a.length_eq
    obtain ⟨g, g', htail⟩ : ∃ g g', a.parts.drop 6 = [g, g'] := by
      have hdrop : (a.parts.drop 6).length = 2 := by rw [List.length_drop, hlength]
      match a.parts.drop 6, hdrop with
      | [g, g'], _ => exact ⟨g, g', rfl⟩
    rw [htail]
    rfl
  bounded := by
    intro part hpart
    obtain ⟨group, hgroup, hmem⟩ := List.mem_flatMap.1 hpart
    have hlt := a.bounded group (List.mem_of_mem_drop hgroup)
    simp only [List.mem_cons, List.not_mem_nil, or_false] at hmem
    rcases hmem with rfl | rfl <;> omega

/-- What stands after the gap. -/
def afterGap (a : V6) (base len : ℕ) : List (List Char) :=
  if base = 0 ∧ (len = 6 ∨ len = 5 ∧ a.parts[5]? = some 0xffff) then
    hexPieces ((a.parts.take 6).drop len) ++ [quadText (lastQuad a)]
  else hexPieces (a.parts.drop (base + len))

/-- `inet_ntop` of an IPv6 address. -/
def groupText (a : V6) : List Char :=
  let (base, len) := bestRun a.parts
  if len < 2 then joinColons (hexPieces a.parts)
  else joinColons (hexPieces (a.parts.take base)) ++ ':' :: ':' :: joinColons (afterGap a base len)

/-! ### Pieces -/

theorem dotted_quadText (quad : V4) : dotted (quadText quad) = some quad :=
  dotted_intercalate (mapM_map fun byte hbyte => decimalByte_toDigits byte (quad.bounded byte hbyte))

/-- Digits of a base up to sixteen are hexadecimal digits and spell the number. -/
theorem numeral_toDigits (n : ℕ) : (Nat.toDigits 16 n).all isHexDigit = true ∧
    numeral 16 (Nat.toDigits 16 n) = n := by
  induction n using Nat.strongRecOn with
  | _ n ih =>
    by_cases hn : n < 16
    · rw [Nat.toDigits_of_lt_base hn]
      obtain ⟨hdigit, hvalue⟩ := digitChar_isHexDigit hn
      simp [hdigit, numeral, hvalue]
    · obtain ⟨hdigits, hvalue⟩ := ih (n / 16) (Nat.div_lt_self (by omega) (by decide))
      obtain ⟨hdigit, hlast⟩ := digitChar_isHexDigit (Nat.mod_lt n (by decide : 0 < 16))
      rw [Nat.toDigits_of_base_le (by decide) (by omega)]
      refine ⟨by rw [List.all_append, hdigits]; simp [hdigit], ?_⟩
      rw [numeral_append, hvalue]
      simp only [numeral, List.foldl_cons, List.foldl_nil, hlast, List.length_singleton]
      omega

theorem hexGroup_toDigits {group : ℕ} (h : group < 2 ^ 16) : hexGroup (Nat.toDigits 16 group) = some group := by
  obtain ⟨hdigits, hvalue⟩ := numeral_toDigits group
  refine hexGroup_eq_some.2 ⟨⟨?_, ?_, hdigits⟩, hvalue⟩
  · exact List.ne_nil_of_length_pos Nat.length_toDigits_pos
  · exact (Nat.length_toDigits_le_iff (by decide) (by decide)).2 h

theorem mapM_hexPieces {groups : List ℕ} (h : ∀ group ∈ groups, group < 2 ^ 16) :
    (hexPieces groups).mapM hexGroup = some groups :=
  mapM_map fun group hgroup => hexGroup_toDigits (h group hgroup)

/-! ### The gap -/

theorem splitOn_joinColons {pieces : List (List Char)} (hne : pieces ≠ []) (h : ∀ piece ∈ pieces, ':' ∉ piece) :
    (joinColons pieces).splitOn ':' = pieces := List.splitOn_intercalate ':' h hne

/-- Between pieces that are not empty there is no gap, and the last colon stands before a piece. -/
theorem splitGap_joinColons {pieces : List (List Char)} (h : ∀ piece ∈ pieces, piece ≠ [] ∧ ':' ∉ piece) :
    splitGap (joinColons pieces) = none ∧ (joinColons pieces).getLast? ≠ some ':' := by
  cases hpieces : pieces with
  | nil => exact ⟨rfl, by simp [joinColons]⟩
  | cons first rest =>
    rw [← hpieces]
    have hsplit := splitOn_joinColons (by rw [hpieces]; exact List.cons_ne_nil _ _) fun piece hp => (h piece hp).2
    have hempty : [] ∉ pieces := fun hmem => (h [] hmem).1 rfl
    constructor
    · cases hgap : splitGap (joinColons pieces) with
      | none => rfl
      | some sides =>
        rw [splitGap_eq hgap, List.splitOn_append_cons_self, List.splitOn_cons_eq_if_modifyHead,
          if_pos (by rfl)] at hsplit
        exact absurd (by rw [← hsplit]; simp) hempty
    · intro hlast
      obtain ⟨lead, hlead⟩ := List.getLast?_eq_some_iff.1 hlast
      rw [hlead, List.splitOn_append_cons_self] at hsplit
      exact absurd (by rw [← hsplit]; simp) hempty

theorem splitGap_append {before after : List Char} (hgap : splitGap before = none)
    (hlast : before.getLast? ≠ some ':') : splitGap (before ++ ':' :: ':' :: after) = some (before, after) := by
  induction before with
  | nil => rfl
  | cons c rest ih =>
    cases rest with
    | nil =>
      have hc : c ≠ ':' := by
        rintro rfl
        exact hlast rfl
      rw [List.singleton_append, splitGap]
      · rfl
      · exact fun _ heq => absurd heq hc
    | cons d rest =>
      have hpair : ∀ tail, c = ':' → d :: rest = ':' :: tail → False := by
        rintro tail rfl heq
        rw [heq, splitGap] at hgap
        cases hgap
      rw [splitGap] at hgap
      · rw [List.cons_append, splitGap]
        · rw [ih (Option.map_eq_none_iff.1 hgap) (by rwa [List.getLast?_cons_cons] at hlast)]
          rfl
        · intro tail hc heq
          rw [List.cons_append] at heq
          exact hpair rest hc (by rw [(List.cons.inj heq).1])
      · exact hpair

/-- The groups on the two sides of a gap. -/
theorem address_gap {left right : List (List Char)} {l r : List ℕ} {a : V6}
    (hleft : left.mapM hexGroup = some l) (hright : right = [] ∧ r = [] ∨ right ≠ [] ∧ groups right = some r)
    (hchars : ∀ piece ∈ left ++ right, piece ≠ [] ∧ ':' ∉ piece ∧ '%' ∉ piece)
    (hlength : l.length + r.length ≤ 7)
    (hparts : a.parts = l ++ List.replicate (8 - l.length - r.length) 0 ++ r) :
    address (joinColons left ++ ':' :: ':' :: joinColons right) = some (.v6 a) := by
  have hdotted : dotted (joinColons left ++ ':' :: ':' :: joinColons right) = none := by
    cases hquad : dotted (joinColons left ++ ':' :: ':' :: joinColons right) with
    | none => rfl
    | some quad =>
      rcases (dotted_chars hquad).2 ':' (by simp) with hc | hc <;> cases hc
  have hpercent : ∀ c ∈ joinColons left ++ ':' :: ':' :: joinColons right, decide (c ≠ '%') = true := by
    intro c hc
    refine decide_eq_true ?_
    rintro rfl
    have hpieces : ∀ pieces ⊆ left ++ right, '%' ∉ joinColons pieces := by
      intro pieces hsub hmem
      rcases mem_intercalate hmem with heq | ⟨piece, hpiece, hmem⟩
      · cases heq
      · exact (hchars piece (hsub hpiece)).2.2 hmem
    rcases List.mem_append.1 hc with hc | hc
    · exact hpieces left (List.subset_append_left _ _) hc
    · simp only [List.mem_cons, false_or, Char.reduceEq] at hc
      exact hpieces right (List.subset_append_right _ _) hc
  have hcolon : ∀ pieces ⊆ left ++ right, ∀ piece ∈ pieces, ':' ∉ piece := fun pieces hsub piece hpiece =>
    (hchars piece (hsub hpiece)).2.1
  obtain ⟨hgap, hlast⟩ := splitGap_joinColons fun piece hpiece =>
    ⟨(hchars piece (List.mem_append_left right hpiece)).1, (hchars piece (List.mem_append_left right hpiece)).2.1⟩
  have hne : ∀ {pieces : List (List Char)}, pieces ⊆ left ++ right → pieces ≠ [] → joinColons pieces ≠ [] := by
    intro pieces hsub hpieces hnil
    have hsplit := splitOn_joinColons hpieces (hcolon pieces hsub)
    rw [hnil, List.splitOn_nil] at hsplit
    exact (hchars [] (hsub (by rw [← hsplit]; exact List.mem_singleton_self _))).1 rfl
  have hleftGroups : leftGroups (joinColons left) = some l := by
    rw [leftGroups]
    by_cases hnil : left = []
    · rw [hnil] at hleft ⊢
      rw [if_pos (by rfl)]
      exact hleft
    · rw [if_neg (hne (List.subset_append_left _ _) hnil),
        splitOn_joinColons hnil (hcolon left (List.subset_append_left _ _)), hleft]
  have hrightGroups : rightGroups (joinColons right) = some r := by
    rw [rightGroups]
    rcases hright with ⟨rfl, rfl⟩ | ⟨hnil, hgroups⟩
    · rfl
    · rw [if_neg (hne (List.subset_append_right _ _) hnil),
        splitOn_joinColons hnil (hcolon right (List.subset_append_right _ _)), hgroups]
  have hcoloned : coloned (joinColons left ++ ':' :: ':' :: joinColons right) = some a := by
    refine coloned_eq_some.2 ⟨?_, ?_⟩
    · rw [List.dropWhile_eq_nil_iff.2 hpercent]
      rfl
    · rw [List.takeWhile_eq_self_iff.2 hpercent, allGroups, splitGap_append hgap hlast]
      dsimp only
      rw [hleftGroups, hrightGroups]
      dsimp only [Option.bind_some, bind]
      rw [if_pos hlength, hparts]
  rw [address, hdotted]
  exact congrArg (Option.map Address.v6) hcoloned

/-! ### The longest run -/

theorem bestRun_spec (groups : List ℕ) :
    (bestRun groups).2 = 0 ∨ (bestRun groups).2 = zeroRun groups (bestRun groups).1 := by
  rw [bestRun]
  generalize List.range groups.length = positions
  induction positions using List.reverseRecOn with
  | nil => exact Or.inl rfl
  | append_singleton positions i ih =>
    rw [List.foldl_append, List.foldl_cons, List.foldl_nil]
    split
    · exact Or.inr rfl
    · exact ih

/-- The groups, with their run of zeros. -/
theorem parts_of_run {groups : List ℕ} {base len : ℕ} (h : len = zeroRun groups base) :
    groups = groups.take base ++ List.replicate len 0 ++ groups.drop (base + len) := by
  have hrun : (groups.drop base).takeWhile (· = 0) = List.replicate len 0 := by
    rw [List.eq_replicate_iff]
    exact ⟨h.symm, fun group hgroup => by simpa using List.mem_takeWhile_imp hgroup⟩
  have hrest : (groups.drop base).dropWhile (· = 0) = groups.drop (base + len) := by
    have hdrop := congrArg (List.drop len) (List.takeWhile_append_dropWhile (p := (· = 0)) (l := groups.drop base))
    rw [List.drop_left' (h.symm), List.drop_drop] at hdrop
    exact hdrop
  rw [← hrest, ← hrun, List.append_assoc, List.takeWhile_append_dropWhile, List.take_append_drop]

theorem hexPieces_chars {groups : List ℕ} : ∀ piece ∈ hexPieces groups, piece ≠ [] ∧ ':' ∉ piece ∧ '%' ∉ piece := by
  intro piece hpiece
  obtain ⟨group, -, rfl⟩ := List.mem_map.1 hpiece
  have hdigits := List.all_eq_true.1 (numeral_toDigits group).1
  exact ⟨List.ne_nil_of_length_pos Nat.length_toDigits_pos,
    fun hmem => absurd (hdigits ':' hmem) (by decide), fun hmem => absurd (hdigits '%' hmem) (by decide)⟩

theorem quadText_chars (quad : V4) : quadText quad ≠ [] ∧ ':' ∉ quadText quad ∧ '%' ∉ quadText quad := by
  obtain ⟨hdot, hchars⟩ := dotted_chars (dotted_quadText quad)
  refine ⟨List.ne_nil_of_mem hdot, fun hmem => ?_, fun hmem => ?_⟩
  · rcases hchars _ hmem with hc | hc <;> cases hc
  · rcases hchars _ hmem with hc | hc <;> cases hc

theorem groups_quad {pieces : List (List Char)} {lead : List ℕ} (h : pieces.mapM hexGroup = some lead)
    (quad : V4) : groups (pieces ++ [quadText quad]) = some (lead ++ quadGroups quad) := by
  induction pieces generalizing lead with
  | nil =>
    obtain rfl := Option.some.inj h
    rw [List.nil_append, groups.eq_def]
    dsimp only
    rw [hexGroup_eq_none (dotted_chars (dotted_quadText quad)).1, dotted_quadText]
    rfl
  | cons piece pieces ih =>
    rw [List.mapM_cons] at h
    obtain ⟨group, hgroup, h⟩ := Option.bind_eq_some_iff.1 h
    obtain ⟨others, hothers, h⟩ := Option.bind_eq_some_iff.1 h
    obtain rfl := Option.some.inj h
    obtain ⟨next, rest, hrest⟩ := List.exists_cons_of_ne_nil
      (List.append_ne_nil_of_right_ne_nil pieces (List.cons_ne_nil (quadText quad) []))
    rw [List.cons_append, hrest, groups_cons, hgroup, ← hrest, ih hothers]
    rfl

theorem quadGroups_lastQuad (a : V6) : quadGroups (lastQuad a) = a.parts.drop 6 := by
  have hdrop : (a.parts.drop 6).length = 2 := by rw [List.length_drop, a.length_eq]
  match htail : a.parts.drop 6, hdrop with
  | [g, g'], _ =>
    rw [quadGroups, lastQuad]
    dsimp only
    rw [htail]
    simp only [List.flatMap_cons, List.flatMap_nil, List.cons_append, List.nil_append, List.append_nil]
    rw [Nat.div_add_mod' g 256, Nat.div_add_mod' g' 256]

/-- The text of an address denotes it. -/
theorem address_groupText (a : V6) : address (groupText a) = some (.v6 a) := by
  have hlength := a.length_eq
  have hpieces : ∀ {groups : List ℕ}, groups ⊆ a.parts → (hexPieces groups).mapM hexGroup = some groups :=
    fun hsub => mapM_hexPieces fun group hgroup => a.bounded group (hsub hgroup)
  rw [groupText]
  generalize hrun : bestRun a.parts = run
  obtain ⟨base, len⟩ := run
  dsimp only
  split
  · exact address_intercalate (hpieces (List.Subset.refl _))
  · rename_i hlen
    have hspec := bestRun_spec a.parts
    rw [hrun] at hspec
    have hparts := parts_of_run (hspec.resolve_left (by omega))
    have htotal := congrArg List.length hparts
    simp only [List.length_append, List.length_take, List.length_replicate, List.length_drop] at htotal
    have hleft := hpieces (List.take_subset base a.parts)
    rw [afterGap]
    split
    · rename_i hquad
      obtain ⟨rfl, hquad⟩ := hquad
      have hsix : len ≤ 6 := by rcases hquad with rfl | ⟨rfl, -⟩ <;> decide
      have hdrop : (a.parts.take 6).drop len ++ a.parts.drop 6 = a.parts.drop len := by
        conv_rhs => rw [← List.take_append_drop 6 a.parts]
        rw [List.drop_append_of_le_length (by rw [List.length_take, hlength]; exact hsix)]
      have hlead := hpieces fun group hgroup => List.take_subset 6 a.parts (List.drop_subset len _ hgroup)
      have hgroups := groups_quad hlead (lastQuad a)
      rw [quadGroups_lastQuad, hdrop] at hgroups
      refine address_gap hleft (Or.inr ⟨List.append_ne_nil_of_right_ne_nil _ (List.cons_ne_nil _ _), hgroups⟩)
        ?_ ?_ ?_
      · intro piece hpiece
        simp only [List.mem_append, List.mem_singleton] at hpiece
        rcases hpiece with hpiece | hpiece | rfl
        · exact hexPieces_chars piece hpiece
        · exact hexPieces_chars piece hpiece
        · exact quadText_chars _
      · simp only [List.length_take, List.length_drop, hlength]
        omega
      · have hzeros : 8 - (a.parts.take 0).length - (a.parts.drop len).length = len := by
          simp only [List.length_take, List.length_drop, hlength]
          omega
        rw [hzeros]
        rw [Nat.zero_add] at hparts
        exact hparts
    · have hright : hexPieces (a.parts.drop (base + len)) = [] ∧ a.parts.drop (base + len) = [] ∨
          hexPieces (a.parts.drop (base + len)) ≠ [] ∧
            groups (hexPieces (a.parts.drop (base + len))) = some (a.parts.drop (base + len)) := by
        by_cases hnil : a.parts.drop (base + len) = []
        · exact Or.inl ⟨by rw [hnil]; rfl, hnil⟩
        · exact Or.inr ⟨fun h => hnil (List.map_eq_nil_iff.1 h), groups_of_mapM (hpieces (List.drop_subset _ _))⟩
      refine address_gap hleft hright ?_ ?_ ?_
      · intro piece hpiece
        rcases List.mem_append.1 hpiece with hpiece | hpiece <;> exact hexPieces_chars piece hpiece
      · simp only [List.length_take, List.length_drop, hlength]
        omega
      · have hzeros : 8 - (a.parts.take base).length - (a.parts.drop (base + len)).length = len := by
          simp only [List.length_take, List.length_drop, hlength]
          omega
        rw [hzeros]
        exact hparts

end HuntWarden.Inet
