import HuntWarden.Lib.InetText

/-! Which addresses may be sent to a threat intelligence provider. The test reads the bytes of an IPv4
    address, but the text of an IPv6 address: it answers for the text, and the answer is one for the
    address only where no other text of it is answered otherwise. -/

namespace HuntWarden.NetworkIoc

open Inet

/-! ### The program -/

/-- `isIP` of `node:net` -/
def isIP (value : List Char) : ℕ :=
  match address value with
  | some (.v4 _) => 4
  | some (.v6 _) => 6
  | none => 0

def ipv4Bytes (value : List Char) : Option (List ℕ) :=
  if isIP value ≠ 4 then none
  else
    let bytes := (value.splitOn '.').map (numeral 10)
    if bytes.length = 4 ∧ bytes.all (· ≤ 255) then some bytes else none

/-- The answer for the bytes of an IPv4 address. -/
def publicBytes : List ℕ → Bool
  | [first, second, third, _] =>
    if first = 0 ∨ first = 10 ∨ first = 127 ∨ first ≥ 224 then false
    else if first = 100 ∧ second ≥ 64 ∧ second ≤ 127 then false
    else if first = 169 ∧ second = 254 then false
    else if first = 172 ∧ second ≥ 16 ∧ second ≤ 31 then false
    else if first = 192 ∧ (second = 168 ∨ second = 0 ∨ (second = 0 ∧ third = 2)) then false
    else if first = 198 ∧ (second = 18 ∨ second = 19 ∨ (second = 51 ∧ third = 100)) then false
    else if first = 203 ∧ second = 0 ∧ third = 113 then false
    else true
  | _ => false

/-- The test where the text is an IPv4 address; `false` where it is none. -/
def isPublicIpv4 (value : List Char) : Bool :=
  match ipv4Bytes value with
  | some bytes => publicBytes bytes
  | none => false

/-- `/^::ffff:(\d+\.\d+\.\d+\.\d+)$/` -/
def mappedIpv4 (normalized : List Char) : Option (List Char) :=
  if "::ffff:".toList.isPrefixOf normalized then
    let quad := normalized.drop 7
    let fields := quad.splitOn '.'
    if fields.length = 4 ∧ fields.all (fun field => field ≠ [] ∧ field.all isDigit) then some quad
    else none
  else none

/-- The prefixes that are refused wherever a text begins with them. -/
def refusedPrefixes : List (List Char) :=
  ["fe8", "fe9", "fea", "feb", "fc", "fd", "ff", "2001:db8:", "2001:10:"].map String.toList

def isPublicText (value : List Char) : Bool :=
  match isIP value with
  | 4 => isPublicIpv4 value
  | 6 =>
    let normalized := value.map Char.toLower
    match mappedIpv4 normalized with
    -- the function calls itself here; a text without a colon cannot come back to this branch
    | some mapped => isPublicIpv4 mapped
    | none =>
      normalized ≠ "::".toList ∧ normalized ≠ "::1".toList ∧
        refusedPrefixes.all fun lead => !lead.isPrefixOf normalized
  | _ => false

def isPublicThreatIntelIp (value : String) : Bool := isPublicText value.toList

/-! ### Addresses that are not public -/

/-- This network, private use, shared use, loopback, link-local, protocol assignments, documentation,
    benchmarking, multicast and the reserved rest. -/
def specialV4 : List Block :=
  [⟨[0], 8⟩, ⟨[10], 8⟩, ⟨[100, 64], 10⟩, ⟨[127], 8⟩, ⟨[169, 254], 16⟩, ⟨[172, 16], 12⟩,
    ⟨[192, 0, 0], 24⟩, ⟨[192, 0, 2], 24⟩, ⟨[192, 168], 16⟩, ⟨[198, 18], 15⟩, ⟨[198, 51, 100], 24⟩,
    ⟨[203, 0, 113], 24⟩, ⟨[224], 4⟩, ⟨[240], 4⟩]

/-- Unspecified, loopback, local translation, discard only, dummies, benchmarking, identifiers that
    are not routed, documentation twice, segment identifiers, unique-local, link-local and multicast. -/
def specialV6 : List Block :=
  [⟨[0, 0, 0, 0, 0, 0, 0, 0], 128⟩, ⟨[0, 0, 0, 0, 0, 0, 0, 1], 128⟩, ⟨[0x64, 0xff9b, 1], 48⟩,
    ⟨[0x100, 0, 0, 0], 64⟩, ⟨[0x100, 0, 0, 1], 64⟩, ⟨[0x2001, 2, 0], 48⟩, ⟨[0x2001, 0x10], 28⟩,
    ⟨[0x2001, 0xdb8], 32⟩, ⟨[0x3fff, 0], 20⟩, ⟨[0x5f00], 16⟩, ⟨[0xfc00], 7⟩, ⟨[0xfe80], 10⟩,
    ⟨[0xff00], 8⟩]

/-- An address that no provider may get. -/
def Special : Address → Prop
  | .v4 a => ∃ block ∈ specialV4, a.inBlock block = true
  | .v6 a => (∃ block ∈ specialV6, a.inBlock block = true) ∨
      ∃ quad, Mapped a quad ∧ ∃ block ∈ specialV4, quad.inBlock block = true

/-! ### IPv4 -/

theorem dotted_isIP {value : List Char} {quad : V4} (h : dotted value = some quad) : isIP value = 4 := by
  rw [isIP, address, h]

theorem mapM_decimalByte {pieces : List (List Char)} {bytes : List ℕ}
    (h : pieces.mapM decimalByte = some bytes) : pieces.map (numeral 10) = bytes := by
  induction pieces generalizing bytes with
  | nil => exact Option.some.inj h
  | cons piece pieces ih =>
    rw [List.mapM_cons] at h
    obtain ⟨byte, hbyte, h⟩ := Option.bind_eq_some_iff.1 h
    obtain ⟨others, hothers, hbytes⟩ := Option.bind_eq_some_iff.1 h
    rw [decimalByte] at hbyte
    split at hbyte
    · rw [List.map_cons, ih hothers, Option.some.inj hbyte]
      exact Option.some.inj hbytes
    · cases hbyte

/-- The bytes that the program reads are those of the address. -/
theorem ipv4Bytes_of_dotted {value : List Char} {quad : V4} (h : dotted value = some quad) :
    ipv4Bytes value = some quad.parts := by
  obtain ⟨bytes, hbytes, hquad⟩ := Option.bind_eq_some_iff.1 h
  obtain rfl := ofList?_eq_some.1 hquad
  rw [ipv4Bytes, if_neg (not_not.2 (dotted_isIP h))]
  dsimp only
  rw [mapM_decimalByte hbytes, if_pos]
  refine ⟨quad.length_eq, List.all_eq_true.2 fun byte hmem => decide_eq_true ?_⟩
  exact Nat.le_of_lt_succ (quad.bounded byte hmem)

theorem isPublicIpv4_of_dotted {value : List Char} {quad : V4} (h : dotted value = some quad) :
    isPublicIpv4 value = publicBytes quad.parts := by
  rw [isPublicIpv4, ipv4Bytes_of_dotted h]

/-- Besides the special addresses the bytes refuse no more than the rest of 192.0.0.0/16. -/
theorem publicBytes_iff (quad : V4) : publicBytes quad.parts = true ↔
    ¬ (∃ block ∈ specialV4, quad.inBlock block = true) ∧ quad.inBlock ⟨[192, 0], 16⟩ = false := by
  obtain ⟨parts, hlength, hbounded⟩ := quad
  match parts, hlength with
  | [first, second, third, fourth], _ =>
    have hfirst := hbounded first (by simp)
    have hsecond := hbounded second (by simp)
    have hthird := hbounded third (by simp)
    simp only [publicBytes, specialV4, Parts.inBlock, sharesBits, List.mem_cons, List.not_mem_nil,
      or_false, exists_eq_or_imp, exists_eq_left]
    simp only [Nat.reduceLeDiff, ↓reduceIte, Nat.reduceSub, Nat.reducePow, Nat.div_one,
      Nat.reduceDiv, Bool.decide_and, Bool.and_eq_true, decide_eq_true_eq]
    have hshared : 1 = second / 64 ↔ 64 ≤ second ∧ second ≤ 127 := by omega
    have hprivate : 1 = second / 16 ↔ 16 ≤ second ∧ second ≤ 31 := by omega
    have hbenchmark : 9 = second / 2 ↔ second = 18 ∨ second = 19 := by omega
    have hmulticast : 14 = first / 16 ∨ 15 = first / 16 ↔ 224 ≤ first := by omega
    rw [hshared, hprivate, hbenchmark, hmulticast]
    -- most of the blocks are told apart by their first byte
    clear hbounded hshared hprivate hbenchmark hmulticast hlength
    by_cases h100 : first = 100
    · subst h100
      simp
      omega
    by_cases h169 : first = 169
    · subst h169
      simp
      omega
    by_cases h172 : first = 172
    · subst h172
      simp
      omega
    by_cases h192 : first = 192
    · subst h192
      simp
      omega
    by_cases h198 : first = 198
    · subst h198
      simp
      omega
    by_cases h203 : first = 203
    · subst h203
      simp
      omega
    simp [h100, h169, h172, h192, h198, h203, Ne.symm h100, Ne.symm h169, Ne.symm h172, Ne.symm h192,
      Ne.symm h198, Ne.symm h203]
    omega

/-! ### What the program reads in a text -/

theorem mappedIpv4_eq_some {normalized quadText : List Char}
    (h : mappedIpv4 normalized = some quadText) :
    normalized = "::ffff:".toList ++ quadText ∧ '.' ∈ quadText ∧ ':' ∉ quadText ∧ '%' ∉ quadText := by
  rw [mappedIpv4] at h
  split at h
  · next hlead =>
    dsimp only at h
    split at h
    · next hfields =>
      obtain ⟨hlength, hfields⟩ := hfields
      obtain ⟨tail, rfl⟩ := List.isPrefixOf_iff_prefix.1 hlead
      obtain rfl := Option.some.inj h
      rw [List.drop_left' (by rfl)] at hlength hfields ⊢
      have hchar : ∀ c ∈ tail, c = '.' ∨ isDigit c = true := by
        intro c hc
        have hsplit : ['.'].intercalate (tail.splitOn '.') = tail := List.intercalate_splitOn '.'
        rw [← hsplit] at hc
        rcases mem_intercalate hc with hdot | ⟨field, hfield, hc⟩
        · exact Or.inl hdot
        · have hdigits := (of_decide_eq_true (List.all_eq_true.1 hfields field hfield)).2
          exact Or.inr (List.all_eq_true.1 hdigits c hc)
      refine ⟨rfl, ?_, fun hc => absurd (hchar _ hc) (by decide),
        fun hc => absurd (hchar _ hc) (by decide)⟩
      by_contra hdot
      rw [List.splitOn_eq_singleton hdot] at hlength
      exact (by decide : (1 : ℕ) ≠ 4) hlength
    · cases h
  · cases h

theorem mappedIpv4_none {text : List Char} (h : text.head? ≠ some ':') : mappedIpv4 text = none := by
  cases hmapped : mappedIpv4 text with
  | none => rfl
  | some quadText =>
    rw [(mappedIpv4_eq_some hmapped).1] at h
    exact absurd rfl h

/-- The captured text has no colon: the function does not call itself a second time. -/
theorem isPublicText_mapped {value quadText : List Char} (hversion : isIP value = 6)
    (h : mappedIpv4 (lower value) = some quadText) : isPublicText value = isPublicText quadText := by
  obtain ⟨-, hdot, hcolon, -⟩ := mappedIpv4_eq_some h
  have hvalue : isPublicText value = isPublicIpv4 quadText := by
    rw [lower] at h
    rw [isPublicText, hversion]
    dsimp only
    rw [h]
    rfl
  rw [hvalue, isPublicText]
  cases hquad : dotted quadText with
  | some quad =>
    rw [dotted_isIP hquad]
    rfl
  | none =>
    have hzero : isIP quadText = 0 := by
      cases haddress : address quadText with
      | none => rw [isIP, haddress]
      | some a =>
        cases a with
        | v4 a =>
          rw [address, hquad] at haddress
          obtain ⟨b, -, hb⟩ := Option.map_eq_some_iff.1 haddress
          cases hb
        | v6 a =>
          obtain ⟨piece, rest, hpiece, -⟩ := exists_first_piece haddress
          exact absurd (by rw [hpiece]; simp) hcolon
    rw [hzero, isPublicIpv4, ipv4Bytes, if_pos (by rw [hzero]; decide)]
    rfl

theorem isPublicText_plain {value : List Char} (hversion : isIP value = 6)
    (h : mappedIpv4 (lower value) = none) : isPublicText value = true ↔
      lower value ≠ "::".toList ∧ lower value ≠ "::1".toList ∧
        ∀ lead ∈ refusedPrefixes, ¬ lead <+: lower value := by
  have hvalue : isPublicText value = decide (lower value ≠ "::".toList ∧ lower value ≠ "::1".toList ∧
      (refusedPrefixes.all fun lead => !lead.isPrefixOf (lower value)) = true) := by
    rw [lower] at h ⊢
    rw [isPublicText, hversion]
    dsimp only
    rw [h]
    rfl
  rw [hvalue, decide_eq_true_eq, List.all_eq_true]
  simp only [Bool.not_eq_true', Bool.eq_false_iff, ne_eq, List.isPrefixOf_iff_prefix]

theorem isIP_v6 {value : List Char} {a : V6} (h : address value = some (.v6 a)) : isIP value = 6 := by
  rw [isIP, h]

/-- A refused prefix decides, where the text is not one of a mapped address. -/
theorem refused_of_prefix {value lead : List Char} {a : V6} (h : address value = some (.v6 a))
    (hhead : (lower value).head? ≠ some ':') (hlead : lead ∈ refusedPrefixes)
    (hbegins : lead <+: lower value) : isPublicText value = false :=
  Bool.eq_false_iff.2 fun hpublic =>
    ((isPublicText_plain (isIP_v6 h) (mappedIpv4_none hhead)).1 hpublic).2.2 lead hlead hbegins

/-! ### The first group in a text -/

def firstGroup (a : V6) : ℕ := a.parts.headD 0

/-- The blocks fc00::/7, fe80::/10 and ff00::/8: their addresses have a first group of four digits in
    every text. -/
def RefusedFirst (group : ℕ) : Prop :=
  (0xfc00 ≤ group ∧ group ≤ 0xfdff) ∨ (0xfe80 ≤ group ∧ group ≤ 0xfebf) ∨ 0xff00 ≤ group

/-- The groups that begin like those as soon as their leading zeros are left out. -/
def abbreviated : List ℕ :=
  [0xfc, 0xfd, 0xff] ++ List.range' 0xfc0 0x20 ++ List.range' 0xfe8 0x4 ++ List.range' 0xff0 0x10

theorem firstGroup_eq {a : V6} {group : ℕ} {others : List ℕ} (h : a.parts = group :: others) :
    firstGroup a = group := by
  rw [firstGroup, h, List.headD_cons]

theorem firstGroup_lt (a : V6) : firstGroup a < 2 ^ 16 := by
  obtain ⟨parts, hlength, hbounded⟩ := a
  match parts, hlength with
  | first :: _, _ => exact hbounded first List.mem_cons_self

/-- Where a text begins with a digit, its first group does. -/
theorem exists_firstGroup {text : List Char} {a : V6} (h : address text = some (.v6 a))
    (hhead : text.head? ≠ some ':') :
    ∃ piece rest, text = piece ++ ':' :: rest ∧ hexGroup piece = some (firstGroup a) := by
  obtain ⟨piece, rest, htext, hcolon, hpercent, -⟩ := exists_first_piece h
  have hne : piece ≠ [] := by
    rintro rfl
    exact hhead (by rw [htext]; rfl)
  obtain ⟨first, others, hfirst, hparts⟩ := address_begins [piece] rest h
    (List.cons_ne_nil _ _) (by simpa using ⟨hne, hcolon, hpercent⟩)
    (by rw [List.intercalate_singleton]; exact htext)
  rw [List.mapM_cons] at hfirst
  obtain ⟨group, hgroup, hfirst⟩ := Option.bind_eq_some_iff.1 hfirst
  obtain rfl := Option.some.inj hfirst
  exact ⟨piece, rest, htext, by rw [hgroup, firstGroup_eq hparts]⟩

/-- A prefix without a colon is one of the first piece. -/
theorem prefix_of_piece {lead piece rest : List Char} (hcolon : ':' ∉ lead)
    (h : lead <+: piece ++ ':' :: rest) : lead <+: piece := by
  rcases List.prefix_or_prefix_of_prefix h (List.prefix_append piece _) with hlead | ⟨more, rfl⟩
  · exact hlead
  · cases more with
    | nil =>
      exact ⟨[], by rw [List.append_nil, List.append_nil]⟩
    | cons c more =>
      have hc : c = ':' := (List.cons_prefix_cons.1 ((List.prefix_append_right_inj _).1 h)).1
      exact absurd (by rw [hc]; simp) hcolon

/-- The refused prefixes of a first group. -/
def groupPrefixes : List (List Char) := ["fe8", "fe9", "fea", "feb", "fc", "fd", "ff"].map String.toList

theorem refusedPrefixes_cases {lead : List Char} (h : lead ∈ refusedPrefixes) :
    (lead ∈ groupPrefixes ∧ ':' ∉ lead) ∨ lead = "2001:".toList ++ "db8".toList ++ [':'] ∨
      lead = "2001:".toList ++ "10".toList ++ [':'] := by
  have hall : ∀ lead ∈ refusedPrefixes, (lead ∈ groupPrefixes ∧ ':' ∉ lead) ∨
      lead = "2001:".toList ++ "db8".toList ++ [':'] ∨
      lead = "2001:".toList ++ "10".toList ++ [':'] := by decide
  exact hall lead h

/-- What a refused prefix says of the first group. -/
theorem refused_of_begins {group : ℕ} {piece lead : List Char} (h : hexGroup piece = some group)
    (hlead : lead ∈ groupPrefixes) (hbegins : lead <+: piece) :
    RefusedFirst group ∨ (piece.length < 4 ∧ group ∈ abbreviated) := by
  obtain ⟨more, hmore, hvalue⟩ := hexGroup_begins h hbegins
  have hlength := (hexGroup_eq_some.1 h).1.2.1
  have hmem : group ∈ abbreviated ↔ (group = 0xfc ∨ group = 0xfd ∨ group = 0xff) ∨
      (0xfc0 ≤ group ∧ group < 0xfe0) ∨ (0xfe8 ≤ group ∧ group < 0xfec) ∨
      (0xff0 ≤ group ∧ group < 0x1000) := by
    simp [abbreviated, List.mem_range'_1, or_assoc]
  have hvalues : ∀ lead ∈ groupPrefixes,
      (lead.length = 3 ∧ 0xfe8 ≤ numeral 16 lead ∧ numeral 16 lead ≤ 0xfeb) ∨
      (lead.length = 2 ∧ numeral 16 lead ∈ [0xfc, 0xfd, 0xff]) := by decide
  rw [hmem, RefusedFirst]
  rcases hvalues lead hlead with ⟨hlead, hlow, hhigh⟩ | ⟨hlead, hvalues⟩
  · obtain rfl | rfl : more = 0 ∨ more = 1 := by omega
    · omega
    · omega
  · simp only [List.mem_cons, List.not_mem_nil, or_false] at hvalues
    obtain rfl | rfl | rfl : more = 0 ∨ more = 1 ∨ more = 2 := by omega
    · omega
    · omega
    · omega

/-! ### The answers for an address -/

theorem lower_lower (text : List Char) : lower (lower text) = lower text := by
  rw [lower, lower, List.map_map]
  exact List.map_congr_left fun c _ =>
    lower_eq_of Char.toLower (fun n hlow hhigh => by interval_cases n <;> decide) c

theorem fourDigits_refused {group : ℕ} (h : RefusedFirst group) (hlt : group < 2 ^ 16) :
    ∃ lead ∈ refusedPrefixes, lead <+: fourDigits group := by
  have h3 : group / 4096 = 15 := by
    rw [RefusedFirst] at h
    omega
  have h2 : (group / 256 % 16 = 12 ∨ group / 256 % 16 = 13 ∨ group / 256 % 16 = 15) ∨
      group / 256 % 16 = 14 ∧ (group / 16 % 16 = 8 ∨ group / 16 % 16 = 9 ∨ group / 16 % 16 = 10 ∨
        group / 16 % 16 = 11) := by
    rw [RefusedFirst] at h
    omega
  rw [fourDigits, h3]
  rcases h2 with (h2 | h2 | h2) | ⟨h2, h1 | h1 | h1 | h1⟩
  · exact ⟨"fc".toList, by decide, by rw [h2]; exact ⟨[_, _], rfl⟩⟩
  · exact ⟨"fd".toList, by decide, by rw [h2]; exact ⟨[_, _], rfl⟩⟩
  · exact ⟨"ff".toList, by decide, by rw [h2]; exact ⟨[_, _], rfl⟩⟩
  · exact ⟨"fe8".toList, by decide, by rw [h2, h1]; exact ⟨[_], rfl⟩⟩
  · exact ⟨"fe9".toList, by decide, by rw [h2, h1]; exact ⟨[_], rfl⟩⟩
  · exact ⟨"fea".toList, by decide, by rw [h2, h1]; exact ⟨[_], rfl⟩⟩
  · exact ⟨"feb".toList, by decide, by rw [h2, h1]; exact ⟨[_], rfl⟩⟩

/-- A first group of four refused digits is refused in every text. -/
theorem refused_of_firstGroup {value : List Char} {a : V6} (h : address value = some (.v6 a))
    (hfirst : RefusedFirst (firstGroup a)) : isPublicText value = false := by
  have hlower : address (lower value) = some (.v6 a) := (address_lower value).trans h
  obtain ⟨piece, rest, htext, hcolon, -, hzero⟩ := exists_first_piece hlower
  have hlarge : 0x1000 ≤ firstGroup a := by
    rw [RefusedFirst] at hfirst
    omega
  have hhead : (lower value).head? ≠ some ':' := by
    cases piece with
    | nil =>
      have hgroup := hzero rfl
      rw [firstGroup] at hlarge
      cases hparts : a.parts with
      | nil => rw [hparts] at hgroup; cases hgroup
      | cons first others =>
        rw [hparts] at hgroup hlarge
        obtain rfl := Option.some.inj hgroup
        rw [List.headD_cons] at hlarge
        exact absurd hlarge (by decide)
    | cons c piece =>
      rw [htext]
      rintro hc
      exact hcolon (by rw [Option.some.inj hc]; exact List.mem_cons_self)
  obtain ⟨piece, rest, htext, hgroup⟩ := exists_firstGroup hlower hhead
  have hpiece : lower piece = piece := by
    have hsame := lower_lower value
    rw [htext, lower, List.map_append] at hsame
    exact (List.append_inj hsame (List.length_map _)).1
  have hdigits := hexGroup_eq_fourDigits hgroup hlarge hpiece
  obtain ⟨lead, hlead, hbegins⟩ := fourDigits_refused hfirst (firstGroup_lt a)
  rw [← hdigits] at hbegins
  exact refused_of_prefix h hhead hlead (hbegins.trans (by rw [htext]; exact List.prefix_append _ _))

/-- The text of an address with all its leading zeros. -/
def longText (a : V6) : List Char := [':'].intercalate (a.parts.map fourDigits)

theorem address_longText (a : V6) : address (longText a) = some (.v6 a) :=
  address_intercalate (mapM_map fun group hgroup => hexGroup_fourDigits (a.bounded group hgroup))

theorem digitChar_lower (n : ℕ) : n.digitChar.toLower = n.digitChar ∧ n.digitChar ≠ ':' := by
  by_cases h : n < 16
  · interval_cases n <;> decide
  · rw [Nat.digitChar_eq_star.2 (not_lt.1 h)]
    decide

theorem lower_longText (a : V6) : lower (longText a) = longText a := by
  rw [lower]
  refine (List.map_congr_left fun c hc => ?_).trans (List.map_id _)
  rcases mem_intercalate hc with rfl | ⟨piece, hpiece, hc⟩
  · rfl
  · obtain ⟨group, -, rfl⟩ := List.mem_map.1 hpiece
    obtain ⟨n, -, rfl⟩ := List.mem_map.1 hc
    exact (digitChar_lower n).1

/-- A refused first group apart, the long text of an address is never refused. -/
theorem public_longText {a : V6} (h : ¬ RefusedFirst (firstGroup a)) :
    isPublicText (longText a) = true := by
  have haddress := address_longText a
  obtain ⟨first, others, hparts⟩ : ∃ first others, a.parts = first :: others :=
    List.exists_cons_of_ne_nil fun hnil => by
      have hlength := a.length_eq
      rw [hnil] at hlength
      cases hlength
  have hhead : (longText a).head? ≠ some ':' := by
    have htext : ∃ rest, longText a = (first / 4096).digitChar :: rest := by
      rw [longText, hparts, List.map_cons]
      cases others with
      | nil => exact ⟨_, rfl⟩
      | cons next others => exact ⟨_, rfl⟩
    obtain ⟨rest, htext⟩ := htext
    rw [htext]
    exact fun hc => (digitChar_lower _).2 (Option.some.inj hc)
  have hsplit : (longText a).splitOn ':' = a.parts.map fourDigits := by
    refine List.splitOn_intercalate ':' ?_ (by rw [hparts]; exact List.cons_ne_nil _ _)
    intro piece hpiece hc
    obtain ⟨group, -, rfl⟩ := List.mem_map.1 hpiece
    obtain ⟨n, -, hn⟩ := List.mem_map.1 hc
    exact (digitChar_lower n).2 hn
  have hlong : ∀ piece ∈ (longText a).splitOn ':', ¬ piece.length < 4 := by
    intro piece hmem
    obtain ⟨group, -, rfl⟩ := List.mem_map.1 (hsplit ▸ hmem)
    exact lt_irrefl 4
  -- a prefix that ends at its second colon would be two pieces, and the second one is too short
  have hpair : ∀ second, second.length < 4 → ':' ∉ second →
      ¬ "2001:".toList ++ second ++ [':'] <+: longText a := by
    rintro second hshort hcolon ⟨rest, hrest⟩
    have hpieces : (longText a).splitOn ':' = "2001".toList :: second :: rest.splitOn ':' := by
      rw [← hrest, show "2001:".toList ++ second ++ [':'] ++ rest =
          "2001".toList ++ ':' :: (second ++ ':' :: rest) by simp,
        List.splitOn_append_cons_self_of_not_mem (by decide),
        List.splitOn_append_cons_self_of_not_mem hcolon]
    exact hlong second (by rw [hpieces]; simp) hshort
  have hmapped : mappedIpv4 (lower (longText a)) = none := by
    rw [lower_longText]
    exact mappedIpv4_none hhead
  refine (isPublicText_plain (isIP_v6 haddress) hmapped).2 ?_
  rw [lower_longText]
  refine ⟨fun heq => hhead (by rw [heq]; rfl), fun heq => hhead (by rw [heq]; rfl), ?_⟩
  intro lead hlead hbegins
  rcases refusedPrefixes_cases hlead with ⟨hlead, hcolon⟩ | rfl | rfl
  · obtain ⟨piece, rest, htext, hgroup⟩ := exists_firstGroup haddress hhead
    have hpiece : lead <+: piece := prefix_of_piece hcolon (htext ▸ hbegins)
    rcases refused_of_begins hgroup hlead hpiece with hrefused | ⟨hshort, -⟩
    · exact h hrefused
    · refine absurd hshort (hlong piece ?_)
      rw [htext, List.splitOn_append_cons_self_of_not_mem (hexGroup_chars hgroup).1]
      exact List.mem_cons_self
  · exact hpair _ (by decide) (by decide) hbegins
  · exact hpair _ (by decide) (by decide) hbegins

/-- Where nothing speaks against an address, none of its texts is refused. -/
theorem public_of_address {value : List Char} {a : V6} (h : address value = some (.v6 a))
    (hspecial : ¬ Special (.v6 a)) (hmapped : ∀ quad, Mapped a quad → quad.inBlock ⟨[192, 0], 16⟩ = false)
    (hfirst : ¬ RefusedFirst (firstGroup a)) (hshort : firstGroup a ∉ abbreviated) :
    isPublicText value = true := by
  have hlower : address (lower value) = some (.v6 a) := (address_lower value).trans h
  have hblock : ∀ block ∈ specialV6, a.inBlock block = false := fun block hmem =>
    Bool.eq_false_iff.2 fun hin => hspecial (Or.inl ⟨block, hmem, hin⟩)
  cases hquad : mappedIpv4 (lower value) with
  | some quadText =>
    obtain ⟨htext, hdot, hcolon, hpercent⟩ := mappedIpv4_eq_some hquad
    obtain ⟨quad, hdotted, hsame⟩ := address_mapped hdot hcolon hpercent (htext ▸ hlower)
    rw [isPublicText_mapped (isIP_v6 h) hquad, isPublicText, dotted_isIP hdotted]
    dsimp only
    rw [isPublicIpv4_of_dotted hdotted]
    exact (publicBytes_iff quad).2 ⟨fun hin => hspecial (Or.inr ⟨quad, hsame, hin⟩), hmapped quad hsame⟩
  | none =>
    refine (isPublicText_plain (isIP_v6 h) hquad).2 ⟨fun heq => ?_, fun heq => ?_, ?_⟩
    · rw [heq, show address "::".toList = some (.v6 ⟨[0, 0, 0, 0, 0, 0, 0, 0], rfl, by decide⟩) by
        decide] at hlower
      obtain rfl := Address.v6.inj (Option.some.inj hlower)
      exact absurd (hblock ⟨[0, 0, 0, 0, 0, 0, 0, 0], 128⟩ (by simp [specialV6])) (by decide)
    · rw [heq, show address "::1".toList = some (.v6 ⟨[0, 0, 0, 0, 0, 0, 0, 1], rfl, by decide⟩) by
        decide] at hlower
      obtain rfl := Address.v6.inj (Option.some.inj hlower)
      exact absurd (hblock ⟨[0, 0, 0, 0, 0, 0, 0, 1], 128⟩ (by simp [specialV6])) (by decide)
    · intro lead hlead hbegins
      have hpair : ∀ second group, hexGroup second = some group →
          "2001:".toList ++ second ++ [':'] <+: lower value →
          ∃ others, a.parts = 0x2001 :: group :: others := by
        rintro second group hgroup ⟨rest, hrest⟩
        have hchars := hexGroup_chars hgroup
        have hne := (hexGroup_eq_some.1 hgroup).1.1
        have htext : lower value = [':'].intercalate ["2001".toList, second] ++ ':' :: rest := by
          rw [← hrest, List.intercalate_cons_cons, List.intercalate_singleton]
          simp
        obtain ⟨first, others, hpieces, hparts⟩ := address_begins ["2001".toList, second] rest hlower
          (List.cons_ne_nil _ _) (by simpa using ⟨hne, hchars.1, hchars.2.2⟩) htext
        rw [List.mapM_cons, List.mapM_cons, hgroup,
          show hexGroup "2001".toList = some 0x2001 by decide] at hpieces
        obtain rfl := Option.some.inj hpieces
        exact ⟨others, hparts⟩
      rcases refusedPrefixes_cases hlead with ⟨hlead, hcolon⟩ | rfl | rfl
      · have hhead : (lower value).head? ≠ some ':' := by
          obtain ⟨rest, hrest⟩ := hbegins
          have hstart : ∀ lead ∈ groupPrefixes, lead ≠ [] ∧ lead.head? ≠ some ':' := by decide
          obtain ⟨hne, hnot⟩ := hstart lead hlead
          obtain ⟨c, tail, rfl⟩ := List.exists_cons_of_ne_nil hne
          rw [← hrest]
          exact hnot
        obtain ⟨piece, rest, htext, hgroup⟩ := exists_firstGroup hlower hhead
        rcases refused_of_begins hgroup hlead (prefix_of_piece hcolon (htext ▸ hbegins)) with
          hrefused | ⟨-, hmem⟩
        · exact hfirst hrefused
        · exact hshort hmem
      · obtain ⟨others, hparts⟩ := hpair _ 0xdb8 (by decide) hbegins
        have hin := hblock ⟨[0x2001, 0xdb8], 32⟩ (by simp [specialV6])
        rw [Parts.inBlock, hparts] at hin
        exact absurd hin (by simp [sharesBits])
      · obtain ⟨others, hparts⟩ := hpair _ 0x10 (by decide) hbegins
        have hin := hblock ⟨[0x2001, 0x10], 28⟩ (by simp [specialV6])
        rw [Parts.inBlock, hparts] at hin
        exact absurd hin (by simp [sharesBits])

/-- A first group with leading zeros has a shorter text, which is refused. -/
theorem refused_abbreviated {a : V6} (h : firstGroup a ∈ abbreviated) :
    ∃ value, address value = some (.v6 a) ∧ isPublicText value = false := by
  have hdigits : ∀ group ∈ abbreviated, hexGroup (Nat.toDigits 16 group) = some group ∧
      (∃ lead ∈ refusedPrefixes, lead.isPrefixOf (lower (Nat.toDigits 16 group)) = true) ∧
      (lower (Nat.toDigits 16 group)).head? ≠ none ∧
      (lower (Nat.toDigits 16 group)).head? ≠ some ':' := by decide
  obtain ⟨hgroup, ⟨lead, hlead, hbegins⟩, hsome, hcolon⟩ := hdigits _ h
  obtain ⟨next, others, hparts⟩ : ∃ next others, a.parts = firstGroup a :: next :: others := by
    obtain ⟨parts, hlength, hbounded⟩ := a
    match parts, hlength with
    | first :: next :: others, _ => exact ⟨next, others, rfl⟩
  have hbounded := a.bounded
  have haddress : address ([':'].intercalate
      (Nat.toDigits 16 (firstGroup a) :: (next :: others).map fourDigits)) = some (.v6 a) := by
    refine address_intercalate ?_
    have hothers : ∀ group ∈ next :: others, hexGroup (fourDigits group) = some group := fun group hmem =>
      hexGroup_fourDigits (hbounded group (by rw [hparts]; exact List.mem_cons_of_mem _ hmem))
    rw [List.mapM_cons, hgroup, mapM_map hothers, hparts]
    rfl
  refine ⟨_, haddress, refused_of_prefix haddress ?_ hlead ?_⟩
  · rw [List.map_cons, List.intercalate_cons_cons, lower, List.map_append, List.map_append]
    rw [lower] at hsome hcolon
    cases hlead : (Nat.toDigits 16 (firstGroup a)).map Char.toLower with
    | nil => exact absurd (by rw [hlead]; rfl) hsome
    | cons c tail =>
      rw [hlead] at hcolon
      exact hcolon
  · rw [List.map_cons, List.intercalate_cons_cons, lower, List.map_append, List.map_append,
      List.append_assoc]
    exact (List.isPrefixOf_iff_prefix.1 hbegins).trans (List.prefix_append _ _)

/-- A mapped address with a quad at its end is answered as the quad is. -/
theorem answer_mapped {quadText : List Char} {quad : V4} {a : V6} (h : dotted quadText = some quad)
    (ha : Mapped a quad) : isPublicText ("::ffff:".toList ++ quadText) = publicBytes quad.parts := by
  obtain ⟨-, hchars⟩ := dotted_chars h
  have hlower : lower ("::ffff:".toList ++ quadText) = "::ffff:".toList ++ quadText := by
    rw [lower, List.map_append]
    refine congrArg₂ _ (by decide) ((List.map_congr_left fun c hc => ?_).trans (List.map_id _))
    rcases toLower_cases c with hsame | ⟨n, hlow, hhigh, rfl⟩
    · exact hsame
    · rcases hchars _ hc with hc | hc <;> interval_cases n <;> exact absurd hc (by decide)
  have hmapped : mappedIpv4 (lower ("::ffff:".toList ++ quadText)) = some quadText := by
    obtain ⟨bytes, hbytes, hquad⟩ := Option.bind_eq_some_iff.1 h
    obtain rfl := ofList?_eq_some.1 hquad
    rw [hlower, mappedIpv4, if_pos (List.isPrefixOf_iff_prefix.2 (List.prefix_append _ _))]
    dsimp only
    rw [List.drop_left' (by rfl), if_pos]
    refine ⟨?_, List.all_eq_true.2 fun field hfield => decide_eq_true ?_⟩
    · rw [← quad.length_eq, ← mapM_decimalByte hbytes, List.length_map]
    · exact mapM_decimalByte_mem hbytes field hfield
  rw [isPublicText_mapped (isIP_v6 (mapped_address h ha)) hmapped, isPublicText, dotted_isIP h]
  exact isPublicIpv4_of_dotted h

/-! ### The answers of all texts -/

/-- Every text of the address is answered alike, and if the address is special, with `false`. -/
def Answered (a : Address) : Prop :=
  (∀ value value' : String, address value.toList = some a → address value'.toList = some a →
    isPublicThreatIntelIp value = isPublicThreatIntelIp value') ∧
  (Special a → ∀ value : String, address value.toList = some a → isPublicThreatIntelIp value = false)

/-- The first group is refused in every text, or nothing speaks against the address and none of its
    texts begins like one that is refused. -/
def Steady : Address → Prop
  | .v4 _ => True
  | .v6 a => RefusedFirst (firstGroup a) ∨
      (¬ Special (.v6 a) ∧ (∀ quad, Mapped a quad → quad.inBlock ⟨[192, 0], 16⟩ = false) ∧
        firstGroup a ∉ abbreviated)

theorem answer_v4 {value : List Char} {quad : V4} (h : address value = some (.v4 quad)) :
    isPublicText value = publicBytes quad.parts := by
  rw [address] at h
  cases hdotted : dotted value with
  | none =>
    rw [hdotted] at h
    obtain ⟨a, -, ha⟩ := Option.map_eq_some_iff.1 h
    cases ha
  | some quad' =>
    rw [hdotted] at h
    obtain rfl := Address.v4.inj (Option.some.inj h)
    rw [isPublicText, dotted_isIP hdotted]
    exact isPublicIpv4_of_dotted hdotted

/-- The test answers for the address exactly where the address is steady. -/
theorem answered_iff_steady (a : Address) : Answered a ↔ Steady a := by
  cases a with
  | v4 quad =>
    refine ⟨fun _ => trivial, fun _ => ⟨fun value value' h h' => ?_, fun hspecial value h => ?_⟩⟩
    · exact (answer_v4 h).trans (answer_v4 h').symm
    · refine Bool.eq_false_iff.2 fun hpublic => ?_
      exact ((publicBytes_iff quad).1 ((answer_v4 h).symm.trans hpublic)).1 hspecial
  | v6 a =>
    constructor
    · rintro ⟨hsame, hrefused⟩
      refine or_iff_not_imp_left.2 fun hfirst => ?_
      have hlong : address (String.ofList (longText a)).toList = some (.v6 a) := by
        rw [String.toList_ofList]
        exact address_longText a
      have hpublic : isPublicThreatIntelIp (String.ofList (longText a)) = true := by
        rw [isPublicThreatIntelIp, String.toList_ofList]
        exact public_longText hfirst
      have hall : ∀ value, address value = some (.v6 a) → isPublicText value = true := by
        intro value h
        have hanswer := hsame (String.ofList value) _ (by rw [String.toList_ofList]; exact h) hlong
        rw [isPublicThreatIntelIp, String.toList_ofList] at hanswer
        exact hanswer.trans hpublic
      refine ⟨fun hspecial => ?_, fun quad hmapped => ?_, fun hshort => ?_⟩
      · exact Bool.false_ne_true ((hrefused hspecial _ hlong).symm.trans hpublic)
      · obtain ⟨value, hvalue, hanswer⟩ : ∃ value, address value = some (.v6 a) ∧
            isPublicText value = publicBytes quad.parts :=
          ⟨_, mapped_address (dotted_quadText quad) hmapped, answer_mapped (dotted_quadText quad) hmapped⟩
        exact ((publicBytes_iff quad).1 (hanswer.symm.trans (hall value hvalue))).2
      · obtain ⟨value, hvalue, hanswer⟩ := refused_abbreviated hshort
        exact Bool.false_ne_true (hanswer.symm.trans (hall value hvalue))
    · intro h
      by_cases hfirst : RefusedFirst (firstGroup a)
      · have hanswer : ∀ value : String, address value.toList = some (.v6 a) →
            isPublicThreatIntelIp value = false := fun value h => refused_of_firstGroup h hfirst
        exact ⟨fun value value' h h' => (hanswer value h).trans (hanswer value' h').symm,
          fun _ => hanswer⟩
      · obtain ⟨hspecial, hmapped, hshort⟩ := h.resolve_left hfirst
        have hanswer : ∀ value : String, address value.toList = some (.v6 a) →
            isPublicThreatIntelIp value = true := fun value h =>
          public_of_address h hspecial hmapped hfirst hshort
        exact ⟨fun value value' h h' => (hanswer value h).trans (hanswer value' h').symm,
          fun h => absurd h hspecial⟩

/-- The loopback address `::1`. -/
def loopback : V6 := ⟨[0, 0, 0, 0, 0, 0, 0, 1], rfl, by decide⟩

/-- With all its groups written out, the loopback address may be sent. -/
theorem loopback_not_answered :
    address "::1".toList = some (.v6 loopback) ∧
    address "0:0:0:0:0:0:0:1".toList = some (.v6 loopback) ∧
    isPublicThreatIntelIp "::1" = false ∧ isPublicThreatIntelIp "0:0:0:0:0:0:0:1" = true ∧
    Special (.v6 loopback) ∧ ¬ Answered (.v6 loopback) := by
  have hspecial : Special (.v6 loopback) :=
    Or.inl ⟨⟨[0, 0, 0, 0, 0, 0, 0, 1], 128⟩, by simp [specialV6], by decide⟩
  have hlong : address "0:0:0:0:0:0:0:1".toList = some (.v6 loopback) := by decide
  have hpublic : isPublicThreatIntelIp "0:0:0:0:0:0:0:1" = true := by decide
  exact ⟨by decide, hlong, by decide, hpublic, hspecial,
    fun h => Bool.false_ne_true ((h.2 hspecial _ hlong).symm.trans hpublic)⟩

end HuntWarden.NetworkIoc
