import HuntWarden.Lib.Utf16

/-! Redacted free text on its way into the model's context: what is over the byte budget is cut off, and
    a marker says how long the text was. The cut is by bytes, the text in front of it is read back from
    them, and shortened further as long as it does not fit together with the marker. -/

namespace HuntWarden.Sanitizer

open JsonText Utf16

structure SanitizedText where
  text : Text
  truncated : Bool
  originalBytes : ℕ
  outputBytes : ℕ
  deriving DecidableEq

def ascii (text : String) : Text := text.toList.map fun ch => .ofNat ch.toNat

/-- `\n[TRUNCATED: original=${originalBytes} bytes]` -/
def marker (originalBytes : ℕ) : Text :=
  0x0A :: (ascii "[TRUNCATED: original=" ++ ascii (toString originalBytes) ++ ascii " bytes]")

/-- `while (Buffer.byteLength(output + marker) > maxBytes) output = output.slice(0, -1)`, as far as the
    steps last. -/
def shorten (marker : Text) (maxBytes : ℕ) : ℕ → Text → Option Text
  | 0, _ => none
  | steps + 1, output =>
    if maxBytes < byteLength (output ++ marker) then shorten marker maxBytes steps output.dropLast
    else some output

variable (redactText : Text → Text)

def sanitizeForLlm (input : Text) (maxBytes steps : ℕ) : Option SanitizedText :=
  let text := redactText input
  let originalBytes := byteLength text
  if originalBytes ≤ maxBytes then some ⟨text, false, originalBytes, originalBytes⟩
  else
    let marker := marker originalBytes
    let contentBudget := maxBytes - byteLength marker
    let output := decode ((encode text).take contentBudget)
    (shorten marker maxBytes steps output).map fun output =>
      ⟨output ++ marker, true, originalBytes, byteLength (output ++ marker)⟩

/-! ### Within its bounds -/

/-- What is behind the body of a result. -/
def ending (result : SanitizedText) : Text := if result.truncated then marker result.originalBytes else []

/-- The body is a part of the text from its start, up to a replacement character at the cut. -/
def Shows (redacted : Text) (result : SanitizedText) : Prop :=
  ∃ kept, kept <+: redacted ∧
    (result.text = kept ++ ending result ∨ result.text = kept ++ pointUnits replacementPoint ++ ending result)

/-- The call ends, within the budget, with a part of the redacted text. -/
def Bounded (input : Text) (maxBytes : ℕ) : Prop :=
  ∃ steps result, sanitizeForLlm redactText input maxBytes steps = some result ∧
    byteLength result.text ≤ maxBytes ∧ result.outputBytes = byteLength result.text ∧
    Shows (redactText input) result

/-- The code points in front of the cut. -/
def keptPoints (input : Text) (maxBytes : ℕ) : List ℕ :=
  let text := redactText input
  fitting (maxBytes - byteLength (marker (byteLength text))) (codePoints text)

/-- The replacement of a sequence that is cut through is left standing. -/
def Replaced (input : Text) (maxBytes : ℕ) : Prop :=
  size (keptPoints redactText input maxBytes) + 3 + byteLength (marker (byteLength (redactText input))) ≤ maxBytes

instance (input : Text) (maxBytes : ℕ) : Decidable (Replaced redactText input maxBytes) :=
  inferInstanceAs (Decidable (_ ≤ _))

/-- Either all of the text fits, or the marker does and no lone surrogate is in front of the cut, except
    where the replacement character it is written as is the one at the cut. -/
def Fits (input : Text) (maxBytes : ℕ) : Prop :=
  byteLength (redactText input) ≤ maxBytes ∨
    (byteLength (marker (byteLength (redactText input))) ≤ maxBytes ∧
      ∀ point ∈ if Replaced redactText input maxBytes then keptPoints redactText input maxBytes
        else (keptPoints redactText input maxBytes).dropLast, surrogate point = false)

/-! ### The loop -/

theorem marker_units (bytes : ℕ) : ∃ rest, marker bytes = 0x0A :: rest := ⟨_, rfl⟩

theorem byteLength_marked (text : Text) (bytes : ℕ) :
    byteLength (text ++ marker bytes) = byteLength text + byteLength (marker bytes) := by
  obtain ⟨rest, hmarker⟩ := marker_units bytes
  rw [hmarker]
  exact byteLength_append rfl text rest

/-- With a marker that is over the budget by itself the loop does not end. -/
theorem shorten_stuck {bytes maxBytes : ℕ} (h : maxBytes < byteLength (marker bytes)) :
    ∀ (steps : ℕ) (output : Text), shorten (marker bytes) maxBytes steps output = none
  | 0, _ => rfl
  | steps + 1, output => by
    have hover : maxBytes < byteLength (output ++ marker bytes) := by
      rw [byteLength_marked]
      omega
    rw [shorten, if_pos hover]
    exact shorten_stuck h steps _

/-- What fits is left as it is; what is over by its last unit loses that unit. -/
theorem shorten_fits {bytes maxBytes : ℕ} {output : Text}
    (h : byteLength output + byteLength (marker bytes) ≤ maxBytes) (steps : ℕ) :
    shorten (marker bytes) maxBytes (steps + 1) output = some output := by
  rw [shorten, if_neg (by rw [byteLength_marked]; omega)]

theorem shorten_over {bytes maxBytes : ℕ} {output : Text}
    (h : maxBytes < byteLength output + byteLength (marker bytes)) (steps : ℕ) :
    shorten (marker bytes) maxBytes (steps + 1) output =
      shorten (marker bytes) maxBytes steps output.dropLast := by
  rw [shorten, if_pos (by rw [byteLength_marked]; exact h)]

/-- A loop that has ended is not changed by more steps. -/
theorem shorten_more {marker : Text} {maxBytes : ℕ} {out : Text} (more : ℕ) :
    ∀ {steps : ℕ} {output : Text}, shorten marker maxBytes steps output = some out →
      shorten marker maxBytes (steps + more) output = some out
  | 0, _, h => by cases h
  | steps + 1, output, h => by
    rw [shorten] at h
    rw [Nat.add_right_comm, shorten]
    split at h
    · rename_i hover
      rw [if_pos hover]
      exact shorten_more more h
    · rename_i hfits
      rw [if_neg hfits]
      exact h

theorem shorten_within {marker : Text} {maxBytes : ℕ} {out : Text} : ∀ {steps : ℕ} {output : Text},
    shorten marker maxBytes steps output = some out → byteLength (out ++ marker) ≤ maxBytes
  | 0, _, h => by cases h
  | steps + 1, output, h => by
    rw [shorten] at h
    split at h
    · exact shorten_within h
    · rename_i hfits
      cases h
      exact not_lt.1 hfits

section Cut

variable {redactText} {input : Text} {maxBytes : ℕ}

/-- The code points of the body of a result that was cut. -/
def bodyPoints (redactText : Text → Text) (input : Text) (maxBytes : ℕ) : List ℕ :=
  (keptPoints redactText input maxBytes).map scalar ++
    if Replaced redactText input maxBytes then [replacementPoint] else []

def body (redactText : Text → Text) (input : Text) (maxBytes : ℕ) : Text :=
  (bodyPoints redactText input maxBytes).flatMap pointUnits

theorem keptPoints_lt : ∀ point ∈ keptPoints redactText input maxBytes, point < 0x110000 :=
  fun point hpoint => codePoints_lt _ point ((prefix_of_fitting _ _).subset hpoint)

theorem keptPoints_ne (hover : maxBytes < byteLength (redactText input)) :
    keptPoints redactText input maxBytes ≠ codePoints (redactText input) := by
  intro heq
  have hle := size_fitting_le (codePoints (redactText input))
    (maxBytes - byteLength (marker (byteLength (redactText input))))
  rw [show fitting _ _ = _ from heq, ← byteLength_eq] at hle
  omega

theorem size_kept_le : size (keptPoints redactText input maxBytes) ≤
    maxBytes - byteLength (marker (byteLength (redactText input))) := size_fitting_le _ _

theorem byteLength_whole :
    byteLength ((keptPoints redactText input maxBytes).flatMap fun point => pointUnits (scalar point)) =
      size (keptPoints redactText input maxBytes) := byteLength_scalars keptPoints_lt

theorem body_eq : body redactText input maxBytes =
    ((keptPoints redactText input maxBytes).flatMap fun point => pointUnits (scalar point)) ++
      if Replaced redactText input maxBytes then pointUnits replacementPoint else [] := by
  rw [body, bodyPoints, List.flatMap_append, List.flatMap_map]
  split <;> rfl

/-- What the loop starts from ends, in two steps at most, as the body. -/
theorem shorten_cut (hover : maxBytes < byteLength (redactText input))
    (hmarker : byteLength (marker (byteLength (redactText input))) ≤ maxBytes) (steps : ℕ) :
    shorten (marker (byteLength (redactText input))) maxBytes (steps + 2)
      (decode ((encode (redactText input)).take
        (maxBytes - byteLength (marker (byteLength (redactText input)))))) =
      some (body redactText input maxBytes) := by
  have hle := @size_kept_le redactText input maxBytes
  have hne := keptPoints_ne hover
  have hlength := @byteLength_whole redactText input maxBytes
  have hdecode := decode_take (codePoints (redactText input))
    (maxBytes - byteLength (marker (byteLength (redactText input)))) (codePoints_lt _)
  rw [encode, hdecode, replacementIf, body_eq]
  change shorten _ _ _ ((keptPoints redactText input maxBytes).flatMap _ ++ _) = _
  by_cases hreplaced : Replaced redactText input maxBytes
  · have hsize := hreplaced
    rw [Replaced] at hsize
    rw [if_pos hreplaced, if_pos ⟨show size (keptPoints redactText input maxBytes) < _ by omega, hne⟩]
    exact shorten_fits (by rw [byteLength_replacement, hlength]; exact hsize) _
  · have hsize := hreplaced
    rw [Replaced, not_le] at hsize
    rw [if_neg hreplaced, List.append_nil]
    split
    · rw [shorten_over (by rw [byteLength_replacement, hlength]; exact hsize)]
      rw [show pointUnits replacementPoint = [0xFFFD] from rfl, List.dropLast_concat]
      exact shorten_fits (by rw [hlength]; omega) _
    · rw [List.append_nil]
      exact shorten_fits (by rw [hlength]; omega) _

theorem sanitizeForLlm_over (hover : maxBytes < byteLength (redactText input)) {steps : ℕ} {result : SanitizedText} :
    sanitizeForLlm redactText input maxBytes steps = some result ↔
      ∃ output, shorten (marker (byteLength (redactText input))) maxBytes steps
          (decode ((encode (redactText input)).take
            (maxBytes - byteLength (marker (byteLength (redactText input)))))) = some output ∧
        result = ⟨output ++ marker (byteLength (redactText input)), true, byteLength (redactText input),
          byteLength (output ++ marker (byteLength (redactText input)))⟩ := by
  rw [sanitizeForLlm]
  dsimp only
  rw [if_neg (not_le.2 hover), Option.map_eq_some_iff]
  exact exists_congr fun output => and_congr_right fun _ => eq_comm

/-! ### The body -/

theorem scalar_eq_iff {point : ℕ} : scalar point = point ↔ surrogate point = false := by
  constructor
  · intro h
    exact Bool.eq_false_iff.2 (h ▸ scalar_not_surrogate point)
  · intro h
    rw [scalar, h]
    rfl

theorem map_scalar_eq : ∀ {points : List ℕ},
    points.map scalar = points ↔ ∀ point ∈ points, surrogate point = false
  | [] => by simp
  | point :: points => by
    rw [List.map_cons, List.cons.injEq, scalar_eq_iff, map_scalar_eq, List.forall_mem_cons]

/-- Code points that are read back from a part of a text are themselves a part of it only if they are
    the ones that were written. -/
theorem prefix_map_scalar {written points : List ℕ} (h : written <+: points) :
    written.map scalar <+: points ↔ ∀ point ∈ written, surrogate point = false := by
  rw [← map_scalar_eq]
  constructor
  · intro hread
    exact (List.prefix_of_prefix_length_le hread h (by rw [List.length_map])).eq_of_length (by rw [List.length_map])
  · intro heq
    rw [heq]
    exact h

theorem bodyPoints_plain : ∀ point ∈ bodyPoints redactText input maxBytes,
    ¬ surrogate point = true ∧ point < 0x110000 := by
  intro point hpoint
  rw [bodyPoints] at hpoint
  rcases List.mem_append.1 hpoint with hpoint | hpoint
  · obtain ⟨written, hwritten, rfl⟩ := List.mem_map.1 hpoint
    exact ⟨scalar_not_surrogate written, scalar_lt (keptPoints_lt written hwritten)⟩
  · split at hpoint
    · rw [List.mem_singleton.1 hpoint]
      decide
    · cases hpoint

theorem codePoints_body : codePoints (body redactText input maxBytes) = bodyPoints redactText input maxBytes :=
  codePoints_units bodyPoints_plain

/-- A part of a text that holds no surrogate is a part of its code points. -/
theorem prefix_iff {points : List ℕ} (hpoints : ∀ point ∈ points, ¬ surrogate point = true ∧ point < 0x110000)
    {text : Text} : points.flatMap pointUnits <+: text ↔ points <+: codePoints text := by
  constructor
  · rintro ⟨rest, rfl⟩
    rw [codePoints_units_append rest hpoints]
    exact List.prefix_append _ _
  · rintro ⟨rest, hrest⟩
    rw [← units_codePoints text, ← hrest, List.flatMap_append]
    exact List.prefix_append _ _

/-- The body shows a part of the text exactly when its code points are one, the last of them apart where
    it is a replacement character. -/
theorem shows_body_iff : (∃ kept, kept <+: redactText input ∧
      (body redactText input maxBytes = kept ∨ body redactText input maxBytes = kept ++ pointUnits replacementPoint)) ↔
    bodyPoints redactText input maxBytes <+: codePoints (redactText input) ∨
      ∃ points, bodyPoints redactText input maxBytes = points ++ [replacementPoint] ∧
        points <+: codePoints (redactText input) := by
  constructor
  · rintro ⟨kept, hwritten, rfl | hbody⟩
    · exact Or.inl ((prefix_iff bodyPoints_plain).1 hwritten)
    · have hpoints : bodyPoints redactText input maxBytes = codePoints kept ++ [replacementPoint] := by
        rw [← codePoints_body, hbody]
        exact @codePoints_append 0xFFFD rfl [] kept
      refine Or.inr ⟨codePoints kept, hpoints, (prefix_iff fun point hpoint => ?_).1 ?_⟩
      · exact bodyPoints_plain point (hpoints ▸ List.mem_append_left _ hpoint)
      · rw [units_codePoints]
        exact hwritten
  · rintro (hpoints | ⟨points, hpoints, hwritten⟩)
    · exact ⟨_, (prefix_iff bodyPoints_plain).2 hpoints, Or.inl rfl⟩
    · refine ⟨points.flatMap pointUnits, (prefix_iff fun point hpoint => ?_).2 hwritten, Or.inr ?_⟩
      · exact bodyPoints_plain point (hpoints ▸ List.mem_append_left _ hpoint)
      · rw [body, hpoints, List.flatMap_append]
        rfl

theorem bodyPoints_prefix_iff : (bodyPoints redactText input maxBytes <+: codePoints (redactText input) ∨
      ∃ points, bodyPoints redactText input maxBytes = points ++ [replacementPoint] ∧
        points <+: codePoints (redactText input)) ↔
    ∀ point ∈ if Replaced redactText input maxBytes then keptPoints redactText input maxBytes
      else (keptPoints redactText input maxBytes).dropLast, surrogate point = false := by
  have hkept : keptPoints redactText input maxBytes <+: codePoints (redactText input) := prefix_of_fitting _ _
  rw [bodyPoints]
  by_cases hreplaced : Replaced redactText input maxBytes
  · rw [if_pos hreplaced, if_pos hreplaced, ← prefix_map_scalar hkept]
    constructor
    · rintro (hwritten | ⟨points, hpoints, hwritten⟩)
      · exact (List.prefix_append _ _).trans hwritten
      · rw [(List.append_inj' hpoints rfl).1]
        exact hwritten
    · intro hwritten
      exact Or.inr ⟨_, rfl, hwritten⟩
  · rw [if_neg hreplaced, if_neg hreplaced, List.append_nil]
    have hdrop : (keptPoints redactText input maxBytes).dropLast <+: codePoints (redactText input) :=
      (List.dropLast_prefix _).trans hkept
    rw [← prefix_map_scalar hdrop, List.map_dropLast]
    constructor
    · rintro (hwritten | ⟨points, hpoints, hwritten⟩)
      · exact (List.dropLast_prefix _).trans hwritten
      · rw [hpoints, List.dropLast_concat]
        exact hwritten
    · intro hwritten
      rcases List.eq_nil_or_concat (keptPoints redactText input maxBytes) with hnil | ⟨points, last, heq⟩
      · rw [hnil]
        exact Or.inl List.nil_prefix
      · rw [List.concat_eq_append] at heq
        rw [heq, List.map_append, List.map_singleton, List.dropLast_concat] at hwritten
        rw [heq, List.map_append, List.map_singleton]
        by_cases hlast : surrogate last = true
        · exact Or.inr ⟨points.map scalar, by rw [scalar, if_pos hlast], hwritten⟩
        · have hpoints : points <+: codePoints (redactText input) :=
            (List.prefix_append _ _).trans (heq ▸ hkept)
          have hplain := map_scalar_eq.2 ((prefix_map_scalar hpoints).1 hwritten)
          rw [hplain, scalar, if_neg hlast, ← heq]
          exact Or.inl hkept

end Cut

/-- The call ends with a part of the redacted text within the budget exactly when all of that text is
    within the budget, or the marker is and the text in front of the cut has no lone surrogate. -/
theorem bounded_iff (redactText : Text → Text) (input : Text) (maxBytes : ℕ) :
    Bounded redactText input maxBytes ↔ Fits redactText input maxBytes := by
  by_cases hover : maxBytes < byteLength (redactText input)
  · rw [Fits, or_iff_right (not_le.2 hover)]
    have hending : ∀ output, (∃ kept, kept <+: redactText input ∧ (output ++ marker (byteLength (redactText input)) =
          kept ++ marker (byteLength (redactText input)) ∨
        output ++ marker (byteLength (redactText input)) =
          kept ++ pointUnits replacementPoint ++ marker (byteLength (redactText input)))) ↔
        ∃ kept, kept <+: redactText input ∧ (output = kept ∨ output = kept ++ pointUnits replacementPoint) := by
      intro output
      simp only [List.append_cancel_right_eq]
    constructor
    · rintro ⟨steps, result, hresult, -, -, hshows⟩
      obtain ⟨output, hshorten, rfl⟩ := (sanitizeForLlm_over hover).1 hresult
      have hmarker : byteLength (marker (byteLength (redactText input))) ≤ maxBytes := by
        by_contra hstuck
        rw [shorten_stuck (not_le.1 hstuck)] at hshorten
        cases hshorten
      have hbody : output = body redactText input maxBytes :=
        Option.some.inj ((shorten_more 2 hshorten).symm.trans (shorten_cut hover hmarker steps))
      refine ⟨hmarker, bodyPoints_prefix_iff.1 (shows_body_iff.1 ?_)⟩
      rw [← hbody]
      exact (hending output).1 hshows
    · rintro ⟨hmarker, hplain⟩
      have hcut := shorten_cut hover hmarker 0
      exact ⟨2, _, (sanitizeForLlm_over hover).2 ⟨_, hcut, rfl⟩, shorten_within hcut, rfl,
        (hending _).2 (shows_body_iff.2 (bodyPoints_prefix_iff.2 hplain))⟩
  · have hfits := not_lt.1 hover
    refine iff_of_true ⟨0, ⟨redactText input, false, _, _⟩, if_pos hfits, hfits, rfl, redactText input,
      List.prefix_rfl, Or.inl (List.append_nil _).symm⟩ (Or.inl hfits)

/-- A text without secrets and no budget at all: the loop goes on with the empty text. -/
theorem no_budget_endless : ¬ Bounded (fun text => text) (ascii "a") 0 := by
  rintro ⟨steps, result, hresult, -⟩
  obtain ⟨output, hshorten, -⟩ := (@sanitizeForLlm_over (fun text => text) _ _ (by decide) _ _).1 hresult
  rw [shorten_stuck (by decide)] at hshorten
  cases hshorten

end HuntWarden.Sanitizer
