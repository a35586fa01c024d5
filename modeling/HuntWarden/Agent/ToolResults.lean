import HuntWarden.Common.StableJson
import HuntWarden.Lib.Bisect
import HuntWarden.Lib.Js
import HuntWarden.Lib.OrderedMap
import Mathlib.Algebra.Order.BigOperators.Group.List
import Mathlib.Algebra.Order.Group.Nat

/-! Tool results on their way into the model's context. A result is redacted and written out; what is over
    the byte budget loses the end of its list of items, and says how many are left out and where the next
    page begins. How many are kept is found by bisection, as if more items were always more bytes; where
    not even an empty list fits, a small envelope takes the place of the result. -/

namespace HuntWarden.ToolResults

open StableJson (NumberText stringify)

/-- What belongs to the language runtime and to the redaction of texts. -/
structure Runtime where
  redactText : String → String
  toLowerCase : String → String
  numbers : NumberText

/-! ### Redaction -/

def secretKeySuffixes : List String :=
  ["password", "passwd", "pwd", "secret", "token", "apikey", "authorization", "cookie", "privatekey"]

def redactedMark : String := "[REDACTED]"

variable (r : Runtime)

def isSecretKey (key : String) : Bool :=
  let normalized := (r.toLowerCase key).toList.filter fun ch => !(ch == '_' || ch == '-' || Js.isSpace ch)
  secretKeySuffixes.any fun ending => ending.toList.isSuffixOf normalized

mutual
def redactValue : Json → Json
  | .str text => .str (r.redactText text)
  | .arr items => .arr (redactItems items)
  | .obj fields => .obj (redactFields fields)
  | value => value

def redactItems : List Json → List Json
  | [] => []
  | item :: items => redactValue item :: redactItems items

def redactFields : List (String × Json) → List (String × Json)
  | [] => []
  | (key, value) :: fields =>
    (key, if isSecretKey r key then .str redactedMark else redactValue value) :: redactFields fields
end

/-! ### Encoding within a budget -/

/-- `value` is what the text is the text of. -/
structure BudgetedJson where
  value : Json
  text : List Char
  truncated : Bool
  omitted : ℕ
  originalBytes : ℕ
  outputBytes : ℕ
  overBudget : Bool

/-- `Buffer.byteLength(JSON.stringify(value), "utf8")` -/
def bytesOf (value : Json) : ℕ := JsonDump.bytes (stringify r.numbers value)

def encodeWithinBudget (totalDroppable : ℕ) (rebuild : ℕ → Json) (maxBytes : ℕ) : BudgetedJson :=
  let full := rebuild totalDroppable
  let encoded : Json → Bool → ℕ → Bool → BudgetedJson := fun value truncated omitted overBudget =>
    { value, text := stringify r.numbers value, truncated, omitted, originalBytes := bytesOf r full
      outputBytes := bytesOf r value, overBudget }
  if bytesOf r full ≤ maxBytes then encoded full false 0 false
  else
    match Bisect.search (fun keep => bytesOf r (rebuild keep) ≤ maxBytes) 0 totalDroppable none with
    | none => encoded (rebuild 0) true totalDroppable true
    | some bestKeep => encoded (rebuild bestKeep) true (totalDroppable - bestKeep) false

/-! ### Tool results -/

/-- The fields and the items of a result whose items may be dropped. -/
def droppableItems? (value : Json) : Option (List (String × Json) × List Json) :=
  match value with
  | .obj fields =>
    match fields.lookup "items", fields.lookup "status", fields.lookup "warnings" with
    | some (.arr items), some _, some _ => some (fields, items)
    | _, _, _ => none
  | _ => none

def omissionWarning (omitted total : ℕ) : Json :=
  .str s!"结果超出模型文本预算：共 {total} 项，已省略末尾 {omitted} 项；事实仍在 Model Fact Plane，可用 query_facts 查询，省略不代表不存在。"

/-- `{ ...fields, [name]: value }` -/
def assign (name : String) (value : Json) (fields : List (String × Json)) : List (String × Json) :=
  OrderedMap.upsert name (fun _ => value) fields

/-- The offset of the summary of a page. -/
def pageOffset? (summary : Json) : Option ℚ :=
  match summary with
  | .obj fields =>
    match fields.lookup "offset", fields.lookup "returned" with
    | some (.num offset), some (.num _) => if offset.den = 1 then some offset else none
    | _, _ => none
  | _ => none

def adjustPaginationSummary (summary : Json) (keep : ℕ) : Json :=
  match summary, pageOffset? summary with
  | .obj fields, some offset =>
    let nextOffset := offset + keep
    let page := assign "nextOffset" (.num nextOffset) (assign "returned" (.num keep) fields)
    match fields.lookup "total" with
    | some (.num total) => .obj (assign "remaining" (.num (max 0 (total - nextOffset))) page)
    | _ => .obj page
  | summary, _ => summary

/-- The summary of a result with the fields, for so many items. -/
def adjustSummary (keep : ℕ) (fields : List (String × Json)) : List (String × Json) :=
  match fields.lookup "summary" with
  | some summary => assign "summary" (adjustPaginationSummary summary keep) fields
  | none => fields

def baseWarnings (fields : List (String × Json)) : List Json :=
  match fields.lookup "warnings" with
  | some (.arr warnings) => warnings
  | _ => []

/-- The result with the first items only. -/
def rebuild (fields : List (String × Json)) (items : List Json) (keep : ℕ) : Json :=
  if keep = items.length then .obj fields
  else
    let omitted := items.length - keep
    .obj (assign "warnings" (.arr (baseWarnings fields ++ [omissionWarning omitted items.length]))
      (assign "itemsOmitted" (.num omitted) (assign "items" (.arr (items.take keep))
        (adjustSummary keep (assign "status" (.str "partial") fields)))))

/-- The envelope in the place of a result. -/
def envelope (itemsOmitted : List (String × Json)) (total : ℕ) : Json :=
  .obj ([("status", Json.str "partial"), ("summary", .obj [("note", .str "结果摘要超出模型文本预算，未进入模型上下文")]),
    ("items", .arr [])] ++ itemsOmitted ++
      [("artifactRefs", Json.arr []), ("warnings", .arr [omissionWarning total total])])

def serializeToolResultForLlm (details : Json) (maxBytes : ℕ) : BudgetedJson :=
  let redacted := redactValue r details
  match droppableItems? redacted with
  | none =>
    let encoded := encodeWithinBudget r 0 (fun _ => redacted) maxBytes
    if encoded.overBudget then encodeWithinBudget r 0 (fun _ => envelope [] 0) maxBytes else encoded
  | some (fields, items) =>
    let encoded := encodeWithinBudget r items.length (rebuild fields items) maxBytes
    if encoded.overBudget then
      encodeWithinBudget r 0
        (fun _ => envelope [("itemsOmitted", .num items.length)] items.length) maxBytes
    else encoded

/-! ### What a text shows -/

def itemsOf (value : Json) : List Json :=
  match value with
  | .obj fields =>
    match fields.lookup "items" with
    | some (.arr items) => items
    | _ => []
  | _ => []

def summaryOf (fields : List (String × Json)) : Json := (fields.lookup "summary").getD .null

def nextOffsetOf (value : Json) : Option ℚ :=
  match value with
  | .obj fields =>
    match summaryOf fields with
    | .obj summary =>
      match summary.lookup "nextOffset" with
      | some (.num next) => some next
      | _ => none
    | _ => none
  | _ => none

/-- The text is the text of the value, within the budget or marked. -/
structure Bounded (maxBytes : ℕ) (result : BudgetedJson) : Prop where
  written : result.text = stringify r.numbers result.value
  bytes : result.outputBytes = JsonDump.bytes result.text
  fits : result.outputBytes ≤ maxBytes ∨ result.overBudget = true

/-- The result with so many items fits. -/
def fits (fields : List (String × Json)) (items : List Json) (maxBytes keep : ℕ) : Bool :=
  bytesOf r (rebuild fields items keep) ≤ maxBytes

/-- The longest fitting list of first items is shown, the others are counted, and a page that is cut goes
    on behind the items that it shows, which are some. -/
structure Honest (fields : List (String × Json)) (items : List Json) (maxBytes : ℕ) (result : BudgetedJson)
    (keep : ℕ) : Prop where
  shown : itemsOf result.value = items.take keep
  within : keep ≤ items.length
  longest : ∀ k ≤ items.length, fits r fields items maxBytes k = true → k ≤ keep
  counted : keep + result.omitted = items.length
  next : keep < items.length → ∀ offset ∈ pageOffset? (summaryOf fields),
    nextOffsetOf result.value = some (offset + keep) ∧ 0 < keep

/-- The result fits, or has no items, or some first items fit, fewer than all, and so does every shorter list
    that is tried on the way to the longest; on a page the longest is not empty. -/
def LongestFound (fields : List (String × Json)) (items : List Json) (maxBytes : ℕ) : Prop :=
  bytesOf r (.obj fields) ≤ maxBytes ∨ items = [] ∨
    ∃ keep, Bisect.Largest (fits r fields items maxBytes) items.length keep ∧
      (∀ m ∈ Bisect.probes keep 0 items.length, m ≤ keep → fits r fields items maxBytes m = true) ∧
      ((pageOffset? (summaryOf fields)).isSome → 0 < keep)

variable {r} {fields : List (String × Json)} {items : List Json} {maxBytes keep : ℕ}

/-! ### Within the budget -/

theorem bounded_encode (total : ℕ) (build : ℕ → Json) :
    Bounded r maxBytes (encodeWithinBudget r total build maxBytes) := by
  rw [encodeWithinBudget]
  by_cases hfull : bytesOf r (build total) ≤ maxBytes
  · rw [if_pos hfull]
    exact ⟨rfl, rfl, Or.inl hfull⟩
  · rw [if_neg hfull]
    cases hsearch : Bisect.search (fun keep => bytesOf r (build keep) ≤ maxBytes) 0 total none with
    | none => exact ⟨rfl, rfl, Or.inr rfl⟩
    | some best =>
      rcases Bisect.search_mem hsearch with hnone | ⟨-, -, hfits⟩
      · cases hnone
      · exact ⟨rfl, rfl, Or.inl (of_decide_eq_true hfits)⟩

/-- Every text is within the budget or marked. -/
theorem bounded_serialize (details : Json) : Bounded r maxBytes (serializeToolResultForLlm r details maxBytes) := by
  rw [serializeToolResultForLlm]
  cases droppableItems? (redactValue r details) with
  | none =>
    dsimp only
    split <;> exact bounded_encode _ _
  | some found =>
    obtain ⟨fields, items⟩ := found
    dsimp only
    split <;> exact bounded_encode _ _

/-! ### What is kept -/

theorem lookup_assign (name q : String) (value : Json) (fields : List (String × Json)) :
    (assign name value fields).lookup q = if q = name then some value else fields.lookup q :=
  OrderedMap.lookup_upsert name q _ fields

theorem items_of_droppable {value : Json} (h : droppableItems? value = some (fields, items)) :
    value = .obj fields ∧ fields.lookup "items" = some (.arr items) := by
  cases value with
  | obj given =>
    rw [droppableItems?] at h
    split at h
    · next hitems _ _ =>
      obtain ⟨rfl, rfl⟩ := Prod.mk.inj (Option.some.inj h)
      exact ⟨rfl, hitems⟩
    · cases h
  | _ => cases h

theorem itemsOf_obj (h : fields.lookup "items" = some (.arr items)) : itemsOf (.obj fields) = items := by
  rw [itemsOf, h]

/-- A result that is cut shows the items that are kept. -/
theorem itemsOf_rebuild (h : keep < items.length) : itemsOf (rebuild fields items keep) = items.take keep := by
  rw [rebuild, if_neg (Nat.ne_of_lt h)]
  refine itemsOf_obj ?_
  rw [lookup_assign, if_neg (by decide), lookup_assign, if_neg (by decide), lookup_assign, if_pos rfl]

theorem summary_rebuild (h : keep < items.length) {summary : Json} (hsummary : fields.lookup "summary" = some summary) :
    ∃ cut, rebuild fields items keep = .obj cut ∧
      cut.lookup "summary" = some (adjustPaginationSummary summary keep) := by
  rw [rebuild, if_neg (Nat.ne_of_lt h)]
  refine ⟨_, rfl, ?_⟩
  have hstatus : (assign "status" (.str "partial") fields).lookup "summary" = some summary := by
    rw [lookup_assign, if_neg (by decide), hsummary]
  rw [lookup_assign, if_neg (by decide), lookup_assign, if_neg (by decide), lookup_assign,
    if_neg (by decide), adjustSummary, hstatus]
  exact (lookup_assign ..).trans (if_pos rfl)

theorem next_adjusted {summary : Json} {offset : ℚ} (h : pageOffset? summary = some offset) :
    ∃ page, adjustPaginationSummary summary keep = .obj page ∧
      page.lookup "nextOffset" = some (.num (offset + keep)) := by
  cases summary with
  | obj fields =>
    rw [adjustPaginationSummary.eq_def]
    dsimp only
    rw [h]
    dsimp only
    split
    · refine ⟨_, rfl, ?_⟩
      rw [lookup_assign, if_neg (by decide), lookup_assign, if_pos rfl]
    · refine ⟨_, rfl, ?_⟩
      rw [lookup_assign, if_pos rfl]
  | _ => cases h

/-- A page that is cut goes on behind the items that are kept. -/
theorem next_rebuild (h : keep < items.length) {offset : ℚ} (hoffset : pageOffset? (summaryOf fields) = some offset) :
    nextOffsetOf (rebuild fields items keep) = some (offset + keep) := by
  cases hsummary : fields.lookup "summary" with
  | none =>
    rw [summaryOf, hsummary] at hoffset
    cases hoffset
  | some summary =>
    rw [summaryOf, hsummary, Option.getD_some] at hoffset
    obtain ⟨cut, hcut, hadjusted⟩ := summary_rebuild h hsummary
    obtain ⟨page, hpage, hnext⟩ := next_adjusted hoffset
    rw [hcut, nextOffsetOf, summaryOf, hadjusted, hpage, Option.getD_some]
    dsimp only
    rw [hnext]

/-- What is shown tells how many items are kept. -/
theorem keep_unique {k k' : ℕ} (hk : k ≤ items.length) (hk' : k' ≤ items.length)
    (h : items.take k = items.take k') : k = k' := by
  have hlength := congrArg List.length h
  rwa [List.length_take_of_le hk, List.length_take_of_le hk'] at hlength

theorem rebuild_all : rebuild fields items items.length = .obj fields := if_pos rfl

/-- The result of a search that ends with a number. -/
theorem honest_of_found (hfull : ¬ bytesOf r (.obj fields) ≤ maxBytes)
    {result : BudgetedJson} (hkeep : keep < items.length) (hvalue : result.value = rebuild fields items keep)
    (homitted : result.omitted = items.length - keep) (hfits : fits r fields items maxBytes keep = true) :
    Honest r fields items maxBytes result keep ↔ Bisect.Largest (fits r fields items maxBytes) items.length keep ∧
      ((pageOffset? (summaryOf fields)).isSome → 0 < keep) := by
  have hwhole : ¬ fits r fields items maxBytes items.length = true := by
    rw [fits, rebuild_all]
    exact fun h => hfull (of_decide_eq_true h)
  constructor
  · intro h
    refine ⟨⟨hkeep, hfits, fun m hm hlt => Bool.eq_false_iff.2 fun hmfits => ?_⟩, fun hpage => ?_⟩
    · exact absurd (h.longest m (Nat.le_of_lt hlt) hmfits) (Nat.not_le.2 hm)
    · obtain ⟨offset, hoffset⟩ := Option.isSome_iff_exists.1 hpage
      exact (h.next hkeep offset hoffset).2
  · rintro ⟨hlargest, hpage⟩
    refine ⟨?_, Nat.le_of_lt hkeep, fun k hk hkfits => ?_, ?_, fun _ offset hoffset => ⟨?_, ?_⟩⟩
    · rw [hvalue, itemsOf_rebuild hkeep]
    · by_contra hlt
      rcases Nat.lt_or_eq_of_le hk with hk | rfl
      · rw [hlargest.later k (Nat.lt_of_not_le hlt) hk] at hkfits
        cases hkfits
      · exact hwhole hkfits
    · rw [homitted]
      omega
    · rw [hvalue, next_rebuild hkeep hoffset]
    · exact hpage (Option.isSome_iff_exists.2 ⟨offset, hoffset⟩)

/-- The envelope shows nothing and counts nothing as left out. -/
theorem envelope_result (itemsOmitted : List (String × Json)) (total : ℕ) :
    (encodeWithinBudget r 0 (fun _ => envelope itemsOmitted total) maxBytes).omitted = 0 ∧
      itemsOf (encodeWithinBudget r 0 (fun _ => envelope itemsOmitted total) maxBytes).value = [] := by
  have hitems : itemsOf (envelope itemsOmitted total) = [] := itemsOf_obj rfl
  have hsearch : Bisect.search (fun _ => bytesOf r (envelope itemsOmitted total) ≤ maxBytes) 0 0 none = none :=
    Bisect.search_nothing fun m _ hm => absurd hm (Nat.not_lt_zero m)
  rw [encodeWithinBudget]
  split
  · exact ⟨rfl, hitems⟩
  · rw [hsearch]
    exact ⟨rfl, hitems⟩

theorem serialize_found {details : Json} (hdroppable : droppableItems? (redactValue r details) = some (fields, items))
    (hfull : ¬ bytesOf r (.obj fields) ≤ maxBytes)
    (hsearch : Bisect.search (fits r fields items maxBytes) 0 items.length none = some keep) :
    (serializeToolResultForLlm r details maxBytes).value = rebuild fields items keep ∧
      (serializeToolResultForLlm r details maxBytes).omitted = items.length - keep := by
  have hsame : (fun keep => decide (bytesOf r (rebuild fields items keep) ≤ maxBytes)) =
      fits r fields items maxBytes := rfl
  rw [serializeToolResultForLlm, hdroppable]
  dsimp only
  rw [encodeWithinBudget, rebuild_all, if_neg hfull, hsame, hsearch]
  exact ⟨rfl, rfl⟩

theorem serialize_nothing {details : Json} (hdroppable : droppableItems? (redactValue r details) = some (fields, items))
    (hfull : ¬ bytesOf r (.obj fields) ≤ maxBytes)
    (hsearch : Bisect.search (fits r fields items maxBytes) 0 items.length none = none) :
    (serializeToolResultForLlm r details maxBytes).omitted = 0 ∧
      itemsOf (serializeToolResultForLlm r details maxBytes).value = [] := by
  have hsame : (fun keep => decide (bytesOf r (rebuild fields items keep) ≤ maxBytes)) =
      fits r fields items maxBytes := rfl
  have hover : (encodeWithinBudget r items.length (rebuild fields items) maxBytes).overBudget = true := by
    rw [encodeWithinBudget, rebuild_all, if_neg hfull, hsame, hsearch]
  rw [serializeToolResultForLlm, hdroppable]
  dsimp only
  rw [if_pos hover]
  exact envelope_result _ _

/-- A result with items is honest exactly where the search finds the longest list that fits. -/
theorem honest_iff {details : Json} (hdroppable : droppableItems? (redactValue r details) = some (fields, items)) :
    (∃ keep, Honest r fields items maxBytes (serializeToolResultForLlm r details maxBytes) keep) ↔
      LongestFound r fields items maxBytes := by
  obtain ⟨-, hlookup⟩ := items_of_droppable hdroppable
  by_cases hfull : bytesOf r (.obj fields) ≤ maxBytes
  · -- everything is shown
    rw [serializeToolResultForLlm, hdroppable]
    dsimp only
    rw [encodeWithinBudget, rebuild_all, if_pos hfull, if_neg Bool.false_ne_true]
    refine iff_of_true ⟨items.length, ?_, Nat.le_refl _, fun k hk _ => hk, rfl, fun h => ?_⟩ (Or.inl hfull)
    · rw [List.take_length]
      exact itemsOf_obj hlookup
    · exact absurd h (Nat.lt_irrefl _)
  cases hsearch : Bisect.search (fits r fields items maxBytes) 0 items.length none with
  | none =>
    obtain ⟨homitted, hshown⟩ := serialize_nothing hdroppable hfull hsearch
    constructor
    · rintro ⟨keep, h⟩
      -- nothing is counted as left out, so that there is nothing to leave out
      have hall := h.counted
      rw [homitted, Nat.add_zero] at hall
      have hitems := h.shown
      rw [hshown, hall, List.take_length] at hitems
      exact Or.inr (Or.inl hitems.symm)
    · rintro (hfits | rfl | ⟨keep, hlargest, hprobes, -⟩)
      · exact absurd hfits hfull
      · exact ⟨0, hshown, Nat.le_refl _, fun k hk _ => hk, (Nat.zero_add _).trans homitted,
          fun h => absurd h (Nat.lt_irrefl _)⟩
      · rw [(Bisect.search_eq_some_iff hlargest (Nat.zero_le _) (by rintro _ ⟨⟩)).2 hprobes] at hsearch
        cases hsearch
  | some found =>
    obtain ⟨hvalue, homitted⟩ := serialize_found hdroppable hfull hsearch
    obtain ⟨-, hfound, hfits⟩ := (Bisect.search_mem hsearch).resolve_left (by rintro ⟨⟩)
    have hhonest := honest_of_found hfull hfound hvalue homitted hfits
    constructor
    · rintro ⟨keep, h⟩
      obtain rfl : keep = found := keep_unique h.within (Nat.le_of_lt hfound)
        (h.shown.symm.trans (hvalue ▸ itemsOf_rebuild hfound))
      obtain ⟨hlargest, hpage⟩ := hhonest.1 h
      exact Or.inr (Or.inr ⟨keep, hlargest,
        (Bisect.search_eq_some_iff hlargest (Nat.zero_le _) (by rintro _ ⟨⟩)).1 hsearch, hpage⟩)
    · rintro (hfits | rfl | ⟨keep, hlargest, hprobes, hpage⟩)
      · exact absurd hfits hfull
      · exact absurd hfound (Nat.not_lt_zero _)
      · rw [(Bisect.search_eq_some_iff hlargest (Nat.zero_le _) (by rintro _ ⟨⟩)).2 hprobes] at hsearch
        obtain rfl := Option.some.inj hsearch
        exact ⟨keep, hhonest.2 ⟨hlargest, hpage⟩⟩

/-! ### Following the pages -/

/-- A tool that answers with everything from an offset on. -/
def Pages (r : Runtime) (page : ℕ → Json) (all : List Json) : Prop :=
  ∀ offset, ∃ fields, droppableItems? (redactValue r (page offset)) = some (fields, all.drop offset) ∧
    pageOffset? (summaryOf fields) = some offset

/-- Where the reader of a text goes on, when the text leaves items out. -/
def nextPage? (result : BudgetedJson) : Option ℕ :=
  if result.omitted = 0 then none else (nextOffsetOf result.value).map fun next => next.num.toNat

/-- The items that so many requests show, and where the next one would go on. -/
def follow (r : Runtime) (page : ℕ → Json) (maxBytes : ℕ) : ℕ → ℕ → List Json × Option ℕ
  | 0, offset => ([], some offset)
  | n + 1, offset =>
    let result := serializeToolResultForLlm r (page offset) maxBytes
    match nextPage? result with
    | none => (itemsOf result.value, none)
    | some next => (itemsOf result.value ++ (follow r page maxBytes n next).1, (follow r page maxBytes n next).2)

/-- The pages that the requests come across meet the condition. -/
def Along (r : Runtime) (page : ℕ → Json) (maxBytes : ℕ) (P : ℕ → Prop) : ℕ → ℕ → Prop
  | 0, _ => True
  | n + 1, offset => P offset ∧
    ∀ next ∈ nextPage? (serializeToolResultForLlm r (page offset) maxBytes), Along r page maxBytes P n next

theorem along_of_forall {page : ℕ → Json} {P : ℕ → Prop} (h : ∀ offset, P offset) :
    ∀ n offset, Along r page maxBytes P n offset
  | 0, _ => trivial
  | n + 1, offset => ⟨h offset, fun next _ => along_of_forall h n next⟩

/-- A page finds its longest list. -/
def PageFound (r : Runtime) (page : ℕ → Json) (maxBytes offset : ℕ) : Prop :=
  ∀ fields items, droppableItems? (redactValue r (page offset)) = some (fields, items) →
    LongestFound r fields items maxBytes

/-- Requests that follow the offsets show every item once, and come to their end. -/
theorem follow_shows {page : ℕ → Json} {all : List Json} (hpages : Pages r page all) :
    ∀ (n offset : ℕ), Along r page maxBytes (PageFound r page maxBytes) n offset → all.length - offset < n →
      follow r page maxBytes n offset = (all.drop offset, none)
  | 0, _, _, hn => absurd hn (Nat.not_lt_zero _)
  | n + 1, offset, halong, hn => by
      obtain ⟨fields, hdroppable, hoffset⟩ := hpages offset
      obtain ⟨keep, h⟩ := (honest_iff hdroppable).2 (halong.1 fields _ hdroppable)
      have hcounted := h.counted
      rw [List.length_drop] at hcounted
      rw [follow]
      rcases Nat.lt_or_eq_of_le h.within with hkeep | hkeep
      · obtain ⟨hnext, hpositive⟩ := h.next hkeep offset hoffset
        rw [List.length_drop] at hkeep
        have homitted : ¬ (serializeToolResultForLlm r (page offset) maxBytes).omitted = 0 := by omega
        have hnat : ((offset : ℚ) + (keep : ℚ)).num.toNat = offset + keep := by
          rw [← Nat.cast_add]
          rfl
        have hgo : nextPage? (serializeToolResultForLlm r (page offset) maxBytes) = some (offset + keep) := by
          rw [nextPage?, if_neg homitted, hnext, Option.map_some, hnat]
        rw [hgo]
        dsimp only
        rw [follow_shows hpages n (offset + keep) (halong.2 _ hgo) (by omega), h.shown, ← List.drop_drop,
          List.take_append_drop]
      · rw [List.length_drop] at hkeep
        have homitted : (serializeToolResultForLlm r (page offset) maxBytes).omitted = 0 := by omega
        have hend : nextPage? (serializeToolResultForLlm r (page offset) maxBytes) = none := if_pos homitted
        rw [hend, h.shown, hkeep, ← List.length_drop, List.take_length]

/-- **The budget of tool results.** Every text is within the budget or marked as over it. Of a result with
    items, the longest list of first items that fits is shown, the others are counted, and a page goes on
    behind what it shows, exactly where the bisection finds the longest list; and where it does on every
    page, following the offsets shows every item once. -/
theorem tool_result_budget_iff (r : Runtime) (maxBytes : ℕ) :
    (∀ details, Bounded r maxBytes (serializeToolResultForLlm r details maxBytes) ∧
      ∀ fields items, droppableItems? (redactValue r details) = some (fields, items) →
        ((∃ keep, Honest r fields items maxBytes (serializeToolResultForLlm r details maxBytes) keep) ↔
          LongestFound r fields items maxBytes)) ∧
    ∀ page all, Pages r page all → ∀ n offset,
      Along r page maxBytes (PageFound r page maxBytes) n offset → all.length - offset < n →
        follow r page maxBytes n offset = (all.drop offset, none) :=
  ⟨fun details => ⟨bounded_serialize details, fun _ _ hdroppable => honest_iff hdroppable⟩,
    fun _ _ hpages n offset => follow_shows hpages n offset⟩

/-! ### A listing and a long note -/

theorem length_le_bytes (text : List Char) : text.length ≤ JsonDump.bytes text := by
  induction text with
  | nil => exact Nat.le_refl _
  | cons ch text ih =>
    have hsize := ch.utf8Size_pos
    rw [List.length_cons, JsonDump.bytes_cons]
    omega

theorem length_le_quote (text : String) : text.toList.length ≤ JsonDump.bytes (StableJson.quote text) := by
  have hchars : ∀ chars : List Char,
      chars.length ≤ (chars.flatMap fun ch => JsonText.jsEscape ch.toNat).length := fun chars => by
    induction chars with
    | nil => exact Nat.le_refl _
    | cons ch chars ih =>
      have hescape : JsonText.jsEscape ch.toNat ≠ [] := by
        rw [JsonText.jsEscape]
        split
        · exact List.cons_ne_nil _ _
        · split
          · exact List.cons_ne_nil _ _
          · exact List.cons_ne_nil _ _
      have hpos := List.length_pos_iff.2 hescape
      rw [List.flatMap_cons, List.length_append, List.length_cons]
      omega
  have hall := hchars text.toList
  have hbytes := length_le_bytes (text.toList.flatMap fun ch => JsonText.jsEscape ch.toNat)
  rw [StableJson.quote, JsonDump.bytes_cons, JsonDump.bytes_append]
  omega

/-- A record is no shorter than one of its fields. -/
theorem bytes_field {name : String} {value : Json} (h : (name, value) ∈ fields) :
    bytesOf r value ≤ bytesOf r (.obj fields) := by
  have hmem : (name, stringify r.numbers value) ∈
      PropertyOrder.ownProperties (StableJson.stringifyFields r.numbers fields) := by
    rw [(PropertyOrder.perm_ownProperties _).mem_iff, StableJson.stringifyFields_eq]
    exact List.mem_map.2 ⟨_, h, rfl⟩
  have hpart := List.single_le_sum (fun _ _ => Nat.zero_le _) _
    (List.mem_map_of_mem (f := JsonDump.bytes) (List.mem_map_of_mem (f := StableJson.member) hmem))
  have hmember : bytesOf r value ≤ JsonDump.bytes (StableJson.member (name, stringify r.numbers value)) := by
    rw [StableJson.member, JsonDump.bytes_append, JsonDump.bytes_cons, bytesOf]
    dsimp only
    omega
  rw [bytesOf, bytesOf, stringify, JsonDump.bytes_cons, JsonDump.bytes_append, JsonDump.bytes_joined]
  rw [bytesOf] at hmember
  omega

def plainRuntime : Runtime where
  redactText := id
  toLowerCase := id
  numbers := StableJson.tallyNumbers

def sampleItem : Json := .arr (List.replicate 28 (.str "0123456"))

/-- Two items of 280 bytes, which are more than a text of 600 bytes has room for. -/
def sampleItems : List Json := [sampleItem, sampleItem]

/-- The page of a listing from an offset on. -/
def sampleFields (offset : ℕ) : List (String × Json) :=
  [("status", .str "success"), ("summary", .obj [("offset", .num offset), ("returned", .num (2 - offset : ℕ))]),
    ("items", .arr (sampleItems.drop offset)), ("warnings", .arr [])]

/-- The first items of the first page. -/
def cutFields (keep : ℕ) (warning : String) : List (String × Json) :=
  [("status", .str "partial"),
    ("summary", .obj [("offset", .num 0), ("returned", .num keep), ("nextOffset", .num keep)]),
    ("items", .arr (sampleItems.take keep)), ("warnings", .arr [.str warning]),
    ("itemsOmitted", .num (2 - keep : ℕ))]

theorem fits_sample : fits plainRuntime (sampleFields 0) sampleItems 600 0 = true ∧
    fits plainRuntime (sampleFields 0) sampleItems 600 1 = true := by
  have hnone : rebuild (sampleFields 0) sampleItems 0 = .obj (cutFields 0
      ("结果超出模型文本预算：共 2 项，已省略末尾 2 项；" ++ "事实仍在 Model Fact Plane，可用 query_facts 查询，省略不代表不存在。")) := by
    decide +kernel
  have hone : rebuild (sampleFields 0) sampleItems 1 = .obj (cutFields 1
      ("结果超出模型文本预算：共 2 项，已省略末尾 1 项；" ++ "事实仍在 Model Fact Plane，可用 query_facts 查询，省略不代表不存在。")) := by
    decide +kernel
  rw [fits, fits, hnone, hone]
  decide +kernel

theorem redactItems_sample (offset : ℕ) :
    redactItems plainRuntime (sampleItems.drop offset) = sampleItems.drop offset := by
  match offset with
  | 0 => decide +kernel
  | 1 => decide +kernel
  | n + 2 => rw [List.drop_eq_nil_of_le (by simp [sampleItems]), redactItems]

theorem droppable_sample (offset : ℕ) :
    droppableItems? (redactValue plainRuntime (.obj (sampleFields offset))) =
      some (sampleFields offset, sampleItems.drop offset) := by
  have hredact : redactValue plainRuntime (.obj (sampleFields offset)) = .obj (sampleFields offset) := by
    simp only [redactValue, sampleFields, redactFields, redactItems_sample, redactItems]
    rfl
  rw [hredact]
  rfl

/-- The first page finds its first item, the second is whole, and the later ones are empty. -/
theorem longestFound_sample (offset : ℕ) :
    LongestFound plainRuntime (sampleFields offset) (sampleItems.drop offset) 600 := by
  match offset with
  | 0 =>
    obtain ⟨hnone, hone⟩ := fits_sample
    refine Or.inr (Or.inr ⟨1, ⟨by decide, hone, fun m hm hlt => ?_⟩, fun m _ hle => ?_, fun _ => by decide⟩)
    · exact absurd hm (Nat.not_lt.2 (Nat.le_of_lt_succ hlt))
    · match m, hle with
      | 0, _ => exact hnone
      | 1, _ => exact hone
  | 1 => exact Or.inl (by decide +kernel)
  | n + 2 => exact Or.inr (Or.inl (List.drop_eq_nil_of_le (by simp [sampleItems])))

theorem pages_sample : Pages plainRuntime (fun offset => .obj (sampleFields offset)) sampleItems :=
  fun offset => ⟨_, droppable_sample offset, rfl⟩

/-- The first request shows one item of the two, and the second one the other. -/
theorem sample_pages_honest :
    ¬ bytesOf plainRuntime (.obj (sampleFields 0)) ≤ 600 ∧
    (∃ keep, Honest plainRuntime (sampleFields 0) sampleItems 600
      (serializeToolResultForLlm plainRuntime (.obj (sampleFields 0)) 600) keep) ∧
    follow plainRuntime (fun offset => .obj (sampleFields offset)) 600 3 0 = (sampleItems, none) := by
  obtain ⟨hresults, hpages⟩ := tool_result_budget_iff plainRuntime 600
  have hfound : ∀ offset, PageFound plainRuntime (fun offset => .obj (sampleFields offset)) 600 offset := by
    intro offset fields items hitems
    obtain ⟨rfl, rfl⟩ := Prod.mk.inj (Option.some.inj ((droppable_sample offset).symm.trans hitems))
    exact longestFound_sample offset
  exact ⟨by decide +kernel, ((hresults _).2 _ _ (droppable_sample 0)).2 (longestFound_sample 0),
    hpages _ _ pages_sample 3 0 (along_of_forall hfound 3 0) (by decide)⟩

/-- A result with one item and a note that is longer than a budget. -/
def noted (note : String) : List (String × Json) :=
  [("status", .str "success"), ("summary", .obj [("note", .str note)]), ("items", .arr [.null]), ("warnings", .arr [])]

def longNote : String := String.ofList (List.replicate 3000 'x')

theorem over_budget (h : ("summary", .obj [("note", .str longNote)]) ∈ fields) :
    ¬ bytesOf plainRuntime (.obj fields) ≤ 1024 := by
  have hnote : bytesOf plainRuntime (.str longNote) ≤ bytesOf plainRuntime (.obj [("note", .str longNote)]) :=
    bytes_field (List.mem_singleton.2 rfl)
  have hquote : longNote.toList.length ≤ bytesOf plainRuntime (.str longNote) := length_le_quote longNote
  have hlong : longNote.toList.length = 3000 :=
    (congrArg List.length String.toList_ofList).trans List.length_replicate
  have hsummary : bytesOf plainRuntime (.obj [("note", .str longNote)]) ≤ bytesOf plainRuntime (.obj fields) :=
    bytes_field h
  omega

/-- Where the note alone is over the budget, the envelope drops the item and counts none. -/
theorem dropped_item_uncounted :
    droppableItems? (redactValue plainRuntime (.obj (noted longNote))) = some (noted longNote, [.null]) ∧
    (serializeToolResultForLlm plainRuntime (.obj (noted longNote)) 1024).omitted = 0 ∧
    itemsOf (serializeToolResultForLlm plainRuntime (.obj (noted longNote)) 1024).value = [] ∧
    ¬ ∃ keep, Honest plainRuntime (noted longNote) [.null] 1024
      (serializeToolResultForLlm plainRuntime (.obj (noted longNote)) 1024) keep := by
  have hdroppable : droppableItems? (redactValue plainRuntime (.obj (noted longNote))) =
      some (noted longNote, [.null]) := rfl
  have hfull : ¬ bytesOf plainRuntime (.obj (noted longNote)) ≤ 1024 :=
    over_budget (List.mem_cons_of_mem _ List.mem_cons_self)
  have hempty : fits plainRuntime (noted longNote) [.null] 1024 0 = false := by
    have hsame : adjustPaginationSummary (.obj [("note", .str longNote)]) 0 = .obj [("note", .str longNote)] := rfl
    obtain ⟨cut, hcut, hsummary⟩ := @summary_rebuild (noted longNote) [.null] 0 Nat.zero_lt_one _ rfl
    rw [hsame] at hsummary
    rw [fits, hcut]
    exact decide_eq_false (over_budget (OrderedMap.mem_of_lookup hsummary))
  have hsearch : Bisect.search (fits plainRuntime (noted longNote) [.null] 1024) 0 1 none = none :=
    Bisect.search_nothing fun m _ hm => by
      obtain rfl : m = 0 := Nat.lt_one_iff.1 hm
      exact hempty
  obtain ⟨homitted, hshown⟩ := serialize_nothing hdroppable hfull hsearch
  refine ⟨hdroppable, homitted, hshown, ?_⟩
  rintro ⟨keep, h⟩
  have hcounted := h.counted
  have hitems := h.shown
  rw [homitted, Nat.add_zero] at hcounted
  rw [hshown, hcounted, List.take_length] at hitems
  cases hitems

end HuntWarden.ToolResults
