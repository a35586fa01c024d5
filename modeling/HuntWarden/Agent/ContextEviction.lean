import HuntWarden.Agent.ToolResults
import Mathlib.Data.Int.Order.Basic
import Mathlib.Order.Bounds.Basic

/-! Tool results in the context that is sent to the model. Old results become stubs; when the rest is over
    the budget, the large ones get one cap, which small ones leave to the others, and are written out
    anew within it. The cap is found by bisection on 32-bit sums, and is the largest that the budget has
    room for. -/

namespace HuntWarden.ContextEviction

open ToolResults

/-! ### The fair cap -/

/-- The sum as a 32-bit number, as the operand of a shift. -/
def int32 (n : ℤ) : ℤ := n.bmod 4294967296

/-- What the results take with a cap on each. -/
def used (sizes : List ℕ) (cap : ℤ) : ℤ := (sizes.map fun size : ℕ => min (size : ℤ) cap).sum

/-- `Math.max(...sizes)`, of some sizes. -/
def largest (sizes : List ℕ) : ℕ := sizes.foldr max 0

/-- The loop, as far as the steps last. -/
def capLoop (sizes : List ℕ) (budget : ℤ) : ℕ → ℤ → ℤ → ℤ → Option ℤ
  | 0, _, _, _ => none
  | steps + 1, low, high, best =>
    if low ≤ high then
      let middle := int32 (low + high) / 2
      if used sizes middle ≤ budget then capLoop sizes budget steps (middle + 1) high middle
      else capLoop sizes budget steps low (middle - 1) best
    else some best

def fairPerResultCap (sizes : List ℕ) (budget : ℤ) (steps : ℕ) : Option ℤ :=
  if sizes = [] ∨ budget ≤ 0 then some 0 else capLoop sizes budget steps 0 (largest sizes) 0

example : fairPerResultCap [10, 50, 100] 100 10 = some 45 := by decide

variable {sizes : List ℕ} {budget : ℤ}

theorem used_mono {c c' : ℤ} (h : c ≤ c') : used sizes c ≤ used sizes c' := by
  rw [used, used]
  induction sizes with
  | nil => exact le_refl _
  | cons size sizes ih =>
    rw [List.map_cons, List.map_cons, List.sum_cons, List.sum_cons]
    exact add_le_add (min_le_min_left _ h) ih

theorem used_zero : used sizes 0 = 0 := by
  rw [used]
  induction sizes with
  | nil => rfl
  | cons size sizes ih =>
    rw [List.map_cons, List.sum_cons, ih, min_eq_right (Int.natCast_nonneg size), add_zero]

theorem used_nonneg {c : ℤ} (hc : 0 ≤ c) : 0 ≤ used sizes c := by
  have hmono := @used_mono sizes _ _ hc
  rw [used_zero] at hmono
  exact hmono

/-- The largest size takes the whole of a cap. -/
theorem le_used {c : ℤ} (hc : 0 ≤ c) (h : c ≤ largest sizes) : c ≤ used sizes c := by
  induction sizes with
  | nil => exact h
  | cons first sizes ih =>
    have hrest : 0 ≤ used sizes c := used_nonneg hc
    have hcons : used (first :: sizes) c = min (first : ℤ) c + used sizes c := List.sum_cons
    rw [hcons]
    have hmax : largest (first :: sizes) = max first (largest sizes) := rfl
    have hside : c ≤ first ∨ c ≤ largest sizes := by omega
    rcases hside with hfirst | hlater
    · rw [min_eq_right hfirst]
      omega
    · have hmin : 0 ≤ min (first : ℤ) c := le_min (Int.natCast_nonneg _) hc
      have hpart := ih hlater
      omega

theorem le_largest {size : ℕ} (h : size ∈ sizes) : size ≤ largest sizes := by
  induction sizes with
  | nil => cases h
  | cons first sizes ih =>
    rw [largest, List.foldr_cons]
    rcases List.mem_cons.1 h with rfl | h
    · exact le_max_left _ _
    · exact le_trans (ih h) (le_max_right _ _)

theorem largest_le {bound : ℕ} (h : ∀ size ∈ sizes, size ≤ bound) : largest sizes ≤ bound := by
  induction sizes with
  | nil => exact Nat.zero_le _
  | cons first sizes ih =>
    rw [largest, List.foldr_cons]
    exact max_le (h first List.mem_cons_self) (ih fun size hsize => h size (List.mem_cons_of_mem _ hsize))

/-- Below 2^31 the sum is itself. -/
theorem int32_eq {n : ℤ} (hn : 0 ≤ n) (hlt : n < 2147483648) : int32 n = n := by
  rw [int32]
  exact Int.bmod_eq_of_le (by omega) (by omega)

/-- The cap that the loop looks for is at least `best` and no larger than `high`. -/
structure Searching (sizes : List ℕ) (budget low high best : ℤ) : Prop where
  low_nonneg : 0 ≤ low
  low_le : low ≤ high + 1
  high_le : high ≤ largest sizes
  best_nonneg : 0 ≤ best
  best_le : best ≤ largest sizes
  fits : used sizes best ≤ budget
  reached : low ≤ best + 1
  later : ∀ c, high < c → c ≤ largest sizes → budget < used sizes c

/-- The loop ends with the largest cap. -/
theorem capLoop_spec (hlargest : largest sizes < 1073741824) : ∀ (steps : ℕ) (low high best : ℤ),
    Searching sizes budget low high best → high + 1 - low < steps →
      ∃ cap, (∀ more, capLoop sizes budget (steps + more) low high best = some cap) ∧
        IsGreatest {c : ℤ | c ≤ largest sizes ∧ used sizes c ≤ budget} cap
  | 0, low, high, best, h, hsteps => by
      have hle := h.low_le
      omega
  | steps + 1, low, high, best, h, hsteps => by
      obtain ⟨hlow, hle, hhigh, hbest, hbestLe, hfits, hreached, hlater⟩ := h
      have hunfold : ∀ more, steps + 1 + more = (steps + more) + 1 := fun more => by omega
      by_cases hopen : low ≤ high
      · have hsum : int32 (low + high) = low + high := int32_eq (by omega) (by omega)
        by_cases hmiddle : used sizes ((low + high) / 2) ≤ budget
        · obtain ⟨cap, hcap, hgreatest⟩ := capLoop_spec hlargest steps ((low + high) / 2 + 1) high ((low + high) / 2)
            ⟨by omega, by omega, hhigh, by omega, by omega, hmiddle, by omega, hlater⟩ (by omega)
          refine ⟨cap, fun more => ?_, hgreatest⟩
          rw [hunfold, capLoop, if_pos hopen, hsum]
          dsimp only
          rw [if_pos hmiddle, hcap]
        · have hover : ∀ c, (low + high) / 2 - 1 < c → c ≤ largest sizes → budget < used sizes c := fun c hc _ =>
            lt_of_lt_of_le (not_le.1 hmiddle) (used_mono (by omega))
          obtain ⟨cap, hcap, hgreatest⟩ := capLoop_spec hlargest steps low ((low + high) / 2 - 1) best
            ⟨hlow, by omega, by omega, hbest, hbestLe, hfits, hreached, hover⟩ (by omega)
          refine ⟨cap, fun more => ?_, hgreatest⟩
          rw [hunfold, capLoop, if_pos hopen, hsum]
          dsimp only
          rw [if_neg hmiddle, hcap]
      · refine ⟨best, fun more => ?_, ⟨hbestLe, hfits⟩, fun c hc => ?_⟩
        · rw [hunfold, capLoop, if_neg hopen]
        · by_contra hlt
          exact absurd hc.2 (not_le.2 (hlater c (by omega) hc.1))

theorem fairCap_greatest (hsizes : ∀ size ∈ sizes, size < 1073741824) (hbudget : 0 ≤ budget) :
    ∃ cap, (∃ steps, ∀ more, fairPerResultCap sizes budget (steps + more) = some cap) ∧
      IsGreatest {c : ℤ | c ≤ largest sizes ∧ used sizes c ≤ budget} cap := by
  by_cases hnone : sizes = [] ∨ budget ≤ 0
  · refine ⟨0, ⟨0, fun more => if_pos hnone⟩, ⟨Int.natCast_nonneg _, ?_⟩, fun c hc => ?_⟩
    · rw [used_zero]
      exact hbudget
    · -- a positive cap would let the largest size take something
      by_contra hpos
      have htaken := le_used (le_of_lt (not_le.1 hpos)) hc.1
      rcases hnone with rfl | hzero
      · exact hpos hc.1
      · exact hpos (le_trans htaken (le_trans hc.2 hzero))
  · have hlargest : largest sizes < 1073741824 := by
      exact Nat.lt_succ_of_le (largest_le fun size hsize => Nat.le_of_lt_succ (hsizes size hsize))
    have hstart : Searching sizes budget 0 (largest sizes) 0 :=
      ⟨le_refl _, by omega, le_refl _, le_refl _, by omega, by rw [used_zero]; exact hbudget, by omega,
        fun c hc hle => absurd hle (not_le.2 hc)⟩
    obtain ⟨cap, hcap, hgreatest⟩ := capLoop_spec hlargest (largest sizes + 2) 0 (largest sizes) 0 hstart (by omega)
    refine ⟨cap, ⟨largest sizes + 2, fun more => ?_⟩, hgreatest⟩
    rw [fairPerResultCap, if_neg hnone, hcap]

/-- **The fair cap.** With a budget that is not negative, and results below 2^30 bytes, as their texts are,
    the loop ends, and its cap is the greatest integer up to the largest size for which the capped sizes
    are within the budget. -/
theorem fairPerResultCap_isGreatest (sizes : List ℕ) (hsizes : ∀ size ∈ sizes, size < 1073741824) (budget : ℤ)
    (hbudget : 0 ≤ budget) : ∃ cap, (∃ steps, ∀ more, fairPerResultCap sizes budget (steps + more) = some cap) ∧
      IsGreatest {c : ℤ | c ≤ largest sizes ∧ used sizes c ≤ budget} cap :=
  fairCap_greatest hsizes hbudget

theorem fairPerResultCap_three : ∃ cap,
    (∃ steps, ∀ more, fairPerResultCap [10, 50, 100] 100 (steps + more) = some cap) ∧
    IsGreatest {c : ℤ | c ≤ largest [10, 50, 100] ∧ used [10, 50, 100] c ≤ 100} cap :=
  fairPerResultCap_isGreatest [10, 50, 100] (by decide) 100 (by decide)

/-! ### Eviction -/

inductive Content where
  | text (text : String)
  | image (data : String)

structure ToolResult where
  toolCallId : String
  toolName : String
  content : List Content
  isError : Bool
  details : Option Json

/-- A message of the conversation; the other roles have contents of their own. -/
inductive AgentMessage where
  | toolResult (result : ToolResult)
  | other (role : String) (body : Json)

structure Config where
  contextRetainTurns : ℕ
  contextWindow : ℕ
  maxTokens : ℕ

def evictionMinBytes : ℕ := 2048
def minBatchResultBytes : ℕ := 1024

/-- A token is taken for a byte. -/
def providerToolResultBudgetBytes (config : Config) : ℕ :=
  let inputTokens := config.contextWindow - config.maxTokens
  let reserveTokens := min 32768 (max 8192 ((config.contextWindow + 7) / 8))
  max minBatchResultBytes (inputTokens - reserveTokens)

def Content.chars : Content → List Char
  | .text value => value.toList
  | .image _ => []

def ToolResult.text (result : ToolResult) : List Char := result.content.flatMap Content.chars

def toolResultTextBytes : AgentMessage → ℕ
  | .toolResult result => JsonDump.bytes result.text
  | .other .. => 0

def stubText (result : ToolResult) : String :=
  s!"[上下文缓存已淘汰：{result.toolName} / runId={result.toolCallId} / {JsonDump.bytes result.text} 字节。" ++
    "事实仍在 Model Fact Plane；请用 query_facts 按 sourceRunId 查询。]"

def stubToolResult : AgentMessage → AgentMessage
  | .toolResult result =>
    if result.isError ∨ JsonDump.bytes result.text ≤ evictionMinBytes then .toolResult result
    else .toolResult { result with content := [.text (stubText result)] }
  | message => message

def isAssistant : AgentMessage → Bool
  | .other role _ => role = "assistant"
  | .toolResult _ => false

/-- The loop from the last message to the first, with the number of turns that it has come across. -/
def boundTurns (retainTurns : ℕ) : List AgentMessage → List AgentMessage × ℕ
  | [] => ([], 0)
  | message :: messages =>
    let later := boundTurns retainTurns messages
    let assistantTurns := if isAssistant message then later.2 + 1 else later.2
    ((if retainTurns ≤ assistantTurns then stubToolResult message else message) :: later.1, assistantTurns)

/-- The size of a result that may be written out anew. -/
def resizableBytes? : AgentMessage → Option ℕ
  | .toolResult result =>
    if result.isError ∨ result.details.isNone then none
    else (some (JsonDump.bytes result.text)).filter (evictionMinBytes < ·)
  | .other .. => none

def limitNote : String := "[工具结果受 Provider 总上下文预算限制；请缩小条件或分页查询。]"

/-- `resizeToolResult`, for a cap that is not negative. -/
def resizeToolResult (r : Runtime) (message : AgentMessage) (maxBytes : ℤ) : AgentMessage :=
  match message with
  | .toolResult result =>
    match result.details with
    | none => message
    | some details =>
      let encoded := serializeToolResultForLlm r details (max minBatchResultBytes maxBytes.toNat)
      .toolResult { result with
        content := [.text (if maxBytes < encoded.outputBytes then limitNote else String.ofList encoded.text)] }
  | .other .. => message

def withoutToolDetails : AgentMessage → AgentMessage
  | .toolResult result => .toolResult { result with details := none }
  | message => message

/-- A message under the cap. -/
def capMessage (r : Runtime) (cap : ℤ) (message : AgentMessage) : AgentMessage :=
  withoutToolDetails <|
    match resizableBytes? message with
    | some bytes => if cap < bytes then resizeToolResult r message cap else message
    | none => message

def toolBytes (messages : List AgentMessage) : ℕ := (messages.map toolResultTextBytes).sum

def turnBounded (config : Config) (messages : List AgentMessage) : List AgentMessage :=
  (boundTurns config.contextRetainTurns messages).1

/-- What cannot be written out anew. -/
def fixedBytes (messages : List AgentMessage) : ℕ :=
  toolBytes messages - (messages.filterMap resizableBytes?).sum

/-- `evictStaleToolResults`, as far as the steps of the loop last. -/
def evictStaleToolResults (r : Runtime) (config : Config) (messages : List AgentMessage) (steps : ℕ) :
    Option (List AgentMessage) :=
  let bounded := turnBounded config messages
  let resizable := bounded.filterMap resizableBytes?
  let toolBudgetBytes := providerToolResultBudgetBytes config
  let availableBytes := toolBudgetBytes - fixedBytes bounded
  if toolBudgetBytes < toolBytes bounded ∧ resizable ≠ [] then
    (fairPerResultCap resizable availableBytes steps).map fun cap => bounded.map (capMessage r cap)
  else some (bounded.map withoutToolDetails)

/-! ### What is kept -/

/-- The role of a message, and the call that it answers. -/
def shape : AgentMessage → String × Option String
  | .toolResult result => ("toolResult", some result.toolCallId)
  | .other role _ => (role, none)

/-- A message stays what it is, but for the text of a result that is no error. -/
inductive Kept : AgentMessage → AgentMessage → Prop where
  | other (role : String) (body : Json) : Kept (.other role body) (.other role body)
  | result {result result' : ToolResult} (sameCall : result'.toolCallId = result.toolCallId)
      (sameTool : result'.toolName = result.toolName) (sameError : result'.isError = result.isError)
      (text : result.isError = true → result'.content = result.content) :
      Kept (.toolResult result) (.toolResult result')

/-- What eviction promises. -/
structure Evicted (config : Config) (messages output : List AgentMessage) : Prop where
  kept : List.Forall₂ Kept messages output
  young : ∀ before result after, messages = before ++ .toolResult result :: after →
    after.countP isAssistant < config.contextRetainTurns →
      toolBytes (turnBounded config messages) ≤ providerToolResultBudgetBytes config →
        ∃ result', output[before.length]? = some (.toolResult result') ∧ result'.content = result.content
  bound : fixedBytes (turnBounded config messages) + JsonDump.bytes limitNote.toList *
      ((turnBounded config messages).filterMap resizableBytes?).length ≤ providerToolResultBudgetBytes config →
    toolBytes output ≤ providerToolResultBudgetBytes config

variable {r : Runtime} {config : Config} {messages output : List AgentMessage} {cap : ℤ}

theorem Kept.refl (message : AgentMessage) : Kept message message := by
  cases message with
  | toolResult result => exact .result rfl rfl rfl fun _ => rfl
  | other role body => exact .other role body

theorem Kept.trans {a b c : AgentMessage} (h : Kept a b) (h' : Kept b c) : Kept a c := by
  cases h with
  | other role body => exact h'
  | result hcall htool herror htext =>
    cases h' with
    | result hcall' htool' herror' htext' =>
      exact .result (hcall'.trans hcall) (htool'.trans htool) (herror'.trans herror)
        fun hresult => (htext' (herror ▸ hresult)).trans (htext hresult)

theorem kept_stub (message : AgentMessage) : Kept message (stubToolResult message) := by
  cases message with
  | toolResult result =>
    rw [stubToolResult]
    split
    · exact Kept.refl _
    · next hopen => exact .result rfl rfl rfl fun herror => absurd (Or.inl herror) hopen
  | other role body => exact .other role body

theorem kept_withoutToolDetails (message : AgentMessage) : Kept message (withoutToolDetails message) := by
  cases message with
  | toolResult result => exact .result rfl rfl rfl fun _ => rfl
  | other role body => exact .other role body

theorem resizable_spec {message : AgentMessage} {bytes : ℕ} (h : resizableBytes? message = some bytes) :
    ∃ result details, message = .toolResult result ∧ result.details = some details ∧ result.isError = false ∧
      bytes = JsonDump.bytes result.text ∧ evictionMinBytes < bytes := by
  cases message with
  | other role body => cases h
  | toolResult result =>
    rw [resizableBytes?] at h
    split at h
    · cases h
    next hopen =>
      rw [not_or] at hopen
      obtain ⟨details, hdetails⟩ := Option.ne_none_iff_exists'.1 fun hnone =>
        hopen.2 (Option.isNone_iff_eq_none.2 hnone)
      obtain ⟨hbytes, hlarge⟩ := Option.filter_eq_some_iff.1 h
      exact ⟨result, details, rfl, hdetails, Bool.eq_false_iff.2 hopen.1, (Option.some.inj hbytes).symm,
        of_decide_eq_true hlarge⟩

theorem kept_capMessage (message : AgentMessage) : Kept message (capMessage r cap message) := by
  rw [capMessage]
  refine Kept.trans ?_ (kept_withoutToolDetails _)
  cases hbytes : resizableBytes? message with
  | none => exact Kept.refl _
  | some bytes =>
    dsimp only
    split
    · obtain ⟨result, details, rfl, hdetails, herror, -⟩ := resizable_spec hbytes
      rw [resizeToolResult]
      dsimp only
      rw [hdetails]
      refine .result rfl rfl rfl fun hresult => ?_
      rw [herror] at hresult
      cases hresult
    · exact Kept.refl _

theorem kept_boundTurns (retainTurns : ℕ) : ∀ messages : List AgentMessage,
    List.Forall₂ Kept messages (boundTurns retainTurns messages).1
  | [] => .nil
  | message :: messages => by
      have hhead : ∀ turns, Kept message (if retainTurns ≤ turns then stubToolResult message else message) :=
        fun turns => by
          split
          · exact kept_stub message
          · exact Kept.refl message
      exact .cons (hhead _) (kept_boundTurns retainTurns messages)

theorem boundTurns_turns (retainTurns : ℕ) : ∀ messages : List AgentMessage,
    (boundTurns retainTurns messages).2 = messages.countP isAssistant
  | [] => rfl
  | message :: messages => by
      rw [boundTurns, List.countP_cons, boundTurns_turns retainTurns messages]
      dsimp only
      split
      · rfl
      · rfl

/-- A result with fewer turns behind it than are retained is left as it is. -/
theorem boundTurns_young {retainTurns : ℕ} {result : ToolResult} {after : List AgentMessage}
    (hyoung : after.countP isAssistant < retainTurns) : ∀ before : List AgentMessage,
      (boundTurns retainTurns (before ++ .toolResult result :: after)).1[before.length]? = some (.toolResult result)
  | [] => by
      have hturns : ¬ retainTurns ≤ (boundTurns retainTurns after).2 := by
        rw [boundTurns_turns]
        exact not_le.2 hyoung
      rw [List.nil_append, boundTurns]
      dsimp only
      rw [List.length_nil, List.getElem?_cons_zero, isAssistant, if_neg Bool.false_ne_true, if_neg hturns]
  | message :: before => by
      rw [List.cons_append, boundTurns]
      exact boundTurns_young hyoung before

theorem Kept.map {f : AgentMessage → AgentMessage} (hf : ∀ message, Kept message (f message)) :
    ∀ {messages bounded : List AgentMessage}, List.Forall₂ Kept messages bounded →
      List.Forall₂ Kept messages (bounded.map f)
  | _, _, .nil => .nil
  | _, _, .cons h rest => .cons (h.trans (hf _)) (Kept.map hf rest)

/-! ### The bytes that are sent -/

theorem bytes_withoutToolDetails (message : AgentMessage) :
    toolResultTextBytes (withoutToolDetails message) = toolResultTextBytes message := by
  cases message <;> rfl

/-- A large result is cut to the cap when the note fits in it. -/
theorem bytes_resized {message : AgentMessage} {bytes : ℕ} (h : resizableBytes? message = some bytes)
    (hnote : (JsonDump.bytes limitNote.toList : ℤ) ≤ cap) :
    (toolResultTextBytes (resizeToolResult r message cap) : ℤ) ≤ cap := by
  obtain ⟨result, details, rfl, hdetails, -⟩ := resizable_spec h
  rw [resizeToolResult]
  dsimp only
  rw [hdetails]
  dsimp only
  rw [toolResultTextBytes, ToolResult.text]
  dsimp only
  rw [List.flatMap_singleton, Content.chars]
  split
  · exact hnote
  · next hfits =>
    obtain ⟨-, hbytes, -⟩ := @bounded_serialize r (max minBatchResultBytes cap.toNat) details
    rw [String.toList_ofList, ← hbytes]
    exact not_lt.1 hfits

/-- Under a cap that the note fits in, a list of messages sends what cannot be resized and the capped rest. -/
theorem bytes_capped (hnote : (JsonDump.bytes limitNote.toList : ℤ) ≤ cap) : ∀ messages : List AgentMessage,
    (toolBytes (messages.map (capMessage r cap)) : ℤ) + (messages.filterMap resizableBytes?).sum ≤
      toolBytes messages + used (messages.filterMap resizableBytes?) cap
  | [] => le_refl _
  | message :: messages => by
      have ih := bytes_capped hnote messages
      have hcons : ∀ (m : AgentMessage) (ms : List AgentMessage),
          toolBytes (m :: ms) = toolResultTextBytes m + toolBytes ms := fun m ms => List.sum_cons
      rw [List.map_cons, hcons, hcons]
      cases hbytes : resizableBytes? message with
      | none =>
        have hsame : toolResultTextBytes (capMessage r cap message) = toolResultTextBytes message := by
          rw [capMessage, hbytes]
          exact bytes_withoutToolDetails message
        rw [List.filterMap_cons_none hbytes, hsame]
        omega
      | some bytes =>
        have hused : used (bytes :: messages.filterMap resizableBytes?) cap =
            min (bytes : ℤ) cap + used (messages.filterMap resizableBytes?) cap := List.sum_cons
        have hown : toolResultTextBytes message = bytes := by
          obtain ⟨result, details, rfl, -, -, rfl, -⟩ := resizable_spec hbytes
          rfl
        have hcut : (toolResultTextBytes (capMessage r cap message) : ℤ) ≤ min (bytes : ℤ) cap := by
          rw [capMessage, hbytes]
          dsimp only
          rw [bytes_withoutToolDetails]
          split
          · next hover =>
            rw [min_eq_right (le_of_lt hover)]
            exact bytes_resized hbytes hnote
          · next hunder =>
            rw [min_eq_left (not_lt.1 hunder), hown]
        rw [List.filterMap_cons_some hbytes, List.sum_cons, hused]
        omega

theorem resizable_le (messages : List AgentMessage) :
    (messages.filterMap resizableBytes?).sum ≤ toolBytes messages := by
  induction messages with
  | nil => exact le_refl _
  | cons message messages ih =>
    have hcons : toolBytes (message :: messages) = toolResultTextBytes message + toolBytes messages := List.sum_cons
    cases hbytes : resizableBytes? message with
    | none =>
      rw [List.filterMap_cons_none hbytes, hcons]
      omega
    | some bytes =>
      obtain ⟨result, details, rfl, -, -, rfl, -⟩ := resizable_spec hbytes
      rw [List.filterMap_cons_some hbytes, List.sum_cons, hcons, toolResultTextBytes]
      omega

/-- Where there is room for a note in the place of each large result, the cap leaves it room. -/
theorem note_le_cap {sizes : List ℕ} (hsome : sizes ≠ []) (hlarge : ∀ size ∈ sizes, evictionMinBytes < size)
    {available : ℕ} (hroom : JsonDump.bytes limitNote.toList * sizes.length ≤ available)
    (hcap : IsGreatest {c : ℤ | c ≤ largest sizes ∧ used sizes c ≤ available} cap) :
    (JsonDump.bytes limitNote.toList : ℤ) ≤ cap := by
  have hbytes : JsonDump.bytes limitNote.toList = 87 := rfl
  have hnote : JsonDump.bytes limitNote.toList ≤ evictionMinBytes := by
    rw [hbytes]
    decide
  obtain ⟨size, hsize⟩ := List.exists_mem_of_ne_nil sizes hsome
  have hused : ∀ sizes : List ℕ, used sizes (JsonDump.bytes limitNote.toList) ≤
      (JsonDump.bytes limitNote.toList * sizes.length : ℕ) := fun sizes => by
    induction sizes with
    | nil => exact le_refl _
    | cons size sizes ih =>
      have hcons : used (size :: sizes) (JsonDump.bytes limitNote.toList) =
          min (size : ℤ) (JsonDump.bytes limitNote.toList) + used sizes (JsonDump.bytes limitNote.toList) :=
        List.sum_cons
      have hmin : min (size : ℤ) (JsonDump.bytes limitNote.toList) ≤ JsonDump.bytes limitNote.toList :=
        min_le_right _ _
      rw [hcons, List.length_cons, Nat.mul_succ]
      omega
  refine hcap.2 ⟨?_, le_trans (hused sizes) (by exact_mod_cast hroom)⟩
  have hle := le_largest hsize
  have hlarger := hlarge size hsize
  omega

theorem large_of_resizable {size : ℕ} (h : size ∈ messages.filterMap resizableBytes?) : evictionMinBytes < size := by
  obtain ⟨message, -, hbytes⟩ := List.mem_filterMap.1 h
  obtain ⟨result, details, -, -, -, -, hlarge⟩ := resizable_spec hbytes
  exact hlarge

theorem resizable_lt {bound : ℕ} (h : ∀ message ∈ messages, toolResultTextBytes message < bound) {size : ℕ}
    (hsize : size ∈ messages.filterMap resizableBytes?) : size < bound := by
  obtain ⟨message, hmessage, hbytes⟩ := List.mem_filterMap.1 hsize
  obtain ⟨result, details, rfl, -, -, rfl, -⟩ := resizable_spec hbytes
  exact h _ hmessage

/-- Without a cap, everything is sent as it is. -/
theorem evicted_uncapped (hopen : ¬ (providerToolResultBudgetBytes config < toolBytes (turnBounded config messages) ∧
    (turnBounded config messages).filterMap resizableBytes? ≠ [])) :
    Evicted config messages ((turnBounded config messages).map withoutToolDetails) := by
  refine ⟨Kept.map kept_withoutToolDetails (kept_boundTurns _ _), ?_, fun hroom => ?_⟩
  · rintro before result after rfl hyoung -
    refine ⟨{ result with details := none }, ?_, rfl⟩
    rw [List.getElem?_map, turnBounded, boundTurns_young hyoung]
    rfl
  · have hsame : toolBytes ((turnBounded config messages).map withoutToolDetails) =
        toolBytes (turnBounded config messages) := by
      rw [toolBytes, List.map_map]
      exact congrArg List.sum (List.map_congr_left fun message _ => bytes_withoutToolDetails message)
    rw [hsame]
    by_contra hover
    have hnone := not_and.1 hopen (not_le.1 hover)
    rw [not_not] at hnone
    rw [fixedBytes, hnone, List.sum_nil, List.length_nil] at hroom
    omega

/-- With the fair cap, only results over it are written out anew, and the budget is kept. -/
theorem evicted_capped (hover : providerToolResultBudgetBytes config < toolBytes (turnBounded config messages))
    (hsome : (turnBounded config messages).filterMap resizableBytes? ≠ [])
    (hcap : IsGreatest {c : ℤ | c ≤ largest ((turnBounded config messages).filterMap resizableBytes?) ∧
      used ((turnBounded config messages).filterMap resizableBytes?) c ≤
        ((providerToolResultBudgetBytes config - fixedBytes (turnBounded config messages) : ℕ) : ℤ)} cap) :
    Evicted config messages ((turnBounded config messages).map (capMessage r cap)) := by
  refine ⟨Kept.map kept_capMessage (kept_boundTurns _ _), fun before result after _ _ hfits => ?_, fun hroom => ?_⟩
  · omega
  · have hnote := note_le_cap hsome (fun size hsize => large_of_resizable hsize) (by omega) hcap
    have hbytes := bytes_capped (r := r) hnote (turnBounded config messages)
    have hresizable := resizable_le (turnBounded config messages)
    have hused := hcap.1.2
    rw [fixedBytes] at hroom hused
    omega

/-- **Context eviction.** For every list of messages whose tool results are texts below 2^30 bytes, every
    retention and every model window, eviction ends; it keeps the messages with their roles and calls, all
    that is no tool result and the text of errors; it leaves a result that is younger than the retained
    turns as it is unless the tool results are over the budget; and what it sends of tool results is
    within the budget whenever the part that cannot be resized leaves room for a note for each result
    that can. -/
theorem evictStaleToolResults_evicted (r : Runtime) (config : Config) (messages : List AgentMessage)
    (hsizes : ∀ message ∈ turnBounded config messages, toolResultTextBytes message < 1073741824) :
    ∃ output, (∃ steps, ∀ more, evictStaleToolResults r config messages (steps + more) = some output) ∧
      Evicted config messages output := by
  by_cases hopen : providerToolResultBudgetBytes config < toolBytes (turnBounded config messages) ∧
      (turnBounded config messages).filterMap resizableBytes? ≠ []
  · obtain ⟨cap, ⟨steps, hsteps⟩, hgreatest⟩ := fairCap_greatest (fun size hsize => resizable_lt hsizes hsize)
      (Int.natCast_nonneg (providerToolResultBudgetBytes config - fixedBytes (turnBounded config messages)))
    refine ⟨(turnBounded config messages).map (capMessage r cap), ⟨steps, fun more => ?_⟩,
      evicted_capped hopen.1 hopen.2 hgreatest⟩
    rw [evictStaleToolResults, if_pos hopen, hsteps, Option.map_some]
  · refine ⟨_, ⟨0, fun more => ?_⟩, evicted_uncapped hopen⟩
    rw [evictStaleToolResults, if_neg hopen]

/-- A model window with room for 1808 bytes of tool results. -/
def sampleConfig : Config := ⟨1, 12000, 2000⟩

/-- Two long results, the second of which answers the last call. -/
def oldResult : ToolResult := ⟨"run-1", "query_facts", [.text longNote], false, none⟩

def lastResult : ToolResult := ⟨"run-2", "query_facts", [.text longNote], false, some (.obj (noted "ok"))⟩

def sampleMessages : List AgentMessage :=
  [.toolResult oldResult, .other "assistant" .null, .toolResult lastResult]

def sampleStub : ToolResult :=
  { oldResult with content := [.text ("[上下文缓存已淘汰：query_facts / runId=run-1 / 3000 字节。" ++
    "事实仍在 Model Fact Plane；请用 query_facts 按 sourceRunId 查询。]")] }

theorem bytes_longNote {result : ToolResult} (h : result.content = [.text longNote]) :
    JsonDump.bytes result.text = 3000 := by
  have htext : result.text = longNote.toList := by
    rw [ToolResult.text, h, List.flatMap_singleton]
    rfl
  rw [htext]
  exact (congrArg JsonDump.bytes String.toList_ofList).trans (JsonDump.bytes_replicate 3000 rfl)

theorem turnBounded_sample : turnBounded sampleConfig sampleMessages =
    [.toolResult sampleStub, .other "assistant" .null, .toolResult lastResult] := by
  have hold : JsonDump.bytes oldResult.text = 3000 := bytes_longNote rfl
  have htext : stubText oldResult = "[上下文缓存已淘汰：query_facts / runId=run-1 / 3000 字节。" ++
      "事实仍在 Model Fact Plane；请用 query_facts 按 sourceRunId 查询。]" := by
    unfold stubText
    simp only [hold]
    decide +kernel
  have hlarge : ¬ (oldResult.isError = true ∨ JsonDump.bytes oldResult.text ≤ evictionMinBytes) := by
    rw [hold]
    simp [oldResult, evictionMinBytes]
  have hstub : stubToolResult (.toolResult oldResult) = .toolResult sampleStub := by
    rw [stubToolResult, if_neg hlarge, htext, sampleStub]
  have hother : stubToolResult (.other "assistant" .null) = .other "assistant" .null := rfl
  simp [turnBounded, sampleMessages, boundTurns, isAssistant, sampleConfig, hstub, hother]

theorem sample_evicted : toolBytes sampleMessages = 6000 ∧ ∃ output,
    (∃ steps, ∀ more, evictStaleToolResults plainRuntime sampleConfig sampleMessages (steps + more) = some output) ∧
      Evicted sampleConfig sampleMessages output ∧ toolBytes output ≤ 1808 := by
  have hold : JsonDump.bytes oldResult.text = 3000 := bytes_longNote rfl
  have hlast : JsonDump.bytes lastResult.text = 3000 := bytes_longNote rfl
  have hstub : JsonDump.bytes sampleStub.text = 147 := by decide +kernel
  have hresizable : (turnBounded sampleConfig sampleMessages).filterMap resizableBytes? = [3000] := by
    have hsize : resizableBytes? (.toolResult lastResult) = some 3000 := by
      rw [resizableBytes?, if_neg (by simp [lastResult]), hlast]
      rfl
    rw [turnBounded_sample, List.filterMap_cons_none rfl, List.filterMap_cons_none rfl,
      List.filterMap_cons_some hsize, List.filterMap_nil]
  have hsizes : ∀ message ∈ turnBounded sampleConfig sampleMessages,
      toolResultTextBytes message < 1073741824 := by
    simp [turnBounded_sample, toolResultTextBytes, hstub, hlast]
  obtain ⟨output, hends, hevicted⟩ :=
    evictStaleToolResults_evicted plainRuntime sampleConfig sampleMessages hsizes
  refine ⟨?_, output, hends, hevicted, hevicted.bound ?_⟩
  · simp [toolBytes, sampleMessages, toolResultTextBytes, hold, hlast]
  · have hnote : JsonDump.bytes limitNote.toList ≤ 1000 := by decide +kernel
    have hfixed : fixedBytes (turnBounded sampleConfig sampleMessages) = 147 := by
      rw [fixedBytes, hresizable, turnBounded_sample]
      simp [toolBytes, toolResultTextBytes, hstub, hlast]
    have hbudget : providerToolResultBudgetBytes sampleConfig = 1808 := by decide
    rw [hfixed, hresizable, hbudget, List.length_singleton]
    omega

end HuntWarden.ContextEviction
