import HuntWarden.Tools.WriteTool

/-! What a receipt may say. Between the controller and the helper lies a channel that can break at any
    point, so a lost answer leaves it open whether the write was performed. A receipt tells the truth if it
    is FAILED only where no write can have happened, and UNKNOWN wherever both are possible. -/

namespace HuntWarden.WriteTool

open Outcome Ssh Wire

/-! ### What can have happened -/

/-- What the helper made of a write. -/
inductive HelperOutcome where
  | notRun
  | refused
  | succeeded
  | interrupted (performed : Bool)
  deriving DecidableEq, Repr

def HelperOutcome.performed : HelperOutcome → Bool
  | .notRun | .refused => false
  | .succeeded => true
  | .interrupted performed => performed

variable (d : Decoding) (env : WriteEnv) (call : WriteCall) (ticket : ApprovalTicket)

/-- The request went out on a channel. -/
def sent : Bool := (env.prepare ticket).toOption.isSome && env.connection.toOption.isSome

/-- The envelope that arrived whole, if one did. -/
def arrived : Option Response :=
  match env.connection with
  | .error _ => none
  | .ok events =>
    match settle [] [] events with
    | .answered stdout => (parseWireResponse (d.json stdout) (requestId ticket)).toOption
    | _ => none

/-- The maintenance result of an envelope that is no error. -/
def maintenanceResult (response : Response) : Option Json :=
  if response.status = .error then none
  else (response.envelope.get? "maintenanceResult").filter Json.isRecord

/-- What the helper told of the write. -/
def told : Option Json :=
  if sent env ticket then (arrived d env ticket).bind maintenanceResult else none

def toldStatus : Option Json := (told d env ticket).bind (·.get? "status")

/-- The outcomes that are possible after what the controller has seen: nothing ran if nothing was sent, and
    what a whole answer tells is so. -/
structure Possible (h : HelperOutcome) : Prop where
  sent : sent env ticket = false → h = .notRun
  succeeded : toldStatus d env ticket = some (.str "SUCCEEDED") → h = .succeeded
  refused : toldStatus d env ticket = some (.str "FAILED") → h = .refused

/-- A write and no write are both possible. -/
def Uncertain : Prop :=
  (∃ h, Possible d env ticket h ∧ h.performed = true) ∧
    ∃ h, Possible d env ticket h ∧ h.performed = false

structure Truthful (status : ActionReceiptStatus) : Prop where
  succeeded : Possible d env ticket .succeeded → status ≠ .failed
  failed : status = .failed → ∀ h, Possible d env ticket h → h.performed = false
  uncertain : Uncertain d env ticket → status = .unknown

/-! ### When it tells the truth -/

/-- The channel was refused, the call aborted or timed out, or the helper answered with an error. -/
def EndsUncertain : Prop :=
  match env.connection with
  | .error _ => False
  | .ok events =>
    match settle [] [] events with
    | .refused _ | .aborted | .timedOut => True
    | .tooLarge | .silent _ _ => False
    | .answered stdout => ∃ response, parseWireResponse (d.json stdout) (requestId ticket) = .ok response ∧
        response.status = .error

/-- The first of the steps that fails, with its error. -/
def firstFailure (steps : List LocalStep) : Option Thrown := steps.findSome? env.fails

/-- The receipt of a write that was sent ends as it should: a told success is not overwritten by a local
    failure with a code that counts as definite; and without a told success or failure, the error counts as
    uncertain and its receipt can be written. -/
inductive EndsTruthfully : Prop where
  | notSent (h : sent env ticket = false)
  | refused (h : toldStatus d env ticket = some (.str "FAILED"))
  | succeeded (h : toldStatus d env ticket = some (.str "SUCCEEDED"))
      (hkept : ∀ error, firstFailure env [.checkpoint, .receipt, .modelResult, .finish, .audit] = some error →
        isUncertain error = true ∨ env.fails .caughtReceipt ≠ none)
  | unanswered (hsent : sent env ticket = true) (h : told d env ticket = none)
      (hends : EndsUncertain d env ticket) (hwritten : env.fails .caughtReceipt = none)
  | unclear (result : Json) (htold : told d env ticket = some result)
      (hsucceeded : toldStatus d env ticket ≠ some (.str "SUCCEEDED"))
      (hrefused : toldStatus d env ticket ≠ some (.str "FAILED"))
      (error : Thrown) (h : firstFailure env [.checkpoint, .receipt] = some error)
      (huncertain : isUncertain error = true) (hwritten : env.fails .caughtReceipt = none)

variable {c : Coercions} {d : Decoding} {digestObject : Json → String} {env : WriteEnv}
  {call : WriteCall} {ticket : ApprovalTicket}

/-! ### What the call comes to -/

theorem verb_mem (name : WriteToolName) : name.text ∈ maintenanceVerbs := by
  cases name <;> decide

/-- The call of a request that went out. -/
theorem remote_sent {events : List ChannelEvent} (hprepare : env.prepare ticket = .ok ())
    (hconnection : env.connection = .ok events) :
    remote c d env call ticket = (do
      let raw ← exec d (55000 + helperDeadlineHeadroomMs) 55000 events
      readAnswer c (d.json raw) (requestId ticket)) := by
  rw [remote, hprepare, hconnection, invokeMaintenanceV2, require,
    if_pos (decide_eq_true (verb_mem call.name))]
  rfl

theorem unsupported_definite {message : String} {e : Thrown} (h : unsupported message = e) :
    isUncertain e = false := by
  subst h
  rfl

theorem checkCollections_thrown {value : Json} {status : Status} {e : Thrown}
    (h : checkCollections value status = .error e) : isUncertain e = false := by
  simp only [checkCollections, bind_error, orThrow_error, require_error] at h
  rcases h with ⟨-, h⟩ | ⟨_, -, ⟨-, h⟩ | ⟨_, -, ⟨-, h⟩ | ⟨_, -, ⟨-, h⟩ | ⟨_, -, ⟨-, h⟩ | ⟨_, -, -, h⟩⟩⟩⟩⟩ <;>
    exact unsupported_definite h

theorem checkStatus_thrown {value : Json} {e : Thrown} (h : checkStatus value = .error e) :
    isUncertain e = false := by
  unfold checkStatus at h
  split at h
  · simp only [bind_error, require_error, pure, Except.pure, reduceCtorEq, and_false, exists_false,
      or_false] at h
    exact unsupported_definite h.2
  · simp only [bind_error, pure, Except.pure, reduceCtorEq, and_false, exists_false, or_false] at h
    exact checkCollections_thrown h
  · simp only [bind_error, pure, Except.pure, reduceCtorEq, and_false, exists_false, or_false] at h
    exact checkCollections_thrown h
  · cases h
    rfl

/-- No code of a malformed envelope counts as uncertain. -/
theorem parseWireResponse_thrown {raw : Option Json} {id : String} {e : Thrown}
    (h : parseWireResponse raw id = .error e) : isUncertain e = false := by
  simp only [parseWireResponse, bind_error, orThrow_error, require_error, pure, Except.pure,
    reduceCtorEq, and_false, exists_false, or_false] at h
  rcases h with ⟨-, h⟩ | ⟨value, -, ⟨-, h⟩ | ⟨_, -, ⟨-, h⟩ | ⟨cost, -, h⟩⟩⟩
  · exact unsupported_definite h
  · exact unsupported_definite h
  · exact unsupported_definite h
  · exact checkStatus_thrown h

theorem readAnswer_told {raw : Option Json} {id : String} {result : Json}
    (h : (parseWireResponse raw id).toOption.bind maintenanceResult = some result) :
    readAnswer c raw id = .ok result := by
  obtain ⟨response, hresponse, hresult⟩ := Option.bind_eq_some_iff.1 h
  have hparse : parseWireResponse raw id = .ok response := by
    cases hp : parseWireResponse raw id with
    | error e => rw [hp] at hresponse; cases hresponse
    | ok r => rw [hp] at hresponse; cases hresponse; rfl
  rw [maintenanceResult] at hresult
  split at hresult
  · cases hresult
  · rename_i hstatus
    rw [readAnswer, hparse]
    simp [bind, Except.bind, require, hstatus, orThrow, hresult]

/-- An answer that does not tell of the write is an error, and it counts as uncertain just when the
    envelope is an error itself. -/
theorem readAnswer_untold {raw : Option Json} {id : String}
    (h : (parseWireResponse raw id).toOption.bind maintenanceResult = none) :
    ∃ e, readAnswer c raw id = .error e ∧ (isUncertain e = true ↔
      ∃ response, parseWireResponse raw id = .ok response ∧ response.status = .error) := by
  cases hparse : parseWireResponse raw id with
  | error e =>
    refine ⟨e, by rw [readAnswer, hparse]; rfl, ?_⟩
    simp [parseWireResponse_thrown hparse]
  | ok response =>
    rw [hparse, Except.toOption, Option.bind_some, maintenanceResult] at h
    by_cases hstatus : response.status = .error
    · refine ⟨.security ⟨.recoveryUncertain, errorMessage c response.envelope,
        [("protocolCode", protocolCode response.envelope)]⟩, ?_, ?_⟩
      · rw [readAnswer, hparse]
        simp [bind, Except.bind, require, hstatus]
      · simp [isUncertain, uncertainCodes, hstatus]
    · rw [if_neg hstatus] at h
      refine ⟨unsupported "v2 maintenance 缺少 maintenanceResult", ?_, ?_⟩
      · rw [readAnswer, hparse]
        simp [bind, Except.bind, require, hstatus, orThrow, h]
      · simp [unsupported_definite rfl, hstatus]

theorem sent_iff : sent env ticket = true ↔
    env.prepare ticket = .ok () ∧ ∃ events, env.connection = .ok events := by
  rw [sent, Bool.and_eq_true]
  cases env.prepare ticket <;> cases env.connection <;> simp [Except.toOption]

theorem told_sent {events : List ChannelEvent} (hsent : sent env ticket = true)
    (hconnection : env.connection = .ok events) {stdout : List UInt8}
    (hsettle : settle [] [] events = .answered stdout) :
    told d env ticket =
      (parseWireResponse (d.json stdout) (requestId ticket)).toOption.bind maintenanceResult := by
  rw [told, if_pos hsent, arrived, hconnection]
  dsimp only
  rw [hsettle]

theorem remote_told {result : Json} (htold : told d env ticket = some result) :
    remote c d env call ticket = .ok result := by
  by_cases hsent : sent env ticket = true
  · obtain ⟨hprepare, events, hconnection⟩ := sent_iff.1 hsent
    cases hsettle : settle [] [] events with
    | answered stdout =>
      rw [told_sent hsent hconnection hsettle] at htold
      rw [remote_sent hprepare hconnection, exec, hsettle]
      exact readAnswer_told htold
    | _ =>
      rw [told, if_pos hsent, arrived, hconnection] at htold
      dsimp only at htold
      rw [hsettle] at htold
      cases htold
  · rw [told, if_neg hsent] at htold
    cases htold

/-- Without an answer that tells of the write, an error is thrown, and its code counts as uncertain in the
    cases of `EndsUncertain`. -/
theorem remote_untold (hsent : sent env ticket = true) (htold : told d env ticket = none) :
    ∃ e, remote c d env call ticket = .error e ∧
      (isUncertain e = true ↔ EndsUncertain d env ticket) := by
  obtain ⟨hprepare, events, hconnection⟩ := sent_iff.1 hsent
  rw [remote_sent hprepare hconnection, exec, EndsUncertain, hconnection]
  dsimp only
  cases hsettle : settle [] [] events with
  | answered stdout =>
    rw [told_sent hsent hconnection hsettle] at htold
    exact readAnswer_untold htold
  | _ => exact ⟨_, rfl, by simp [isUncertain, uncertainCodes, securityError]⟩

/-! ### How the receipt ends -/

/-- The receipt of the action, and its status. -/
def HasStatus (ticket : ApprovalTicket) (status : ActionReceiptStatus) (s : WriteStore) : Prop :=
  ∃ receipt, s.receipts.get? ticket.actionId = some receipt ∧ receipt.status = status

/-- How the body of the `try` ends: the error it throws, if any, and the status of the receipt by then. -/
def bodyEnd (env : WriteEnv) (call : WriteCall) (ticket : ApprovalTicket) :
    Except Thrown Json → Option Thrown × ActionReceiptStatus
  | .error e => (some e, .started)
  | .ok result =>
    match firstFailure env [.checkpoint, .receipt] with
    | some e => (some e, .started)
    | none =>
      if receiptStatus result = .succeeded then
        (firstFailure env [.modelResult, .finish, .audit], .succeeded)
      else (some (notSucceeded call ticket), .failed)

/-- The status after the `catch`. -/
def endStatus (env : WriteEnv) : Option Thrown × ActionReceiptStatus → ActionReceiptStatus
  | (none, status) => status
  | (some e, status) => if env.fails .caughtReceipt = none then caughtStatus e else status

theorem ensures_step {name : LocalStep} {body : WriteStore → WriteStore} {s : WriteStore}
    {returned : Unit → WriteStore → Prop} {thrown : Thrown → WriteStore → Prop} :
    Program.Ensures (env.step name body) s returned thrown ↔
      (env.fails name = none → returned () (body s)) ∧ ∀ e, env.fails name = some e → thrown e s := by
  rw [WriteEnv.step, Program.ensures_write]
  cases env.fails name <;> simp

theorem hasStatus_put {s : WriteStore} {receipt : ActionReceipt} (h : receipt.actionId = ticket.actionId) :
    HasStatus ticket receipt.status (s.putActionReceipt receipt) := by
  refine ⟨receipt, ?_, rfl⟩
  rw [← h]
  exact Table.get?_of_mem (Table.mem_put.2 (Or.inl rfl))

theorem settleReceipt_ends {s : WriteStore} (h : HasStatus ticket .started s) :
    Program.Ensures (settleReceipt c d env call ticket) s
      (fun _ s' => (bodyEnd env call ticket (remote c d env call ticket)).1 = none ∧
        HasStatus ticket (bodyEnd env call ticket (remote c d env call ticket)).2 s')
      (fun e s' => (bodyEnd env call ticket (remote c d env call ticket)).1 = some e ∧
        HasStatus ticket (bodyEnd env call ticket (remote c d env call ticket)).2 s') := by
  rw [settleReceipt, Program.ensures_bind, Program.ensures_reads]
  refine ⟨fun result hremote => ?_, fun e hremote => by rw [hremote]; exact ⟨rfl, h⟩⟩
  rw [hremote, Program.ensures_bind, ensures_step]
  refine ⟨fun hcheckpoint => ?_, fun e hcheckpoint => ?_⟩
  swap
  · have hend : bodyEnd env call ticket (.ok result) = (some e, .started) := by
      simp [bodyEnd, firstFailure, hcheckpoint]
    rw [hend]
    exact ⟨rfl, h⟩
  rw [Program.ensures_bind, ensures_step]
  refine ⟨fun hreceipt => ?_, fun e hreceipt => ?_⟩
  swap
  · have hend : bodyEnd env call ticket (.ok result) = (some e, .started) := by
      simp [bodyEnd, firstFailure, hcheckpoint, hreceipt]
    rw [hend]
    exact ⟨rfl, h⟩
  let receipt : ActionReceipt := { started call ticket with
    status := receiptStatus result, result := some result, finishedAt := some call.now }
  have hput : HasStatus ticket (receiptStatus result) ((id s).putActionReceipt receipt) :=
    @hasStatus_put ticket _ receipt rfl
  rw [Program.ensures_bind, Program.ensures_reads]
  by_cases hstatus : receiptStatus result = .succeeded
  · have hend : bodyEnd env call ticket (.ok result) =
        (firstFailure env [.modelResult, .finish, .audit], .succeeded) := by
      simp [bodyEnd, firstFailure, hcheckpoint, hreceipt, hstatus]
    have hkept : HasStatus ticket .succeeded ((id s).putActionReceipt receipt) := by
      rw [← hstatus]
      exact hput
    rw [hend]
    refine ⟨fun _ _ => ?_, fun e he => absurd hstatus (of_decide_eq_false (require_error.1 he).1)⟩
    rw [Program.ensures_bind, ensures_step]
    refine ⟨fun hmodel => ?_, fun e hmodel => ⟨by simp [firstFailure, hmodel], hkept⟩⟩
    rw [Program.ensures_bind, ensures_step]
    refine ⟨fun hfinish => ?_, fun e hfinish => ⟨by simp [firstFailure, hmodel, hfinish], hkept⟩⟩
    rw [Program.ensures_bind, ensures_step]
    refine ⟨fun haudit => ?_, fun e haudit => ⟨by simp [firstFailure, hmodel, hfinish, haudit], hkept⟩⟩
    exact Program.ensures_pure.2 ⟨by simp [firstFailure, hmodel, hfinish, haudit], hkept⟩
  · have hend : bodyEnd env call ticket (.ok result) = (some (notSucceeded call ticket), .failed) := by
      simp [bodyEnd, firstFailure, hcheckpoint, hreceipt, hstatus]
    have hfailed : receiptStatus result = .failed := by
      rw [receiptStatus] at hstatus ⊢
      split at hstatus
      · exact absurd rfl hstatus
      · rw [if_neg ‹_›]
    have hkept : HasStatus ticket .failed ((id s).putActionReceipt receipt) := by
      rw [← hfailed]
      exact hput
    rw [hend]
    refine ⟨fun _ hok => absurd (of_decide_eq_true (require_ok.1 hok)) hstatus, fun e he => ?_⟩
    exact ⟨congrArg some (require_error.1 he).2, hkept⟩

theorem recordFailure_ends {s : WriteStore} {status : ActionReceiptStatus} {e : Thrown}
    (h : HasStatus ticket status s) :
    Program.Ensures (recordFailure env call ticket e) s (fun _ _ => False)
      (fun _ s' => HasStatus ticket (endStatus env (some e, status)) s') := by
  rw [recordFailure, Program.ensures_bind, ensures_step]
  refine ⟨fun hwritten => ?_, fun e' hfails => ?_⟩
  · let receipt : ActionReceipt := { started call ticket with
      status := caughtStatus e
      result := some (.obj [("error", .str (message e))])
      finishedAt := some call.now }
    have hput : HasStatus ticket (caughtStatus e) (s.putActionReceipt receipt) :=
      @hasStatus_put ticket _ receipt rfl
    rw [endStatus, if_pos hwritten, Program.ensures_bind, ensures_step]
    refine ⟨fun _ => ?_, fun _ _ => hput⟩
    rw [Program.ensures_throw]
    split
    · split
      · exact hput
      · exact hput
    · exact hput
  · rw [endStatus, if_neg (by rw [hfails]; exact Option.some_ne_none e')]
    exact h

/-- The receipt of an authorized write, when the call is over. -/
theorem execute_ends {s : WriteStore} {approvals : ApprovalStore}
    (hauthorized : ApprovalService.authorizeWrite digestObject s.approvals call.now call.allowedTools
      call.task call.name.text call.args = .ok (approvals, ticket))
    (hstarted : env.fails .started = none) :
    HasStatus ticket (endStatus env (bodyEnd env call ticket (remote c d env call ticket)))
      ((execute c d digestObject env call).run s).2 := by
  have hticket : ∀ body : WriteStore → Except Thrown (ApprovalTicket × WriteStore),
      body s = .ok (ticket, { s with approvals }) →
        (Program.update body).run s = (.ok ticket, { s with approvals }) :=
    fun _ => Program.update_returned
  have hput : (env.step .started (·.putActionReceipt (started call ticket))).run { s with approvals } =
      (.ok (), { s with approvals }.putActionReceipt (started call ticket)) := by
    refine Program.write_returned ?_
    rw [hstarted]
  rw [execute, Program.bind_returned (hticket _ (by rw [hauthorized]; rfl)), Program.bind_returned hput]
  have hsettled := @settleReceipt_ends c d env call ticket _
    (@hasStatus_put ticket { s with approvals } (started call ticket) rfl)
  refine Program.Ensures.state (Program.ensures_onError.2 (hsettled.mono ?_ ?_))
  · rintro _ s' ⟨hnone, hstatus⟩
    rwa [← Prod.eta (bodyEnd env call ticket _), hnone, endStatus]
  · rintro e s' ⟨hsome, hstatus⟩
    rw [← Prod.eta (bodyEnd env call ticket _), hsome]
    exact (recordFailure_ends hstatus).mono (fun _ _ h => h.elim) fun _ _ h => h

/-! ### The truth of the receipt -/

theorem possible_of_notSent (h : sent env ticket = false) {outcome : HelperOutcome} :
    Possible d env ticket outcome ↔ outcome = .notRun := by
  have htold : toldStatus d env ticket = none := by
    rw [toldStatus, told, h]
    rfl
  constructor
  · intro hpossible
    exact hpossible.sent h
  · rintro rfl
    refine ⟨fun _ => rfl, fun hs => ?_, fun hs => ?_⟩
    · rw [htold] at hs
      cases hs
    · rw [htold] at hs
      cases hs

theorem sent_of_toldStatus {status : Json} (h : toldStatus d env ticket = some status) :
    sent env ticket = true := by
  by_contra hsent
  rw [toldStatus, told, if_neg hsent] at h
  cases h

theorem possible_of_refused (h : toldStatus d env ticket = some (.str "FAILED")) {outcome : HelperOutcome} :
    Possible d env ticket outcome ↔ outcome = .refused := by
  constructor
  · intro hpossible
    exact hpossible.refused h
  · rintro rfl
    refine ⟨fun hs => ?_, fun hs => ?_, fun _ => rfl⟩
    · rw [sent_of_toldStatus h] at hs
      cases hs
    · simp [h] at hs

theorem possible_of_succeeded (h : toldStatus d env ticket = some (.str "SUCCEEDED"))
    {outcome : HelperOutcome} : Possible d env ticket outcome ↔ outcome = .succeeded := by
  constructor
  · intro hpossible
    exact hpossible.succeeded h
  · rintro rfl
    refine ⟨fun hs => ?_, fun _ => rfl, fun hs => ?_⟩
    · rw [sent_of_toldStatus h] at hs
      cases hs
    · simp [h] at hs

/-- Anything can have happened when the request went out and no answer told. -/
theorem possible_of_open (hsent : sent env ticket = true)
    (hsucceeded : toldStatus d env ticket ≠ some (.str "SUCCEEDED"))
    (hrefused : toldStatus d env ticket ≠ some (.str "FAILED")) (outcome : HelperOutcome) :
    Possible d env ticket outcome :=
  ⟨fun h => absurd (hsent.symm.trans h) (by decide), fun h => absurd h hsucceeded,
    fun h => absurd h hrefused⟩

/-- Where it is certain that nothing was written, any status is true. -/
theorem truthful_of_certain {status : ActionReceiptStatus}
    (h : ∀ outcome, Possible d env ticket outcome → outcome.performed = false) :
    Truthful d env ticket status where
  succeeded hp := by cases h _ hp
  failed _ := h
  uncertain hu := by
    obtain ⟨⟨outcome, hp, hperformed⟩, -⟩ := hu
    rw [h outcome hp] at hperformed
    cases hperformed

/-- Where it is certain that the helper wrote, FAILED is the one false status. -/
theorem truthful_of_succeeded {status : ActionReceiptStatus}
    (h : toldStatus d env ticket = some (.str "SUCCEEDED")) :
    Truthful d env ticket status ↔ status ≠ .failed := by
  constructor
  · intro ht
    exact ht.succeeded ((possible_of_succeeded h).2 rfl)
  · intro hstatus
    refine ⟨fun _ => hstatus, fun hf => absurd hf hstatus, fun hu => ?_⟩
    obtain ⟨-, outcome, hp, hperformed⟩ := hu
    rw [(possible_of_succeeded h).1 hp] at hperformed
    cases hperformed

/-- Where both are possible, UNKNOWN is the one true status. -/
theorem truthful_of_open {status : ActionReceiptStatus} (hsent : sent env ticket = true)
    (hsucceeded : toldStatus d env ticket ≠ some (.str "SUCCEEDED"))
    (hrefused : toldStatus d env ticket ≠ some (.str "FAILED")) :
    Truthful d env ticket status ↔ status = .unknown := by
  have hpossible := possible_of_open hsent hsucceeded hrefused
  constructor
  · intro ht
    exact ht.uncertain ⟨⟨.succeeded, hpossible _, rfl⟩, .notRun, hpossible _, rfl⟩
  · rintro rfl
    exact ⟨fun _ => by simp, fun h => (nomatch h), fun _ => rfl⟩

theorem caughtStatus_eq_unknown {e : Thrown} : caughtStatus e = .unknown ↔ isUncertain e = true := by
  rw [caughtStatus]
  split <;> simp [*]

theorem caughtStatus_ne_failed {e : Thrown} : caughtStatus e ≠ .failed ↔ isUncertain e = true := by
  rw [caughtStatus]
  split <;> simp [*]

theorem firstFailure_append (env : WriteEnv) (steps steps' : List LocalStep) :
    firstFailure env (steps ++ steps') = (firstFailure env steps).or (firstFailure env steps') :=
  List.findSome?_append

theorem endStatus_succeeded {result : Json} (h : result.get? "status" = some (.str "SUCCEEDED")) :
    endStatus env (bodyEnd env call ticket (.ok result)) ≠ .failed ↔
      ∀ error, firstFailure env [.checkpoint, .receipt, .modelResult, .finish, .audit] = some error →
        isUncertain error = true ∨ env.fails .caughtReceipt ≠ none := by
  have hstatus : receiptStatus result = .succeeded := by rw [receiptStatus, if_pos h]
  have hsplit := firstFailure_append env [.checkpoint, .receipt] [.modelResult, .finish, .audit]
  rw [List.cons_append, List.cons_append, List.nil_append] at hsplit
  rw [hsplit, bodyEnd, if_pos hstatus]
  have hcaught : ∀ (e : Thrown) (status : ActionReceiptStatus), status ≠ .failed →
      (endStatus env (some e, status) ≠ .failed ↔
        isUncertain e = true ∨ env.fails .caughtReceipt ≠ none) := by
    intro e status hne
    rw [endStatus]
    split
    · rename_i hwritten
      rw [caughtStatus_ne_failed, hwritten]
      simp
    · rename_i hwritten
      exact iff_of_true hne (Or.inr hwritten)
  cases hbefore : firstFailure env [.checkpoint, .receipt] with
  | some e => simp [hcaught e .started (by simp)]
  | none =>
    cases hafter : firstFailure env [.modelResult, .finish, .audit] with
    | some e => simp [hcaught e .succeeded (by simp)]
    | none => simp [endStatus]

theorem endStatus_thrown {e : Thrown} : endStatus env (bodyEnd env call ticket (.error e)) = .unknown ↔
    isUncertain e = true ∧ env.fails .caughtReceipt = none := by
  rw [bodyEnd, endStatus]
  split
  · rename_i hwritten
    rw [caughtStatus_eq_unknown]
    simp [hwritten]
  · rename_i hwritten
    simp [hwritten]

theorem endStatus_unclear {result : Json} (h : result.get? "status" ≠ some (.str "SUCCEEDED")) :
    endStatus env (bodyEnd env call ticket (.ok result)) = .unknown ↔
      ∃ error, firstFailure env [.checkpoint, .receipt] = some error ∧ isUncertain error = true ∧
        env.fails .caughtReceipt = none := by
  have hstatus : receiptStatus result = .failed := by rw [receiptStatus, if_neg h]
  rw [bodyEnd]
  cases hbefore : firstFailure env [.checkpoint, .receipt] with
  | some e =>
    have hthrown := @endStatus_thrown env call ticket e
    rw [bodyEnd] at hthrown
    simpa using hthrown
  | none =>
    have hdefinite : caughtStatus (notSucceeded call ticket) = .failed := rfl
    simp [hstatus, endStatus, hdefinite]

/-- The receipt of an authorized write tells the truth exactly when it ends truthfully. -/
theorem receipts_tell_truth (c : Coercions) (d : Decoding) (digestObject : Json → String)
    (env : WriteEnv) (call : WriteCall) (ticket : ApprovalTicket) (s : WriteStore)
    (approvals : ApprovalStore)
    (hauthorized : ApprovalService.authorizeWrite digestObject s.approvals call.now call.allowedTools
      call.task call.name.text call.args = .ok (approvals, ticket))
    (hstarted : env.fails .started = none) :
    (∃ receipt, ((execute c d digestObject env call).run s).2.receipts.get? ticket.actionId =
        some receipt ∧ Truthful d env ticket receipt.status) ↔ EndsTruthfully d env ticket := by
  obtain ⟨receipt, hget, hstatus⟩ := @execute_ends c d _ env call ticket s approvals hauthorized hstarted
  have hiff : (∃ receipt, ((execute c d digestObject env call).run s).2.receipts.get? ticket.actionId =
      some receipt ∧ Truthful d env ticket receipt.status) ↔ Truthful d env ticket
        (endStatus env (bodyEnd env call ticket (remote c d env call ticket))) := by
    rw [hget, ← hstatus]
    simp
  rw [hiff]
  by_cases hsent : sent env ticket = true
  swap
  · have hnotSent : sent env ticket = false := by rw [← Bool.not_eq_true]; exact hsent
    refine iff_of_true (truthful_of_certain fun outcome hp => ?_) (.notSent hnotSent)
    rw [(possible_of_notSent hnotSent).1 hp]
    rfl
  by_cases hrefused : toldStatus d env ticket = some (.str "FAILED")
  · refine iff_of_true (truthful_of_certain fun outcome hp => ?_) (.refused hrefused)
    rw [(possible_of_refused hrefused).1 hp]
    rfl
  cases htold : told d env ticket with
  | none =>
    have hnone : toldStatus d env ticket = none := by rw [toldStatus, htold]; rfl
    obtain ⟨e, hremote, huncertain⟩ := @remote_untold c d env call ticket hsent htold
    rw [truthful_of_open hsent (by simp [hnone]) hrefused, hremote, endStatus_thrown, huncertain]
    constructor
    · rintro ⟨hends, hwritten⟩
      exact .unanswered hsent htold hends hwritten
    · rintro (h | h | ⟨h, -⟩ | ⟨-, -, hends, hwritten⟩ | ⟨result, h, -⟩)
      · rw [hsent] at h; cases h
      · exact absurd h hrefused
      · rw [hnone] at h; cases h
      · exact ⟨hends, hwritten⟩
      · rw [htold] at h; cases h
  | some result =>
    have hresult : toldStatus d env ticket = result.get? "status" := by rw [toldStatus, htold]; rfl
    rw [remote_told htold]
    by_cases hsucceeded : toldStatus d env ticket = some (.str "SUCCEEDED")
    · rw [truthful_of_succeeded hsucceeded, endStatus_succeeded (hresult ▸ hsucceeded)]
      constructor
      · intro hkept
        exact .succeeded hsucceeded hkept
      · rintro (h | h | ⟨-, hkept⟩ | ⟨-, h, -⟩ | ⟨_, -, h, -⟩)
        · rw [hsent] at h; cases h
        · exact absurd h hrefused
        · exact hkept
        · rw [htold] at h; cases h
        · exact absurd hsucceeded h
    · rw [truthful_of_open hsent hsucceeded hrefused, endStatus_unclear (hresult ▸ hsucceeded)]
      constructor
      · rintro ⟨error, hfirst, huncertain, hwritten⟩
        exact .unclear result htold hsucceeded hrefused error hfirst huncertain hwritten
      · rintro (h | h | ⟨h, -⟩ | ⟨-, h, -⟩ | ⟨_, -, -, -, error, hfirst, huncertain, hwritten⟩)
        · rw [hsent] at h; cases h
        · exact absurd h hrefused
        · exact absurd h hsucceeded
        · rw [htold] at h; cases h
        · exact ⟨error, hfirst, huncertain, hwritten⟩

/-! ### Writes on concrete input -/

def sampleTask : TaskContext :=
  ⟨"TASK-1", "SHA256:host", .remediate, .running, some 2, some "EPOCH-1", none⟩

def sampleCall : WriteCall where
  name := .disable_account
  label := "禁用已观察账户"
  allowedTools := ["disable_account"]
  task := sampleTask
  epochId := "EPOCH-1"
  toolCallId := "CALL-1"
  args := .obj [("accountRef", .str "OBJ-1")]
  now := 1

def approvedTicket : ApprovalTicket where
  approvalId := "APR-1"
  taskId := "TASK-1"
  epochId := some "EPOCH-1"
  targetFingerprint := "SHA256:host"
  tool := "disable_account"
  argsDigest := "digest"
  actionId := "ACT-1"
  status := .approved
  createdAt := 0

def consumedTicket : ApprovalTicket := ApprovalStore.withStatus 1 .consumed approvedTicket

def approvedStore : WriteStore where
  approvals := ⟨Table.empty.put sampleTask, IndexedTable.empty.replace approvedTicket, .empty⟩
  runs := .empty
  receipts := .empty

theorem approvedStore_authorized :
    ApprovalService.authorizeWrite (fun _ => "digest") approvedStore.approvals sampleCall.now
      sampleCall.allowedTools sampleCall.task sampleCall.name.text sampleCall.args =
    .ok ({ approvedStore.approvals with
      approvals := approvedStore.approvals.approvals.replace consumedTicket }, consumedTicket) := by
  rfl

def answerText : String :=
  "\x7b\"protocolVersion\":2,\"requestId\":\"ACT-1:WRITE\",\"status\":\"SUCCESS\"," ++
  "\"objects\":[],\"edges\":[],\"gaps\":[]," ++
  "\"maintenanceResult\":\x7b\"actionId\":\"ACT-1\",\"status\":\"SUCCEEDED\"\x7d," ++
  "\"cost\":\x7b\"remoteCalls\":1,\"nodes\":1,\"bytes\":0,\"wallTimeMs\":40,\"probeCalls\":0\x7d\x7d"

def answerJson : Json := .obj [
  ("protocolVersion", .num 2), ("requestId", .str "ACT-1:WRITE"), ("status", .str "SUCCESS"),
  ("objects", .arr []), ("edges", .arr []), ("gaps", .arr []),
  ("maintenanceResult", .obj [("actionId", .str "ACT-1"), ("status", .str "SUCCEEDED")]),
  ("cost", .obj [("remoteCalls", .num 1), ("nodes", .num 1), ("bytes", .num 0),
    ("wallTimeMs", .num 40), ("probeCalls", .num 0)])]

/-- The bytes of an ASCII text. -/
def asciiBytes (text : String) : List UInt8 := text.toList.map fun ch => UInt8.ofNat ch.toNat

def sampleDecoding : Decoding where
  json bytes := if bytes = asciiBytes answerText then some answerJson else none
  detail _ := ""

def sampleEnv (events : List ChannelEvent) (fails : LocalStep → Option Thrown) : WriteEnv where
  prepare _ := .ok ()
  connection := .ok events
  fails
  modelToolResult details := details

/-- The helper answers that it has written. -/
def answered : List ChannelEvent := [.data (asciiBytes answerText), .close (some 0)]

theorem answerText_length : (asciiBytes answerText).length = 238 := by
  rw [asciiBytes, List.length_map, String.length_toList]
  unfold answerText
  simp only [String.length_append]
  decide +kernel

theorem answered_told (fails : LocalStep → Option Thrown) :
    toldStatus sampleDecoding (sampleEnv answered fails) consumedTicket = some (.str "SUCCEEDED") := by
  have hshort : ¬ maxOutputBytes < (asciiBytes answerText).length := by
    rw [answerText_length]
    decide
  have hwhole : settle [] [] answered = .answered (asciiBytes answerText) := by
    rw [answered, settle, List.nil_append, if_neg hshort]
    rfl
  have hparsed : ((parseWireResponse (some answerJson) (requestId consumedTicket)).toOption.bind
      maintenanceResult).bind (·.get? "status") = some (.str "SUCCEEDED") := by decide
  have hconnection : (sampleEnv answered fails).connection = .ok answered := rfl
  rw [toldStatus, told_sent rfl hconnection hwhole, sampleDecoding]
  dsimp only
  rw [if_pos rfl]
  exact hparsed

theorem receipts_tell_truth_sample :
    ∃ receipt, ((execute Js.plainCoercions sampleDecoding (fun _ => "digest")
        (sampleEnv answered fun _ => none) sampleCall).run approvedStore).2.receipts.get? "ACT-1" =
      some receipt ∧ Truthful sampleDecoding (sampleEnv answered fun _ => none) consumedTicket
        receipt.status :=
  (receipts_tell_truth Js.plainCoercions sampleDecoding (fun _ => "digest")
    (sampleEnv answered fun _ => none) sampleCall consumedTicket approvedStore _
    approvedStore_authorized rfl).2 (.succeeded (answered_told _) fun _ h => nomatch h)

/-- The connection is lost while the helper is at work. -/
def lost : List ChannelEvent := [.close none]

/-- The audit of a write that the helper has reported as done cannot be stored. -/
def auditFails : LocalStep → Option Thrown
  | .audit => some (.native "disk full")
  | _ => none

/-- The status the receipt of the action ends with. -/
def finalStatus (env : WriteEnv) : Option ActionReceiptStatus :=
  (((execute Js.plainCoercions sampleDecoding (fun _ => "digest") env sampleCall).run
    approvedStore).2.receipts.get? "ACT-1").map (·.status)

theorem finalStatus_ends {env : WriteEnv} (h : env.fails .started = none) :
    finalStatus env = some (endStatus env (bodyEnd env sampleCall consumedTicket
      (remote Js.plainCoercions sampleDecoding env sampleCall consumedTicket))) := by
  obtain ⟨receipt, hget, hstatus⟩ := @execute_ends Js.plainCoercions sampleDecoding (fun _ => "digest") env
    sampleCall consumedTicket approvedStore _ approvedStore_authorized h
  rw [← hstatus, ← Option.map_some, ← hget]
  rfl

/-- Both receipts end FAILED, of a write that may have happened and of one that has. -/
theorem failed_receipt_untrue :
    (finalStatus (sampleEnv lost fun _ => none) = some .failed ∧
      Uncertain sampleDecoding (sampleEnv lost fun _ => none) consumedTicket ∧
      ¬ Truthful sampleDecoding (sampleEnv lost fun _ => none) consumedTicket .failed) ∧
    (finalStatus (sampleEnv answered auditFails) = some .failed ∧
      toldStatus sampleDecoding (sampleEnv answered auditFails) consumedTicket =
        some (.str "SUCCEEDED") ∧
      ¬ Truthful sampleDecoding (sampleEnv answered auditFails) consumedTicket .failed) := by
  have hnone : toldStatus sampleDecoding (sampleEnv lost fun _ => none) consumedTicket = none := rfl
  have hopen := @possible_of_open sampleDecoding (sampleEnv lost fun _ => none) consumedTicket rfl
    (by simp [hnone]) (by simp [hnone])
  have htold := answered_told auditFails
  have hfailed : finalStatus (sampleEnv answered auditFails) = some .failed := by
    obtain ⟨result, hresult, hsucceeded⟩ := Option.bind_eq_some_iff.1 htold
    rw [finalStatus_ends rfl, remote_told hresult, bodyEnd, receiptStatus, if_pos hsucceeded]
    rfl
  refine ⟨⟨by decide, ⟨⟨.succeeded, hopen _, rfl⟩, .notRun, hopen _, rfl⟩, fun ht => ?_⟩,
    hfailed, htold, fun ht => ?_⟩
  · exact ht.succeeded (hopen _) rfl
  · exact ht.succeeded ((possible_of_succeeded htold).2 rfl) rfl

end HuntWarden.WriteTool
