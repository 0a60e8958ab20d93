import OttiliCoder.Library.Handlers
import OttiliCoder.Runtime.Engine

/-! How the rounds of a turn go: which responses the provider returns, and whether the
engine returns. -/

namespace OttiliCoder.AgentTurnEngine
open Host Transaction

/-! One await. -/

theorem await_ok {α : Type} {answer : Answer α} {value : α} (world : TurnWorld) (answered : answer.outcome = .ok value) :
    await answer world = .ok value { world with
      store := performAll Call.perform answer.meanwhile world.store, aborted := answer.aborted } := by
  unfold await
  simp only [answered]
  rfl

theorem await_error {α : Type} {answer : Answer α} {error : TurnError} (world : TurnWorld)
    (failed : answer.outcome = .error error) :
    await answer world = .error error { world with
      store := performAll Call.perform answer.meanwhile world.store, aborted := answer.aborted } := by
  unfold await
  simp only [failed]
  rfl

/-- The world once a tool has been run. -/
def ran (call : ToolCall) (answer : Answer ToolResult) (world : TurnWorld) : TurnWorld :=
  { world with
    store := performAll Call.perform answer.meanwhile world.store
    aborted := answer.aborted
    acts := world.acts ++ [.ran call answer] }

@[simp] theorem ran_aborted (call : ToolCall) (answer : Answer ToolResult) (world : TurnWorld) :
    (ran call answer world).aborted = answer.aborted := rfl

theorem execute_ok {answer : Answer ToolResult} {result : ToolResult} (call : ToolCall) (world : TurnWorld)
    (answered : answer.outcome = .ok result) : execute answer call world = .ok result (ran call answer world) :=
  bind_ok.mpr ⟨(), _, rfl, await_ok _ answered⟩

theorem execute_error {answer : Answer ToolResult} {error : TurnError} (call : ToolCall) (world : TurnWorld)
    (failed : answer.outcome = .error error) : execute answer call world = .error error (ran call answer world) := by
  unfold execute
  have noted : (modify fun world : TurnWorld => { world with acts := world.acts ++ [.ran call answer] } : TurnM PUnit) world =
      .ok () { world with acts := world.acts ++ [.ran call answer] } := rfl
  rw [bind_returned noted]
  exact await_error _ failed

theorem throwIfAborted_running {world : TurnWorld} (running : world.aborted = none) :
    throwIfAborted world = .ok () world := by
  unfold throwIfAborted
  rw [bind_returned (rfl : (get : TurnM TurnWorld) world = .ok world world), running]
  rfl

theorem throwIfAborted_stopped {world : TurnWorld} {reason : TurnError} (stopped : world.aborted = some reason) :
    throwIfAborted world = .error reason world := by
  unfold throwIfAborted
  rw [bind_returned (rfl : (get : TurnM TurnWorld) world = .ok world world), stopped]
  rfl

/-- Nothing but a new round adds a request or a response. -/
def SameExchanges (world world' : TurnWorld) : Prop :=
  world'.requests = world.requests ∧ world'.responses = world.responses

instance : IsPreorder TurnWorld SameExchanges where
  refl _ := ⟨rfl, rfl⟩
  trans _ _ _ first second := ⟨second.1.trans first.1, second.2.trans first.2⟩

section Frame
variable {rel : TurnWorld → TurnWorld → Prop} [IsPreorder TurnWorld rel] {tools : List ProviderTool} {maxToolCalls : Nat}

theorem within_throwIfAborted (world : TurnWorld) : Within rel throwIfAborted world := by
  unfold throwIfAborted
  apply Within.get
  split
  · exact Within.throw _
  · exact Within.pure _

theorem within_toolFailed (progress : TurnProgress) (call : ToolCall) (error : TurnError) (world : TurnWorld) :
    Within rel (toolFailed progress call error) world := by
  cases error with
  | approvalRequired approvalId => exact Within.throw _
  | _ =>
    apply Within.get
    apply Within.ite
    · exact fun _ => Within.throw _
    · exact fun _ => Within.pure _

/-- Whatever every run of a tool keeps, the calls of a response keep. -/
theorem within_executeTool {answer : Answer ToolResult} (kept : ∀ call world, Within rel (execute answer call) world)
    (progress : TurnProgress) (call : ToolCall) (world : TurnWorld) : Within rel (executeTool answer progress call) world := by
  unfold executeTool
  apply Within.tryCatch
  · apply (kept call world).bind
    intro result world' _
    apply (within_throwIfAborted world').bind
    exact fun _ _ _ => Within.pure _
  · exact fun error world' _ => within_toolFailed _ call error world'

theorem within_callTool {answer : Answer ToolResult} (kept : ∀ call world, Within rel (execute answer call) world)
    (progress : TurnProgress) (call : ToolCall) (world : TurnWorld) :
    Within rel (callTool tools maxToolCalls answer progress call) world := by
  unfold callTool
  apply (within_throwIfAborted world).bind
  intro _ world' _
  apply Within.ite
  · exact fun _ => Within.throw _
  · intro _
    apply Within.ite
    · exact fun _ => within_executeTool kept _ call world'
    · exact fun _ => Within.pure _

theorem within_callTools {answers : Nat → Answer ToolResult} (kept : ∀ place call world, Within rel (execute (answers place) call) world)
    (place : Nat) (calls : List ToolCall) (progress : TurnProgress) (world : TurnWorld) :
    Within rel (callTools tools maxToolCalls answers place calls progress) world := by
  induction calls generalizing place progress world with
  | nil => exact Within.pure _
  | cons call calls ih =>
    apply (within_callTool (kept place) progress call world).bind
    exact fun progress' world' _ => ih _ _ _

end Frame

theorem execute_sameExchanges (answer : Answer ToolResult) (call : ToolCall) (world : TurnWorld) :
    Within SameExchanges (execute answer call) world := by
  unfold Within
  cases answered : answer.outcome with
  | ok value =>
    rw [after_ok (execute_ok call world answered)]
    exact ⟨rfl, rfl⟩
  | error error =>
    rw [after_error (execute_error call world answered)]
    exact ⟨rfl, rfl⟩

theorem callTools_sameExchanges (tools : List ProviderTool) (maxToolCalls : Nat) (answers : Nat → Answer ToolResult) (place : Nat)
    (calls : List ToolCall) (progress : TurnProgress) (world : TurnWorld) :
    SameExchanges world (after (callTools tools maxToolCalls answers place calls progress) world) :=
  within_callTools (fun place => execute_sameExchanges (answers place)) place calls progress world

/-! The conditions a round meets, read off the answers. -/

section Rounds
variable (tools : List ProviderTool) (maxToolCalls : Nat)

/-- A tool that neither waits for an approval nor outlives the signal lets the turn go on. -/
def settles (answer : Answer ToolResult) : Bool :=
  answer.aborted.isNone && match answer.outcome with
    | .error (.approvalRequired _) => false
    | _ => true

def allSettle (answers : Nat → Answer ToolResult) : Nat → List ToolCall → Bool
  | _, [] => true
  | place, call :: calls =>
    (!tools.any (·.name == call.name) || settles (answers place)) && allSettle answers (place + 1) calls

/-- The response has tool calls, within the limit, and all of them settle. -/
def continues (exchange : Exchange) (toolCount : Nat) : Bool :=
  exchange.response.aborted.isNone && match exchange.response.outcome with
    | .error _ => false
    | .ok response => !response.calls.isEmpty && decide (toolCount + response.calls.length ≤ maxToolCalls) &&
        allSettle tools exchange.tools 0 response.calls

/-- The response has no tool calls, and the signal is not aborted. -/
def completes (exchange : Exchange) : Bool :=
  exchange.response.aborted.isNone && match exchange.response.outcome with
    | .error _ => false
    | .ok response => response.calls.isEmpty

def callCount (exchange : Exchange) : Nat :=
  match exchange.response.outcome with
  | .error _ => 0
  | .ok response => response.calls.length

/-- The responses the provider returns. -/
def returned : Nat → (Nat → Exchange) → Nat → List ProviderTurnResponse
  | 0, _, _ => []
  | rounds + 1, exchanges, toolCount =>
    match (exchanges 0).response.outcome with
    | .error _ => []
    | .ok response => response ::
        if continues tools maxToolCalls (exchanges 0) toolCount then
          returned rounds (fun later => exchanges (later + 1)) (toolCount + callCount (exchanges 0))
        else []

/-- A response without tool calls comes before anything stops the turn. -/
def finishes : Nat → (Nat → Exchange) → Nat → Bool
  | 0, _, _ => false
  | rounds + 1, exchanges, toolCount =>
    completes (exchanges 0) || (continues tools maxToolCalls (exchanges 0) toolCount &&
      finishes rounds (fun later => exchanges (later + 1)) (toolCount + callCount (exchanges 0)))

attribute [grind =] allSettle continues completes returned finishes

end Rounds

/-! The calls of one response. -/

/-- A tool message tells what came of a call. -/
def Tells (execution : ToolExecutionEvent) (message : RuntimeMessage) : Prop :=
  ∃ content, message = toolMessage execution.call content ∧ match execution.outcome with
    | .ok result => content = result.output
    | .error error => content = error ∨ content = "Tool failed: " ++ error

theorem tells_failed (call : ToolCall) (error : String) :
    Tells { call := call, outcome := .error error } (toolMessage call ("Tool failed: " ++ error)) := ⟨_, rfl, Or.inr rfl⟩

theorem tells_unknown (call : ToolCall) (error : String) :
    Tells { call := call, outcome := .error error } (toolMessage call error) := ⟨_, rfl, Or.inl rfl⟩

/-- What answering one call does to the turn, its count apart. -/
structure Reported (call : ToolCall) (progress progress' : TurnProgress) : Prop where
  usage : progress'.usage = progress.usage
  record : ∃ execution message, execution.call = call ∧ Tells execution message ∧
    progress'.toolExecutions = progress.toolExecutions ++ [execution] ∧ progress'.messages = progress.messages ++ [message]

/-- What answering some calls does to the turn. -/
structure Answered (calls : List ToolCall) (progress progress' : TurnProgress) (world' : TurnWorld) : Prop where
  running : world'.aborted = none
  toolCount : progress'.toolCount = progress.toolCount + calls.length
  usage : progress'.usage = progress.usage
  /-- Each call gets a record, and a tool message that tells of it. -/
  records : ∃ executions messages, executions.map ToolExecutionEvent.call = calls ∧ List.Forall₂ Tells executions messages ∧
    progress'.toolExecutions = progress.toolExecutions ++ executions ∧ progress'.messages = progress.messages ++ messages

theorem tells_messages {executions : List ToolExecutionEvent} {messages : List RuntimeMessage}
    (told : List.Forall₂ Tells executions messages) :
    ∃ results : List String, results.length = executions.length ∧
      messages = List.zipWith toolMessage (executions.map ToolExecutionEvent.call) results := by
  induction told with
  | nil => exact ⟨[], rfl, rfl⟩
  | cons tells _ ih =>
    obtain ⟨content, rfl, -⟩ := tells
    obtain ⟨results, length, rfl⟩ := ih
    exact ⟨content :: results, congrArg (· + 1) length, rfl⟩

/-- Each call gets a tool message with its id. -/
theorem Answered.messages {calls : List ToolCall} {progress progress' : TurnProgress} {world' : TurnWorld}
    (answered : Answered calls progress progress' world') : ∃ results : List String, results.length = calls.length ∧
      progress'.messages = progress.messages ++ List.zipWith toolMessage calls results := by
  obtain ⟨executions, messages, rfl, told, -, added⟩ := answered.records
  obtain ⟨results, length, rfl⟩ := tells_messages told
  exact ⟨results, length.trans (List.length_map _).symm, added⟩

section Calls
variable {tools : List ProviderTool} {maxToolCalls : Nat} {answer : Answer ToolResult} {answers : Nat → Answer ToolResult}
  {progress : TurnProgress} {world : TurnWorld} {call : ToolCall}

theorem toolFailed_other {error : TurnError} (other : ∀ approvalId, error ≠ .approvalRequired approvalId) :
    toolFailed progress call error = (do
      let world ← get
      if world.aborted.isSome then throw error
      else return { progress with
        toolExecutions := progress.toolExecutions ++ [{ call := call, outcome := .error (toolFailureText error) }]
        messages := progress.messages ++ [toolMessage call ("Tool failed: " ++ toolFailureText error)] }) := by
  cases error with
  | approvalRequired approvalId => exact absurd rfl (other approvalId)
  | _ => rfl

theorem toolFailed_stops {error : TurnError}
    (stops : world.aborted.isSome = true ∨ ∃ approvalId, error = .approvalRequired approvalId) :
    ∃ error', toolFailed progress call error world = .error error' world := by
  by_cases approval : ∃ approvalId, error = .approvalRequired approvalId
  · obtain ⟨approvalId, rfl⟩ := approval
    exact ⟨_, rfl⟩
  · rw [toolFailed_other fun approvalId same => approval ⟨approvalId, same⟩, bind_get,
      if_pos (stops.resolve_right approval)]
    exact ⟨_, rfl⟩

theorem executeTool_settles (settled : settles answer = true) :
    ∃ progress', executeTool answer progress call world = .ok progress' (ran call answer world) ∧
      progress'.toolCount = progress.toolCount ∧ Reported call progress progress' := by
  simp only [settles, Bool.and_eq_true, Option.isNone_iff_eq_none] at settled
  obtain ⟨running, kind⟩ := settled
  unfold executeTool
  cases answered : answer.outcome with
  | ok result =>
    exact ⟨_, tryCatch_returned (bind_ok.mpr ⟨result, _, execute_ok call world answered,
      bind_ok.mpr ⟨(), _, throwIfAborted_running running, rfl⟩⟩), rfl, rfl, _, _, rfl, ⟨result.output, rfl, rfl⟩, rfl, rfl⟩
  | error error =>
    have other : ∀ approvalId, error ≠ .approvalRequired approvalId := by
      intro approvalId same
      rw [answered, same] at kind
      cases kind
    rw [tryCatch_failed (bind_failed (execute_error call world answered)), toolFailed_other other, bind_get,
      if_neg (by simp [running])]
    exact ⟨_, rfl, rfl, rfl, _, _, rfl, tells_failed call _, rfl, rfl⟩

/-- An approval or an aborted signal leaves the turn. -/
theorem executeTool_stops (unsettled : settles answer = false) :
    ∃ error, executeTool answer progress call world = .error error (ran call answer world) := by
  unfold executeTool
  cases answered : answer.outcome with
  | ok result =>
    cases signal : answer.aborted with
    | none => simp [settles, signal, answered] at unsettled
    | some reason =>
      rw [tryCatch_failed ((bind_returned (execute_ok call world answered)).trans (bind_failed (throwIfAborted_stopped signal)))]
      exact toolFailed_stops (.inl (by simp [signal]))
  | error error =>
    rw [tryCatch_failed (bind_failed (execute_error call world answered))]
    apply toolFailed_stops
    cases signal : answer.aborted with
    | some reason => exact .inl (by simp [signal])
    | none =>
      cases error with
      | approvalRequired approvalId => exact .inr ⟨approvalId, rfl⟩
      | _ => simp [settles, signal, answered] at unsettled

/-- What a call runs, when the limit leaves room for it. -/
def actOf (tools : List ProviderTool) (answer : Answer ToolResult) (call : ToolCall) : List TurnAct :=
  if tools.any (·.name == call.name) then [.ran call answer] else []

/-- A call is answered when it is within the limit and its tool, if there is one, settles. -/
theorem callTool_answers (running : world.aborted = none) (room : progress.toolCount < maxToolCalls)
    (settled : tools.any (·.name == call.name) = true → settles answer = true) :
    ∃ progress' world', callTool tools maxToolCalls answer progress call world = .ok progress' world' ∧
      world'.aborted = none ∧ world'.acts = world.acts ++ actOf tools answer call ∧
      progress'.toolCount = progress.toolCount + 1 ∧ Reported call progress progress' := by
  unfold callTool actOf
  rw [bind_returned (throwIfAborted_running running)]
  simp only
  rw [if_neg (by omega)]
  split
  · next known =>
    obtain ⟨progress', executed, counted, usage, record⟩ := executeTool_settles (settled known)
    have signal : answer.aborted = none := by
      have settles := settled known
      simp only [AgentTurnEngine.settles, Bool.and_eq_true, Option.isNone_iff_eq_none] at settles
      exact settles.1
    exact ⟨progress', _, executed, signal, rfl, counted, usage, record⟩
  · exact ⟨_, world, rfl, running, (List.append_nil _).symm, rfl, rfl, _, _, rfl, tells_unknown call _, rfl, rfl⟩

theorem callTool_stops (running : world.aborted = none)
    (stops : maxToolCalls ≤ progress.toolCount ∨ (tools.any (·.name == call.name) = true ∧ settles answer = false)) :
    ∃ error world', callTool tools maxToolCalls answer progress call world = .error error world' ∧
      world'.acts = world.acts ++ if progress.toolCount < maxToolCalls then actOf tools answer call else [] := by
  unfold callTool
  rw [bind_returned (throwIfAborted_running running)]
  simp only
  split
  · next full =>
    refine ⟨_, world, rfl, ?_⟩
    rw [if_neg (by omega), List.append_nil]
  · next room =>
    have unsettled : tools.any (·.name == call.name) = true ∧ settles answer = false :=
      stops.resolve_left (by omega)
    rw [if_pos unsettled.1, if_pos (by omega)]
    obtain ⟨error, executed⟩ := executeTool_stops unsettled.2
    exact ⟨error, _, executed, by rw [actOf, if_pos unsettled.1]; rfl⟩

theorem stopsHere (answers : ¬(progress.toolCount < maxToolCalls ∧ (tools.any (·.name == call.name) = true → settles answer = true))) :
    maxToolCalls ≤ progress.toolCount ∨ (tools.any (·.name == call.name) = true ∧ settles answer = false) := by
  by_cases count : progress.toolCount < maxToolCalls
  · obtain ⟨offered, unsettled⟩ := Classical.not_imp.mp fun settled => answers ⟨count, settled⟩
    exact .inr ⟨offered, Bool.eq_false_iff.mpr unsettled⟩
  · exact .inl (by omega)

/-- The calls of a response are answered one by one, or one of them leaves the turn. -/
theorem callTools_cases {calls : List ToolCall} (place : Nat) (running : world.aborted = none)
    (room : progress.toolCount ≤ maxToolCalls) :
    if progress.toolCount + calls.length ≤ maxToolCalls ∧ allSettle tools answers place calls = true then
      ∃ progress' world', callTools tools maxToolCalls answers place calls progress world = .ok progress' world' ∧
        Answered calls progress progress' world'
    else Throws (callTools tools maxToolCalls answers place calls progress) world := by
  induction calls generalizing place progress world with
  | nil =>
    rw [if_pos ⟨room, rfl⟩]
    exact ⟨progress, world, rfl, running, rfl, rfl, [], [], rfl, .nil, by simp, by simp⟩
  | cons call calls ih =>
    by_cases here : progress.toolCount < maxToolCalls ∧ (tools.any (·.name == call.name) = true → settles (answers place) = true)
    · obtain ⟨middle, world', answered, running', -, counted, usage, execution, message, named, tells, recorded, added⟩ :=
        callTool_answers running here.1 here.2
      have onward := ih (place + 1) running' (show middle.toolCount ≤ maxToolCalls by omega)
      have condition : (middle.toolCount + calls.length ≤ maxToolCalls ∧ allSettle tools answers (place + 1) calls = true) ↔
          (progress.toolCount + (call :: calls).length ≤ maxToolCalls ∧ allSettle tools answers place (call :: calls) = true) := by
        have known : (!tools.any (·.name == call.name) || settles (answers place)) = true := by
          cases offered : tools.any (·.name == call.name) with
          | false => rfl
          | true => simpa using here.2 offered
        rw [allSettle, known, Bool.true_and, counted, List.length_cons]
        constructor <;> exact fun read => ⟨by have count := read.1; omega, read.2⟩
      rw [callTools]
      split at onward
      · next fits =>
        obtain ⟨progress', final, returned, rest⟩ := onward
        obtain ⟨executions, messages, called, told, records, said⟩ := rest.records
        rw [if_pos (condition.mp fits)]
        refine ⟨progress', final, (bind_returned answered).trans returned, rest.running, ?_, rest.usage.trans usage,
          execution :: executions, message :: messages, by simp [named, called], .cons tells told, by simp [records, recorded],
          by simp [said, added]⟩
        rw [rest.toolCount, counted, List.length_cons]
        omega
      · next stops =>
        rw [if_neg (fun holds => stops (condition.mpr holds))]
        obtain ⟨error, final, thrown⟩ := onward
        exact ⟨error, final, (bind_returned answered).trans thrown⟩
    · rw [if_neg, callTools]
      · apply Throws.bind_left
        obtain ⟨error, world', failed, -⟩ := callTool_stops running (stopsHere here)
        exact ⟨error, world', failed⟩
      · rintro ⟨count, settled⟩
        apply here
        rw [allSettle, Bool.and_eq_true] at settled
        rw [List.length_cons] at count
        refine ⟨by omega, fun offered => ?_⟩
        simpa [offered] using settled.1

end Calls

/-! One round. -/

/-- The world once a request has been answered, with a response or an error. -/
def asked (exchange : Exchange) (request : ProviderTurnRequest) (world : TurnWorld) : TurnWorld :=
  { world with
    store := performAll Call.perform exchange.response.meanwhile world.store
    aborted := exchange.response.aborted
    acts := world.acts ++ [.asked request exchange.response]
    requests := world.requests ++ [request] }

def heard (exchange : Exchange) (request : ProviderTurnRequest) (response : ProviderTurnResponse) (world : TurnWorld) : TurnWorld :=
  { asked exchange request world with responses := world.responses ++ [response] }

section Round
variable {tools : List ProviderTool} {maxToolCalls : Nat} {model : String} {rounds : Nat} {exchanges : Nat → Exchange}
  {progress : TurnProgress} {world : TurnWorld} {response : ProviderTurnResponse}

/-- The request of a round. -/
def requestOf (tools : List ProviderTool) (model : String) (progress : TurnProgress) : ProviderTurnRequest :=
  { messages := progress.messages, model := model, tools := tools }

theorem complete_ok {exchange : Exchange} (request : ProviderTurnRequest) (world : TurnWorld)
    (answered : exchange.response.outcome = .ok response) :
    complete exchange.response request world = .ok response (heard exchange request response world) :=
  bind_ok.mpr ⟨(), _, rfl, bind_ok.mpr ⟨response, _, await_ok _ answered, rfl⟩⟩

theorem complete_error {exchange : Exchange} {error : TurnError} (request : ProviderTurnRequest) (world : TurnWorld)
    (failed : exchange.response.outcome = .error error) :
    complete exchange.response request world = .error error (asked exchange request world) := by
  unfold complete
  have asking : (modify fun world : TurnWorld =>
        { world with requests := world.requests ++ [request], acts := world.acts ++ [.asked request exchange.response] } : TurnM PUnit) world =
      .ok () { world with requests := world.requests ++ [request], acts := world.acts ++ [.asked request exchange.response] } := rfl
  rw [bind_returned asking]
  exact bind_failed (await_error _ failed)

/-- Nobody answers. -/
theorem loop_unanswered {error : TurnError} (running : world.aborted = none)
    (failed : (exchanges 0).response.outcome = .error error) :
    loop tools maxToolCalls model (rounds + 1) exchanges progress world =
      .error error (asked (exchanges 0) (requestOf tools model progress) world) := by
  rw [loop, bind_returned (throwIfAborted_running running)]
  exact bind_failed (complete_error _ world failed)

/-- The signal is aborted while the provider answers. -/
theorem loop_aborted {reason : TurnError} (running : world.aborted = none)
    (answered : (exchanges 0).response.outcome = .ok response) (stopped : (exchanges 0).response.aborted = some reason) :
    loop tools maxToolCalls model (rounds + 1) exchanges progress world =
      .error reason (heard (exchanges 0) (requestOf tools model progress) response world) := by
  rw [loop, bind_returned (throwIfAborted_running running), bind_returned (complete_ok _ world answered)]
  exact bind_failed (throwIfAborted_stopped stopped)

/-- The model is done. -/
theorem loop_done (running : world.aborted = none) (answered : (exchanges 0).response.outcome = .ok response)
    (going : (exchanges 0).response.aborted = none) (last : response.calls = []) :
    loop tools maxToolCalls model (rounds + 1) exchanges progress world =
      .ok (receive progress response) (heard (exchanges 0) (requestOf tools model progress) response world) := by
  rw [loop, bind_returned (throwIfAborted_running running), bind_returned (complete_ok _ world answered),
    bind_returned (throwIfAborted_running going)]
  have none : response.calls.isEmpty = true := by rw [last]; rfl
  exact congrFun (if_pos none) _

theorem loop_calls (running : world.aborted = none) (answered : (exchanges 0).response.outcome = .ok response)
    (going : (exchanges 0).response.aborted = none) (more : response.calls ≠ []) :
    loop tools maxToolCalls model (rounds + 1) exchanges progress world =
      (callTools tools maxToolCalls (exchanges 0).tools 0 response.calls (receive progress response) >>= fun progress =>
        loop tools maxToolCalls model rounds (fun later => exchanges (later + 1)) progress)
        (heard (exchanges 0) (requestOf tools model progress) response world) := by
  rw [loop, bind_returned (throwIfAborted_running running), bind_returned (complete_ok _ world answered),
    bind_returned (throwIfAborted_running going)]
  have some : ¬ response.calls.isEmpty = true := by simpa using more
  exact congrFun (if_neg some) _

theorem receive_toolCount (progress : TurnProgress) (response : ProviderTurnResponse) :
    (receive progress response).toolCount = progress.toolCount := by
  unfold receive
  cases response.text <;> rfl

theorem receive_usage (progress : TurnProgress) (response : ProviderTurnResponse) :
    (receive progress response).usage = mergeUsage progress.usage response.usage := by
  unfold receive
  cases response.text <;> rfl

theorem calls_cases (tools : List ProviderTool) (model : String) (world : TurnWorld) (response : ProviderTurnResponse)
    (room : progress.toolCount ≤ maxToolCalls)
    (going : (exchanges 0).response.aborted = none) :
    if progress.toolCount + response.calls.length ≤ maxToolCalls ∧ allSettle tools (exchanges 0).tools 0 response.calls = true then
      ∃ progress' world', callTools tools maxToolCalls (exchanges 0).tools 0 response.calls (receive progress response)
          (heard (exchanges 0) (requestOf tools model progress) response world) = .ok progress' world' ∧
        Answered response.calls (receive progress response) progress' world'
    else Throws (callTools tools maxToolCalls (exchanges 0).tools 0 response.calls (receive progress response))
      (heard (exchanges 0) (requestOf tools model progress) response world) := by
  rw [← receive_toolCount progress response] at room ⊢
  exact callTools_cases 0 going room

section Called
variable (running : world.aborted = none) (room : progress.toolCount ≤ maxToolCalls)
  (answered : (exchanges 0).response.outcome = .ok response) (going : (exchanges 0).response.aborted = none)
  (more : response.calls ≠ [])
include running room answered going more

/-- The limit, an approval or the signal ends the turn among the calls. -/
theorem loop_stopped
    (stops : ¬ (progress.toolCount + response.calls.length ≤ maxToolCalls ∧
      allSettle tools (exchanges 0).tools 0 response.calls = true)) :
    ∃ error world', SameExchanges (heard (exchanges 0) (requestOf tools model progress) response world) world' ∧
      ∀ rounds, loop tools maxToolCalls model (rounds + 1) exchanges progress world = .error error world' := by
  have called := calls_cases tools model world response room going
  rw [if_neg stops] at called
  obtain ⟨error, world', failed⟩ := called
  have same := callTools_sameExchanges tools maxToolCalls (exchanges 0).tools 0 response.calls
    (receive progress response) (heard (exchanges 0) (requestOf tools model progress) response world)
  rw [after_error failed] at same
  exact ⟨error, world', same, fun rounds => (loop_calls running answered going more).trans (bind_failed failed)⟩

/-- All calls are answered, and the next round begins. -/
theorem loop_onward (fits : progress.toolCount + response.calls.length ≤ maxToolCalls)
    (settled : allSettle tools (exchanges 0).tools 0 response.calls = true) :
    ∃ progress' world', Answered response.calls (receive progress response) progress' world' ∧
      SameExchanges (heard (exchanges 0) (requestOf tools model progress) response world) world' ∧
      ∀ rounds, loop tools maxToolCalls model (rounds + 1) exchanges progress world =
        loop tools maxToolCalls model rounds (fun later => exchanges (later + 1)) progress' world' := by
  have called := calls_cases tools model world response room going
  rw [if_pos ⟨fits, settled⟩] at called
  obtain ⟨progress', world', returned, done⟩ := called
  have same := callTools_sameExchanges tools maxToolCalls (exchanges 0).tools 0 response.calls
    (receive progress response) (heard (exchanges 0) (requestOf tools model progress) response world)
  rw [after_ok returned] at same
  exact ⟨progress', world', done, same, fun rounds => (loop_calls running answered going more).trans (bind_returned returned)⟩

end Called

/-- How a round goes, by what its exchange brings. -/
inductive RoundEnd (tools : List ProviderTool) (maxToolCalls : Nat) (exchange : Exchange) (toolCount : Nat) : Prop
  | unanswered (error : TurnError) (failed : exchange.response.outcome = .error error)
  | aborted (response : ProviderTurnResponse) (reason : TurnError) (answered : exchange.response.outcome = .ok response)
      (stopped : exchange.response.aborted = some reason)
  | done (response : ProviderTurnResponse) (answered : exchange.response.outcome = .ok response)
      (going : exchange.response.aborted = none) (last : response.calls = [])
  | stopped (response : ProviderTurnResponse) (answered : exchange.response.outcome = .ok response)
      (going : exchange.response.aborted = none) (more : response.calls ≠ [])
      (stops : ¬ (toolCount + response.calls.length ≤ maxToolCalls ∧ allSettle tools exchange.tools 0 response.calls = true))
  | onward (response : ProviderTurnResponse) (answered : exchange.response.outcome = .ok response)
      (going : exchange.response.aborted = none) (more : response.calls ≠ [])
      (room : toolCount + response.calls.length ≤ maxToolCalls)
      (settled : allSettle tools exchange.tools 0 response.calls = true)

theorem roundEnd (tools : List ProviderTool) (maxToolCalls : Nat) (exchange : Exchange) (toolCount : Nat) :
    RoundEnd tools maxToolCalls exchange toolCount := by
  cases answered : exchange.response.outcome with
  | error error => exact .unanswered error answered
  | ok response =>
    cases going : exchange.response.aborted with
    | some reason => exact .aborted response reason answered going
    | none =>
      by_cases more : response.calls = []
      · exact .done response answered going more
      · by_cases fits : toolCount + response.calls.length ≤ maxToolCalls ∧ allSettle tools exchange.tools 0 response.calls = true
        · exact .onward response answered going more fits.1 fits.2
        · exact .stopped response answered going more fits

end Round

/-! All rounds. -/

section Rounds
variable {tools : List ProviderTool} {maxToolCalls : Nat} {model : String} {exchanges : Nat → Exchange} {toolCount : Nat}

theorem returned_unanswered {error : TurnError} (rounds : Nat) (failed : (exchanges 0).response.outcome = .error error) :
    returned tools maxToolCalls (rounds + 1) exchanges toolCount = [] ∧
      finishes tools maxToolCalls (rounds + 1) exchanges toolCount = false := by
  simp [returned, finishes, completes, continues, failed]

theorem returned_aborted {response : ProviderTurnResponse} {reason : TurnError} (rounds : Nat)
    (answered : (exchanges 0).response.outcome = .ok response) (stopped : (exchanges 0).response.aborted = some reason) :
    returned tools maxToolCalls (rounds + 1) exchanges toolCount = [response] ∧
      finishes tools maxToolCalls (rounds + 1) exchanges toolCount = false := by
  simp [returned, finishes, completes, continues, answered, stopped]

theorem returned_done {response : ProviderTurnResponse} (rounds : Nat)
    (answered : (exchanges 0).response.outcome = .ok response) (going : (exchanges 0).response.aborted = none)
    (last : response.calls = []) :
    returned tools maxToolCalls (rounds + 1) exchanges toolCount = [response] ∧
      finishes tools maxToolCalls (rounds + 1) exchanges toolCount = true := by
  simp [returned, finishes, completes, continues, answered, going, last]

theorem continues_stopped {exchange : Exchange} {response : ProviderTurnResponse} (answered : exchange.response.outcome = .ok response)
    (stops : ¬ (toolCount + response.calls.length ≤ maxToolCalls ∧ allSettle tools exchange.tools 0 response.calls = true)) :
    continues tools maxToolCalls exchange toolCount = false := by
  apply Bool.eq_false_iff.mpr
  intro on
  apply stops
  simp only [continues, answered, Bool.and_eq_true, decide_eq_true_eq] at on
  exact ⟨on.2.1.2, on.2.2⟩

theorem returned_stopped {response : ProviderTurnResponse} (rounds : Nat)
    (answered : (exchanges 0).response.outcome = .ok response) (more : response.calls ≠ [])
    (stops : ¬ (toolCount + response.calls.length ≤ maxToolCalls ∧
      allSettle tools (exchanges 0).tools 0 response.calls = true)) :
    returned tools maxToolCalls (rounds + 1) exchanges toolCount = [response] ∧
      finishes tools maxToolCalls (rounds + 1) exchanges toolCount = false := by
  have ended := continues_stopped answered stops
  simp [returned, finishes, completes, answered, more, ended]

theorem returned_onward {response : ProviderTurnResponse} (rounds : Nat)
    (answered : (exchanges 0).response.outcome = .ok response) (going : (exchanges 0).response.aborted = none)
    (more : response.calls ≠ []) (room : toolCount + response.calls.length ≤ maxToolCalls)
    (settled : allSettle tools (exchanges 0).tools 0 response.calls = true) :
    returned tools maxToolCalls (rounds + 1) exchanges toolCount =
        response :: returned tools maxToolCalls rounds (fun later => exchanges (later + 1)) (toolCount + response.calls.length) ∧
      finishes tools maxToolCalls (rounds + 1) exchanges toolCount =
        finishes tools maxToolCalls rounds (fun later => exchanges (later + 1)) (toolCount + response.calls.length) := by
  have some : response.calls.isEmpty = false := by simpa using more
  simp [returned, finishes, completes, continues, callCount, answered, going, some, room, settled]

variable {progress : TurnProgress} {world : TurnWorld}

/-- The provider has returned exactly the responses of the rounds that were reached. -/
theorem loop_responses (rounds : Nat) (running : world.aborted = none) (room : progress.toolCount ≤ maxToolCalls) :
    (after (loop tools maxToolCalls model rounds exchanges progress) world).responses =
      world.responses ++ returned tools maxToolCalls rounds exchanges progress.toolCount := by
  induction rounds generalizing exchanges progress world with
  | zero => exact (List.append_nil _).symm
  | succ rounds ih =>
    cases roundEnd tools maxToolCalls (exchanges 0) progress.toolCount with
    | unanswered error failed =>
      rw [after_error (loop_unanswered running failed), (returned_unanswered rounds failed).1, List.append_nil]
      rfl
    | aborted response reason answered stopped =>
      rw [after_error (loop_aborted running answered stopped), (returned_aborted rounds answered stopped).1]
      rfl
    | done response answered going last =>
      rw [after_ok (loop_done running answered going last), (returned_done rounds answered going last).1]
      rfl
    | stopped response answered going more stops =>
      obtain ⟨error, world', ⟨_, same⟩, failed⟩ := loop_stopped running room answered going more stops
      rw [after_error (failed rounds), same, (returned_stopped rounds answered more stops).1]
      rfl
    | onward response answered going more fits settled =>
      obtain ⟨progress', world', done, ⟨_, same⟩, next⟩ := loop_onward running room answered going more fits settled
      have counted := done.toolCount
      rw [receive_toolCount] at counted
      have onward : (after (loop _ _ _ rounds (fun later => exchanges (later + 1)) progress') world').responses = _ :=
        ih done.running (by omega)
      have moved : after (loop tools maxToolCalls model (rounds + 1) exchanges progress) world =
          after (loop tools maxToolCalls model rounds (fun later => exchanges (later + 1)) progress') world' := by
        unfold after
        rw [next]
      rw [moved, onward, same, counted, (returned_onward rounds answered going more fits settled).1]
      simp [heard]

/-- The engine returns when a response without tool calls comes first, with all that was reported. -/
theorem loop_finishes (rounds : Nat) (running : world.aborted = none) (room : progress.toolCount ≤ maxToolCalls)
    (finish : finishes tools maxToolCalls rounds exchanges progress.toolCount = true) :
    Returns (loop tools maxToolCalls model rounds exchanges progress) world fun progress' world' =>
      world'.aborted = none ∧
        progress'.usage = (returned tools maxToolCalls rounds exchanges progress.toolCount).foldl
          (fun usage response => mergeUsage usage response.usage) progress.usage := by
  induction rounds generalizing exchanges progress world with
  | zero => cases finish
  | succ rounds ih =>
    cases roundEnd tools maxToolCalls (exchanges 0) progress.toolCount with
    | unanswered error failed =>
      rw [(returned_unanswered rounds failed).2] at finish
      cases finish
    | aborted response reason answered stopped =>
      rw [(returned_aborted rounds answered stopped).2] at finish
      cases finish
    | done response answered going last =>
      refine ⟨_, _, loop_done running answered going last, going, ?_⟩
      rw [receive_usage, (returned_done rounds answered going last).1]
      rfl
    | stopped response answered going more stops =>
      rw [(returned_stopped rounds answered more stops).2] at finish
      cases finish
    | onward response answered going more fits settled =>
      obtain ⟨progress', world', done, _, next⟩ := loop_onward running room answered going more fits settled
      have counted := done.toolCount
      rw [receive_toolCount] at counted
      rw [(returned_onward rounds answered going more fits settled).2, ← counted] at finish
      obtain ⟨last, final, ended, aborted, usage⟩ :=
        ih done.running (by omega) finish
      refine ⟨last, final, (next rounds).trans ended, aborted, ?_⟩
      rw [usage, done.usage, receive_usage, counted, (returned_onward rounds answered going more fits settled).1]
      rfl

theorem loop_stops (rounds : Nat) (running : world.aborted = none) (room : progress.toolCount ≤ maxToolCalls)
    (stops : finishes tools maxToolCalls rounds exchanges progress.toolCount = false) :
    Throws (loop tools maxToolCalls model rounds exchanges progress) world := by
  induction rounds generalizing exchanges progress world with
  | zero => exact ⟨_, _, rfl⟩
  | succ rounds ih =>
    cases roundEnd tools maxToolCalls (exchanges 0) progress.toolCount with
    | unanswered error failed => exact ⟨_, _, loop_unanswered running failed⟩
    | aborted response reason answered stopped => exact ⟨_, _, loop_aborted running answered stopped⟩
    | done response answered going last =>
      rw [(returned_done rounds answered going last).2] at stops
      cases stops
    | stopped response answered going more stops =>
      obtain ⟨error, world', _, failed⟩ := loop_stopped running room answered going more stops
      exact ⟨error, world', failed rounds⟩
    | onward response answered going more fits settled =>
      obtain ⟨progress', world', done, _, next⟩ := loop_onward running room answered going more fits settled
      have counted := done.toolCount
      rw [receive_toolCount] at counted
      rw [(returned_onward rounds answered going more fits settled).2, ← counted] at stops
      obtain ⟨error, final, failed⟩ := ih done.running (by omega) stops
      exact ⟨error, final, (next rounds).trans failed⟩

/-- Every round but the last takes a call of the limit, so more rounds change nothing. -/
theorem loop_rounds (rounds : Nat) (running : world.aborted = none) (room : progress.toolCount ≤ maxToolCalls)
    (enough : maxToolCalls < progress.toolCount + rounds) :
    loop tools maxToolCalls model (rounds + 1) exchanges progress world =
      loop tools maxToolCalls model rounds exchanges progress world := by
  induction rounds generalizing exchanges progress world with
  | zero => omega
  | succ rounds ih =>
    cases roundEnd tools maxToolCalls (exchanges 0) progress.toolCount with
    | unanswered error failed => rw [loop_unanswered running failed, loop_unanswered running failed]
    | aborted response reason answered stopped =>
      rw [loop_aborted running answered stopped, loop_aborted running answered stopped]
    | done response answered going last => rw [loop_done running answered going last, loop_done running answered going last]
    | stopped response answered going more stops =>
      obtain ⟨error, world', _, failed⟩ := loop_stopped running room answered going more stops
      rw [failed, failed]
    | onward response answered going more fits settled =>
      obtain ⟨progress', world', done, _, next⟩ := loop_onward running room answered going more fits settled
      have counted := done.toolCount
      rw [receive_toolCount] at counted
      have some : 0 < response.calls.length := List.length_pos_of_ne_nil more
      rw [next, next]
      exact ih done.running (by omega) (by omega)

end Rounds

end OttiliCoder.AgentTurnEngine
