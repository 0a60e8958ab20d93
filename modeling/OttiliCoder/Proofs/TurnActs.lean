import OttiliCoder.Proofs.Engine

/-! What a turn asks and runs: no more than the limit allows, nothing once it has been
stopped, and all of it in its messages, records and usage when it returns. -/

namespace OttiliCoder.AgentTurnEngine
open Host Transaction

def isRun : TurnAct → Bool
  | .asked .. => false
  | .ran .. => true

def isRequest : TurnAct → Bool
  | .asked .. => true
  | .ran .. => false

/-- The signal is found aborted after the act, or the act waits for an approval. -/
def halts : TurnAct → Bool
  | .asked _ answer => answer.aborted.isSome
  | .ran _ answer => !settles answer

/-- No act follows one that halts the turn. -/
def Orderly (acts : List TurnAct) : Prop := acts.Pairwise fun earlier _ => halts earlier = false

/-- What the calls of a response run, when at most `room` of them are made. -/
structure Runs (room : Nat) (acts : List TurnAct) : Prop where
  runs : ∀ act ∈ acts, isRun act = true
  bounded : acts.length ≤ room
  orderly : Orderly acts

section Calls
variable {tools : List ProviderTool} {maxToolCalls room : Nat} {answer : Answer ToolResult} {answers : Nat → Answer ToolResult}
  {progress : TurnProgress} {world : TurnWorld} {call : ToolCall} {acts : List TurnAct}

theorem Runs.nil : Runs room [] := ⟨fun _ listed => absurd listed List.not_mem_nil, Nat.zero_le _, .nil⟩

theorem runs_actOf (tools : List ProviderTool) (answer : Answer ToolResult) (call : ToolCall) :
    Runs 1 (actOf tools answer call) := by
  unfold actOf
  split
  · exact ⟨fun act listed => List.mem_singleton.mp listed ▸ rfl, Nat.le_refl 1, List.pairwise_singleton ..⟩
  · exact .nil

/-- A call that settles, and what the calls after it run. -/
theorem Runs.after (settled : tools.any (·.name == call.name) = true → settles answer = true) (later : Runs room acts) :
    Runs (room + 1) (actOf tools answer call ++ acts) := by
  unfold actOf
  split
  next known =>
    refine ⟨List.forall_mem_cons.mpr ⟨rfl, later.runs⟩, Nat.succ_le_succ later.bounded, .cons (fun act _ => ?_) later.orderly⟩
    rw [halts, settled known]
    rfl
  next unknown => exact ⟨later.runs, Nat.le_succ_of_le later.bounded, later.orderly⟩

/-- The calls of a response run one tool each at most, within the limit, and none after one that halts the turn. -/
theorem callTools_acts {calls : List ToolCall} (place : Nat) (running : world.aborted = none) :
    ∃ acts, (after (callTools tools maxToolCalls answers place calls progress) world).acts = world.acts ++ acts ∧
      Runs (min calls.length (maxToolCalls - progress.toolCount)) acts ∧
      (allSettle tools answers place calls = true → ∀ act ∈ acts, halts act = false) := by
  induction calls generalizing place progress world with
  | nil => exact ⟨[], (List.append_nil _).symm, .nil, fun _ _ listed => absurd listed List.not_mem_nil⟩
  | cons call calls ih =>
    rw [callTools]
    by_cases here : progress.toolCount < maxToolCalls ∧ (tools.any (·.name == call.name) = true → settles (answers place) = true)
    · obtain ⟨progress', world', answered, running', acted, counted, -⟩ := callTool_answers running here.1 here.2
      obtain ⟨later, (ran : (after (callTools tools maxToolCalls answers (place + 1) calls progress') world').acts = _), runs, quiet⟩ :=
        ih (place + 1) running'
      have moved : after (callTool tools maxToolCalls (answers place) progress call >>= fun progress =>
          callTools tools maxToolCalls answers (place + 1) calls progress) world =
          after (callTools tools maxToolCalls answers (place + 1) calls progress') world' := by
        unfold Transaction.after
        rw [bind_returned answered]
      refine ⟨actOf tools (answers place) call ++ later, ?_, ?_, fun settled act listed => ?_⟩
      · rw [moved, ran, acted, List.append_assoc]
      · have runs := Runs.after here.2 runs
        have room : min calls.length (maxToolCalls - progress'.toolCount) + 1 =
            min (call :: calls).length (maxToolCalls - progress.toolCount) := by
          rw [List.length_cons]
          omega
        rwa [room] at runs
      · rw [allSettle, Bool.and_eq_true] at settled
        rcases List.mem_append.mp listed with first | rest
        · unfold actOf at first
          split at first
          next known =>
            rw [List.mem_singleton.mp first, halts, here.2 known]
            rfl
          next unknown => exact absurd first List.not_mem_nil
        · exact quiet settled.2 act rest
    · obtain ⟨error, world', failed, acted⟩ := callTool_stops running (stopsHere here)
      rw [after_error (bind_failed failed)]
      refine ⟨_, acted, ?_, fun settled act listed => ?_⟩
      · split
        next room =>
          obtain ⟨runs, bounded, orderly⟩ := runs_actOf tools (answers place) call
          refine ⟨runs, ?_, orderly⟩
          rw [List.length_cons]
          omega
        next full => exact .nil
      · rw [allSettle, Bool.and_eq_true] at settled
        split at listed
        next room =>
          refine absurd ⟨room, fun known => ?_⟩ here
          simpa [known] using settled.1
        next full => exact absurd listed List.not_mem_nil

end Calls

/-! All rounds. -/

/-- What a turn asks and runs while `room` calls are left to it. -/
structure Bounded (room : Nat) (acts : List TurnAct) : Prop where
  runs : acts.countP isRun ≤ room
  requests : acts.countP isRequest ≤ room + 1
  orderly : Orderly acts

section Rounds
variable {tools : List ProviderTool} {maxToolCalls room : Nat} {model : String} {exchanges : Nat → Exchange}
  {progress : TurnProgress} {world : TurnWorld} {request : ProviderTurnRequest} {answer : Answer ProviderTurnResponse}
  {acts later : List TurnAct}

theorem Bounded.nil : Bounded room [] := ⟨Nat.zero_le _, Nat.zero_le _, .nil⟩

theorem Bounded.once : Bounded room [.asked request answer] :=
  ⟨Nat.zero_le _, Nat.succ_le_succ (Nat.zero_le _), List.pairwise_singleton ..⟩

theorem Runs.widen {wider : Nat} (ran : Runs room acts) (fits : room ≤ wider) : Runs wider acts :=
  ⟨ran.runs, ran.bounded.trans fits, ran.orderly⟩

theorem Runs.counts (ran : Runs room acts) : acts.countP isRun = acts.length ∧ acts.countP isRequest = 0 := by
  refine ⟨List.countP_eq_length.mpr ran.runs, List.countP_eq_zero.mpr fun act listed => ?_⟩
  have runs := ran.runs act listed
  cases act with
  | asked => cases runs
  | ran => exact Bool.false_ne_true

/-- A round that ends the turn among its calls. -/
theorem Bounded.last (going : answer.aborted = none) (ran : Runs room acts) : Bounded room (.asked request answer :: acts) := by
  obtain ⟨runs, requests⟩ := ran.counts
  refine ⟨?_, ?_, .cons (fun _ _ => by simp [halts, going]) ran.orderly⟩
  · rw [List.countP_cons_of_neg Bool.false_ne_true, runs]
    exact ran.bounded
  · rw [List.countP_cons_of_pos rfl, requests]
    omega

/-- A round with calls, and those after it. -/
theorem Bounded.onward {calls : Nat} (going : answer.aborted = none) (ran : Runs calls acts) (some : 0 < calls) (fits : calls ≤ room)
    (quiet : ∀ act ∈ acts, halts act = false) (rest : Bounded (room - calls) later) :
    Bounded room (.asked request answer :: (acts ++ later)) := by
  obtain ⟨runs, requests⟩ := ran.counts
  have bounded := ran.bounded
  have runsLater := rest.runs
  have requestsLater := rest.requests
  refine ⟨?_, ?_, .cons (fun _ _ => by simp [halts, going]) ?_⟩
  · rw [List.countP_cons_of_neg Bool.false_ne_true, List.countP_append, runs]
    omega
  · rw [List.countP_cons_of_pos rfl, List.countP_append, requests]
    omega
  · exact List.pairwise_append.mpr ⟨ran.orderly, rest.orderly, fun act listed _ _ => quiet act listed⟩

/-- The acts of a round: its request, then what its calls run. -/
theorem round_acts (tools : List ProviderTool) (maxToolCalls : Nat) (exchange : Exchange) (request : ProviderTurnRequest)
    (response : ProviderTurnResponse) (progress : TurnProgress) (world : TurnWorld) (going : exchange.response.aborted = none) :
    ∃ acts, (after (callTools tools maxToolCalls exchange.tools 0 response.calls (receive progress response))
        (heard exchange request response world)).acts = world.acts ++ .asked request exchange.response :: acts ∧
      Runs (min response.calls.length (maxToolCalls - progress.toolCount)) acts ∧
      (allSettle tools exchange.tools 0 response.calls = true → ∀ act ∈ acts, halts act = false) := by
  have running : (heard exchange request response world).aborted = none := going
  obtain ⟨acts, acted, ran, quiet⟩ := callTools_acts 0 running
  have started : (heard exchange request response world).acts = world.acts ++ [.asked request exchange.response] := rfl
  rw [started, List.append_assoc] at acted
  rw [receive_toolCount] at ran
  exact ⟨acts, acted, ran, quiet⟩

/-- However many rounds it is given, a turn makes at most the calls that are left to it, and one request more. -/
theorem loop_acts (rounds : Nat) (running : world.aborted = none) (room : progress.toolCount ≤ maxToolCalls) :
    ∃ acts, (after (loop tools maxToolCalls model rounds exchanges progress) world).acts = world.acts ++ acts ∧
      Bounded (maxToolCalls - progress.toolCount) acts := by
  induction rounds generalizing exchanges progress world with
  | zero => exact ⟨[], (List.append_nil _).symm, .nil⟩
  | succ rounds ih =>
    cases roundEnd tools maxToolCalls (exchanges 0) progress.toolCount with
    | unanswered error failed =>
      rw [after_error (loop_unanswered running failed)]
      exact ⟨_, rfl, .once⟩
    | aborted response reason answered stopped =>
      rw [after_error (loop_aborted running answered stopped)]
      exact ⟨_, rfl, .once⟩
    | done response answered going last =>
      rw [after_ok (loop_done running answered going last)]
      exact ⟨_, rfl, .once⟩
    | stopped response answered going more stops =>
      have called := calls_cases tools model world response room going
      rw [if_neg stops] at called
      obtain ⟨error, world', failed⟩ := called
      obtain ⟨acts, acted, ran, -⟩ :=
        round_acts tools maxToolCalls (exchanges 0) (requestOf tools model progress) response progress world going
      rw [after_error failed] at acted
      rw [after_error ((loop_calls running answered going more).trans (bind_failed failed)), acted]
      exact ⟨_, rfl, .last going (ran.widen (Nat.min_le_right ..))⟩
    | onward response answered going more fits settled =>
      have called := calls_cases tools model world response room going
      rw [if_pos ⟨fits, settled⟩] at called
      obtain ⟨progress', world', returned, done⟩ := called
      obtain ⟨acts, acted, ran, quiet⟩ :=
        round_acts tools maxToolCalls (exchanges 0) (requestOf tools model progress) response progress world going
      rw [after_ok returned] at acted
      have counted := done.toolCount
      rw [receive_toolCount] at counted
      have within : progress'.toolCount ≤ maxToolCalls := by omega
      obtain ⟨later, onward, bounded⟩ := ih done.running within
      have moved : after (loop tools maxToolCalls model (rounds + 1) exchanges progress) world =
          after (loop tools maxToolCalls model rounds (fun later => exchanges (later + 1)) progress') world' := by
        unfold after
        rw [loop_calls running answered going more, bind_returned returned]
      rw [moved, onward, acted, List.append_assoc]
      have left : maxToolCalls - progress'.toolCount = maxToolCalls - progress.toolCount - response.calls.length := by omega
      rw [left] at bounded
      have some : 0 < response.calls.length := List.length_pos_of_ne_nil more
      exact ⟨_, rfl, .onward going (ran.widen (Nat.min_le_left ..)) some (by omega) (quiet settled) bounded⟩

end Rounds

/-! What a turn returns. -/

/-- A response and what its calls came to: each has its record and its tool message. -/
structure Round where
  response : ProviderTurnResponse
  executions : List ToolExecutionEvent
  results : List RuntimeMessage
  called : executions.map ToolExecutionEvent.call = response.calls
  told : List.Forall₂ Tells executions results

/-- The messages of a round: the text of the response before what its calls came to. -/
def Round.said (round : Round) : List RuntimeMessage :=
  (round.response.text.map fun text => { role := .assistant, content := utf16 text }).toList ++ round.results

/-- Each round is asked for with the messages of those before it. -/
def requestsIn (tools : List ProviderTool) (model : String) : List RuntimeMessage → List Round → List ProviderTurnRequest
  | _, [] => []
  | messages, round :: rounds =>
    { messages := messages, model := model, tools := tools } :: requestsIn tools model (messages ++ round.said) rounds

/-- The rounds are all there is to what the turn leaves. -/
structure Consists (tools : List ProviderTool) (model : String) (rounds : List Round) (progress progress' : TurnProgress)
    (world world' : TurnWorld) : Prop where
  responses : world'.responses = world.responses ++ rounds.map Round.response
  requests : world'.requests = world.requests ++ requestsIn tools model progress.messages rounds
  executions : progress'.toolExecutions = progress.toolExecutions ++ rounds.flatMap Round.executions
  messages : progress'.messages = progress.messages ++ rounds.flatMap Round.said
  usage : progress'.usage = (rounds.map (·.response.usage)).foldl mergeUsage progress.usage

section Returns
variable {tools : List ProviderTool} {maxToolCalls : Nat} {model : String} {exchanges : Nat → Exchange}
  {progress progress' : TurnProgress} {world world' : TurnWorld}

theorem receive_messages (progress : TurnProgress) (response : ProviderTurnResponse) :
    (receive progress response).messages =
      progress.messages ++ (response.text.map fun text => { role := .assistant, content := utf16 text }).toList := by
  unfold receive
  cases response.text with
  | none => exact (List.append_nil _).symm
  | some text => rfl

theorem receive_toolExecutions (progress : TurnProgress) (response : ProviderTurnResponse) :
    (receive progress response).toolExecutions = progress.toolExecutions := by
  unfold receive
  cases response.text <;> rfl

/-- A turn that returns consists of rounds. -/
theorem loop_consists (count : Nat) (running : world.aborted = none) (room : progress.toolCount ≤ maxToolCalls)
    (returned : loop tools maxToolCalls model count exchanges progress world = .ok progress' world') :
    ∃ rounds, Consists tools model rounds progress progress' world world' := by
  induction count generalizing exchanges progress world with
  | zero => cases returned
  | succ count ih =>
    cases roundEnd tools maxToolCalls (exchanges 0) progress.toolCount with
    | unanswered error failed =>
      rw [loop_unanswered running failed] at returned
      cases returned
    | aborted response reason answered stopped =>
      rw [loop_aborted running answered stopped] at returned
      cases returned
    | done response answered going last =>
      rw [loop_done running answered going last] at returned
      cases returned
      refine ⟨[⟨response, [], [], last.symm, .nil⟩], rfl, rfl, ?_, ?_, receive_usage progress response⟩
      · simp [receive_toolExecutions]
      · simp [receive_messages, Round.said]
    | stopped response answered going more stops =>
      obtain ⟨error, stopped, -, failed⟩ := loop_stopped running room answered going more stops
      rw [failed] at returned
      cases returned
    | onward response answered going more fits settled =>
      obtain ⟨middle, onward, done, ⟨requests, responses⟩, next⟩ := loop_onward running room answered going more fits settled
      obtain ⟨executions, results, called, told, recorded, added⟩ := done.records
      have counted := done.toolCount
      rw [receive_toolCount] at counted
      rw [next] at returned
      obtain ⟨rounds, rest⟩ := ih done.running (by omega) returned
      rw [receive_messages, List.append_assoc] at added
      rw [receive_toolExecutions] at recorded
      refine ⟨⟨response, executions, results, called, told⟩ :: rounds, ?_, ?_, ?_, ?_, ?_⟩
      · rw [rest.responses, responses, heard, List.append_assoc]
        rfl
      · rw [rest.requests, requests, added]
        exact List.append_assoc ..
      · rw [rest.executions, recorded, List.append_assoc, List.flatMap_cons]
      · rw [rest.messages, added, List.append_assoc, List.flatMap_cons]
        rfl
      · rw [rest.usage, done.usage, receive_usage, List.map_cons, List.foldl_cons]

end Returns

/-! Usage. -/

/-- The sum of what was reported, of nothing if nothing was. -/
def totalCount (counts : List (Option Number)) : Option Number :=
  if counts.all Option.isNone then none else some ((counts.map (·.getD 0)).foldl Number.plus 0)

def totalUsage (usages : List TurnUsage) : TurnUsage where
  cachedTokens := totalCount (usages.map (·.cachedTokens))
  costUsd := totalCount (usages.map (·.costUsd))
  inputTokens := totalCount (usages.map (·.inputTokens))
  outputTokens := totalCount (usages.map (·.outputTokens))

theorem totalCount_none (counts : List (Option Number)) : totalCount (none :: counts) = totalCount counts := by
  have zero : Number.plus 0 0 = 0 := congrArg Number.finite (Rat.add_zero _)
  simp only [totalCount, List.all_cons, Option.isNone_none, Bool.true_and, List.map_cons, Option.getD_none, List.foldl_cons, zero]

theorem foldl_mergeCount_some (counts : List (Option Number)) (count : Number) :
    counts.foldl mergeCount (some count) = some ((counts.map (·.getD 0)).foldl Number.plus count) := by
  induction counts generalizing count with
  | nil => rfl
  | cons next counts ih => exact ih _

theorem foldl_mergeCount (counts : List (Option Number)) : counts.foldl mergeCount none = totalCount counts := by
  induction counts with
  | nil => rfl
  | cons next counts ih =>
    cases next with
    | none => exact ih.trans (totalCount_none counts).symm
    | some count => exact foldl_mergeCount_some counts _

theorem foldl_mergeUsage (field : TurnUsage → Option Number)
    (merges : ∀ target next, field (mergeUsage target (some next)) = mergeCount (field target) (field next))
    (usages : List (Option TurnUsage)) (target : TurnUsage) :
    field (usages.foldl mergeUsage target) = ((usages.filterMap id).map field).foldl mergeCount (field target) := by
  induction usages generalizing target with
  | nil => rfl
  | cons next usages ih =>
    cases next with
    | none => exact ih target
    | some next =>
      refine (ih _).trans ?_
      rw [merges]
      rfl

/-- What is reported of a turn is the sum of what its responses reported. -/
theorem usage_total (usages : List (Option TurnUsage)) : usages.foldl mergeUsage {} = totalUsage (usages.filterMap id) := by
  have fields (usage : TurnUsage) : usage = ⟨usage.inputTokens, usage.outputTokens, usage.cachedTokens, usage.costUsd⟩ := rfl
  have input := foldl_mergeUsage (·.inputTokens) (fun _ _ => rfl) usages {}
  have output := foldl_mergeUsage (·.outputTokens) (fun _ _ => rfl) usages {}
  have cached := foldl_mergeUsage (·.cachedTokens) (fun _ _ => rfl) usages {}
  have cost := foldl_mergeUsage (·.costUsd) (fun _ _ => rfl) usages {}
  rw [fields (usages.foldl mergeUsage {}), input, output, cached, cost]
  simp only [foldl_mergeCount, totalUsage]

/-! The engine. -/

theorem loop_more_rounds {tools : List ProviderTool} {maxToolCalls : Nat} {model : String} {exchanges : Nat → Exchange}
    {progress : TurnProgress} {world : TurnWorld} (running : world.aborted = none) (room : progress.toolCount ≤ maxToolCalls)
    (rounds : Nat) (enough : maxToolCalls < rounds) :
    loop tools maxToolCalls model rounds exchanges progress world =
      loop tools maxToolCalls model (maxToolCalls + 1) exchanges progress world := by
  induction rounds, enough using Nat.le_induction with
  | base => rfl
  | succ rounds enough ih => exact (loop_rounds rounds running room (by omega)).trans ih

/-- A turn runs no more tools than its limit and asks once more at most, nothing follows what halts it, and what it returns is
what its rounds came to. -/
theorem turn_bounded_exact (tools : List ProviderTool) (exchanges : Nat → Exchange) (input : AgentTurnInput) (s : Store)
    (signal : Option TurnError) :
    let limit := input.maxToolCalls.getD 32
    let world : TurnWorld := { store := s, aborted := signal }
    let final := after (run tools exchanges input) world
    final.acts.countP isRun ≤ limit ∧ final.acts.countP isRequest ≤ limit + 1 ∧ Orderly final.acts ∧
      (signal.isSome = true → final.acts = []) ∧
      (∀ rounds, limit < rounds → loop tools limit input.model rounds exchanges { messages := input.messages } world =
        run tools exchanges input world) ∧
      ∀ progress world', run tools exchanges input world = .ok progress world' → ∃ rounds : List Round,
        world'.responses = rounds.map Round.response ∧ world'.requests = requestsIn tools input.model input.messages rounds ∧
        progress.toolExecutions = rounds.flatMap Round.executions ∧
        progress.messages = input.messages ++ rounds.flatMap Round.said ∧
        progress.usage = totalUsage (rounds.filterMap (·.response.usage)) := by
  intro limit world final
  cases stopped : signal with
  | some reason =>
    have aborted : world.aborted = some reason := stopped
    have failed (rounds : Nat) : loop tools limit input.model (rounds + 1) exchanges { messages := input.messages } world =
        .error reason world := by
      rw [loop]
      exact bind_failed (throwIfAborted_stopped aborted)
    have none : final.acts = [] := congrArg TurnWorld.acts (after_error (failed limit))
    rw [none]
    refine ⟨Nat.zero_le _, Nat.zero_le _, .nil, fun _ => rfl, fun rounds enough => ?_, fun progress world' returned => ?_⟩
    · obtain ⟨rounds, rfl⟩ := Nat.exists_eq_add_of_lt enough
      exact (failed _).trans (failed limit).symm
    · cases (failed limit).symm.trans returned
  | none =>
    have running : world.aborted = none := stopped
    have acted : ∃ acts, final.acts = acts ∧ Bounded limit acts := loop_acts (limit + 1) running (Nat.zero_le limit)
    obtain ⟨acts, acted, bounded⟩ := acted
    rw [acted]
    refine ⟨bounded.runs, bounded.requests, bounded.orderly, fun aborted => absurd aborted Bool.false_ne_true, fun rounds enough =>
      loop_more_rounds running (Nat.zero_le _) rounds enough, fun progress world' returned => ?_⟩
    obtain ⟨rounds, whole⟩ := loop_consists (limit + 1) running (Nat.zero_le _) returned
    refine ⟨rounds, whole.responses, whole.requests, whole.executions, whole.messages, ?_⟩
    rw [whole.usage, usage_total, List.filterMap_map]
    rfl

end OttiliCoder.AgentTurnEngine
