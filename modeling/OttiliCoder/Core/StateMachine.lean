/-! Statuses of Runs, Goals, Tasks and Agents with the transitions each lifecycle
allows. A terminal status has no outbound edge. -/

namespace OttiliCoder

inductive RunStatus where
  | queued | running | waitingExternal | paused | recovering | blocked | budgetLimited
  | usageLimited | failed | completed | cancelled
deriving DecidableEq

inductive GoalStatus where
  | active | paused | blocked | waitingExternal | budgetLimited | usageLimited | complete | cancelled
deriving DecidableEq

inductive TaskStatus where
  | pending | ready | running | waiting | blocked | completed | failed | cancelled
deriving DecidableEq

inductive AgentStatus where
  | created | queued | running | waiting | suspended | recovering | completed | failed | stopped
  | closed
deriving DecidableEq

namespace RunStatus

def text : RunStatus → String
  | queued => "queued"
  | running => "running"
  | waitingExternal => "waiting_external"
  | paused => "paused"
  | recovering => "recovering"
  | blocked => "blocked"
  | budgetLimited => "budget_limited"
  | usageLimited => "usage_limited"
  | failed => "failed"
  | completed => "completed"
  | cancelled => "cancelled"

def all : List RunStatus :=
  [queued, running, waitingExternal, paused, recovering, blocked, budgetLimited, usageLimited, failed,
    completed, cancelled]

def ofText? (value : String) : Option RunStatus := all.find? fun status => status.text == value

@[simp] theorem ofText?_text (status : RunStatus) : ofText? status.text = some status := by
  cases status <;> decide

def transitions : RunStatus → List RunStatus
  | queued => [running, paused, failed, cancelled]
  | running =>
    [waitingExternal, paused, recovering, blocked, budgetLimited, usageLimited, failed, completed, cancelled]
  | waitingExternal => [running, paused, recovering, blocked, budgetLimited, usageLimited, failed, cancelled]
  | paused => [queued, running, recovering, cancelled]
  | recovering => [running, waitingExternal, paused, blocked, budgetLimited, usageLimited, failed, cancelled]
  | blocked => [queued, running, paused, cancelled]
  | budgetLimited => [queued, running, paused, cancelled]
  | usageLimited => [queued, running, paused, cancelled]
  | failed => []
  | completed => []
  | cancelled => []

end RunStatus

namespace GoalStatus

def text : GoalStatus → String
  | active => "active"
  | paused => "paused"
  | blocked => "blocked"
  | waitingExternal => "waiting_external"
  | budgetLimited => "budget_limited"
  | usageLimited => "usage_limited"
  | complete => "complete"
  | cancelled => "cancelled"

def all : List GoalStatus :=
  [active, paused, blocked, waitingExternal, budgetLimited, usageLimited, complete, cancelled]

def ofText? (value : String) : Option GoalStatus := all.find? fun status => status.text == value

@[simp] theorem ofText?_text (status : GoalStatus) : ofText? status.text = some status := by
  cases status <;> decide

def transitions : GoalStatus → List GoalStatus
  | active => [paused, blocked, waitingExternal, budgetLimited, usageLimited, complete, cancelled]
  | paused => [active, cancelled]
  | blocked => [active, paused, cancelled]
  | waitingExternal => [active, paused, blocked, budgetLimited, usageLimited, cancelled]
  | budgetLimited => [active, paused, cancelled]
  | usageLimited => [active, paused, cancelled]
  | complete => []
  | cancelled => []

end GoalStatus

namespace TaskStatus

def text : TaskStatus → String
  | pending => "pending"
  | ready => "ready"
  | running => "running"
  | waiting => "waiting"
  | blocked => "blocked"
  | completed => "completed"
  | failed => "failed"
  | cancelled => "cancelled"

def transitions : TaskStatus → List TaskStatus
  | pending => [ready, cancelled]
  | ready => [pending, running, cancelled]
  | running => [waiting, blocked, completed, failed, cancelled]
  | waiting => [ready, running, blocked, cancelled]
  | blocked => [ready, pending, cancelled]
  | completed => []
  | failed => [ready, pending, cancelled]
  | cancelled => []

end TaskStatus

namespace AgentStatus

def text : AgentStatus → String
  | created => "created"
  | queued => "queued"
  | running => "running"
  | waiting => "waiting"
  | suspended => "suspended"
  | recovering => "recovering"
  | completed => "completed"
  | failed => "failed"
  | stopped => "stopped"
  | closed => "closed"

def all : List AgentStatus :=
  [created, queued, running, waiting, suspended, recovering, completed, failed, stopped, closed]

def ofText? (value : String) : Option AgentStatus := all.find? fun status => status.text == value

@[simp] theorem ofText?_text (status : AgentStatus) : ofText? status.text = some status := by
  cases status <;> decide

def transitions : AgentStatus → List AgentStatus
  | created => [queued, stopped, closed]
  | queued => [running, suspended, stopped, failed, closed]
  | running => [waiting, suspended, recovering, completed, failed, stopped, closed]
  | waiting => [queued, running, suspended, recovering, stopped, failed, closed]
  | suspended => [queued, running, stopped, closed]
  | recovering => [queued, running, waiting, suspended, failed, stopped, closed]
  | completed => [closed]
  | failed => [queued, recovering, closed]
  | stopped => [queued, closed]
  | closed => []

/-- No agent enters `created` by a transition: it is the status of a spawn. -/
theorem created_not_mem_transitions (status : AgentStatus) : created ∉ status.transitions := by
  cases status <;> decide

end AgentStatus

def canTransition {State : Type} [DecidableEq State] (transitions : State → List State)
    (source target : State) : Bool := (transitions source).any fun candidate => candidate == target

theorem canTransition_iff {State : Type} [DecidableEq State] {transitions : State → List State}
    {source target : State} :
    canTransition transitions source target = true ↔ target ∈ transitions source := by
  simp [canTransition, List.any_eq_true]

def canTransitionRun : RunStatus → RunStatus → Bool := canTransition RunStatus.transitions
def canTransitionGoal : GoalStatus → GoalStatus → Bool := canTransition GoalStatus.transitions
def canTransitionTask : TaskStatus → TaskStatus → Bool := canTransition TaskStatus.transitions
def canTransitionAgent : AgentStatus → AgentStatus → Bool := canTransition AgentStatus.transitions

def isTerminalRunStatus (status : RunStatus) : Bool := status.transitions.length == 0
def isTerminalGoalStatus (status : GoalStatus) : Bool := status.transitions.length == 0
def isTerminalTaskStatus (status : TaskStatus) : Bool := status.transitions.length == 0
def isTerminalAgentStatus (status : AgentStatus) : Bool := status.transitions.length == 0

/-- A goal is eligible for the scheduler's continue-if-idle behavior only here. -/
def shouldContinueGoal (status : GoalStatus) : Bool := status == .active

end OttiliCoder
