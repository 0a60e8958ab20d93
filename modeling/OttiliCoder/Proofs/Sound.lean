import OttiliCoder.Proofs.Scope

/-! What every reachable store keeps: journals are counted by their Runs, leases,
Goals and Agents belong to Runs that exist, and a Run's current goal is its own. -/

namespace OttiliCoder
open Relational Transaction

structure Sound (s : Store) : Prop where
  events : ∀ event ∈ s .runEvents, ∃ run, (s .runs).find? event.runId = some run ∧ event.seq ≤ run.nextSequence
  leases : ∀ lease ∈ s .runLeases, ∃ run, (s .runs).find? lease.runId = some run
  goals : ∀ goal ∈ s .goals, ∃ run, (s .runs).find? goal.runId = some run
  agents : ∀ agent ∈ s .agents, ∃ run, (s .runs).find? agent.runId = some run
  current : ∀ run ∈ s .runs, ∀ goalId, run.currentGoalId = some goalId →
    ∃ goal, (s .goals).find? goalId = some goal ∧ goal.runId = run.id

section Journal
variable {s s' : Store} {k : Kind}

/-- The store journaled `row` as the next event of its Run. -/
structure Journaled (s s' : Store) (row : RunEventRow) : Prop where
  run : ∃ run, (s .runs).find? row.runId = some run ∧ row.seq = run.nextSequence + 1
  counted : ∃ run, (s' .runs).find? row.runId = some run ∧ run.nextSequence = row.seq
  fresh : (s .runEvents).find? (row.runId, row.seq) = none
  events : s' .runEvents = (s .runEvents).insert row

theorem appended_journaled {runId : RunId} {type : RunEventType} {payload : JsonObject} {now : IsoTimestamp}
    {leaseGeneration : Option Nat} {event : RunEvent}
    (appended : appendEventInternal runId type payload now leaseGeneration s = .ok event s') :
    ∃ row, Journaled s s' row ∧ row.runId = runId ∧ row.type = type ∧ row.payload = payload := by
  obtain ⟨run, found, fresh, -, rfl⟩ := appendEventInternal_ok.mp appended
  obtain rfl := (Keyed.find?_eq_some.mp found).2
  refine ⟨nextEvent run type payload now leaseGeneration, ⟨⟨run, found, rfl⟩, ?_, fresh, journaled_events⟩,
    rfl, rfl, rfl⟩
  rw [journaled_runs]
  have stored : (s .runs).find? (nextEvent run type payload now leaseGeneration).runId = some run := found
  rw [stored]
  exact ⟨_, rfl, by simp [nextEvent]⟩

/-- The same journal entry, seen from a store whose Runs and events agree so far. -/
theorem Journaled.of_same {earlier : Store} {row : RunEventRow} (journaled : Journaled s s' row)
    (runs : ∀ id run, (s .runs).find? id = some run →
      ∃ first, (earlier .runs).find? id = some first ∧ first.nextSequence = run.nextSequence)
    (events : s .runEvents = earlier .runEvents) : Journaled earlier s' row := by
  obtain ⟨run, found, seq⟩ := journaled.run
  obtain ⟨first, stored, same⟩ := runs row.runId run found
  exact ⟨⟨first, stored, same ▸ seq⟩, journaled.counted, events ▸ journaled.fresh, events ▸ journaled.events⟩

/-- Every effect leaves the journal as it was or appends one event. -/
theorem Effect.journal_step (effect : Effect k s s') :
    s' .runEvents = s .runEvents ∨ ∃ row, Journaled s s' row ∧ k.eventType = some row.type := by
  by_cases apart : k.writes .runEvents = false
  · exact .inl (effect.frame apart)
  refine .inr ?_
  cases effect with
  | journal _ appended | event appended =>
    obtain ⟨row, journaled, -, type, -⟩ := appended_journaled appended
    exact ⟨row, journaled, congrArg some type.symm⟩
  | transition moved =>
    obtain ⟨run, event, found, edge, appended⟩ := transitionRunInternal_ok.mp moved
    obtain ⟨row, journaled, -, type, -⟩ := appended_journaled appended
    refine ⟨row, journaled.of_same (fun id run found => ?_) ?_, congrArg some type.symm⟩
    · rw [withRunStatus, Db.set_same, Keyed.find?_update, Option.map_eq_some_iff] at found
      obtain ⟨first, stored, rfl⟩ := found
      exact ⟨first, stored, by split <;> rfl⟩
    · rw [withRunStatus, Db.set_other _ _ (by simp)]
  | goalStatus _ _ _ _ _ appended =>
    obtain ⟨row, journaled, -, type, -⟩ := appended_journaled appended
    refine ⟨row, journaled.of_same (fun id run found => ?_) ?_, congrArg some type.symm⟩
    · rw [Db.set_other _ _ (by simp)] at found
      exact ⟨run, found, rfl⟩
    · rw [Db.set_other _ _ (by simp)]
  | agentStatus moved =>
    obtain ⟨agent, event, -, -, appended, -⟩ := transitionAgentInternal_ok.mp moved
    obtain ⟨row, journaled, -, type, -⟩ := appended_journaled appended
    refine ⟨row, journaled.of_same (fun id run found => ?_) ?_, congrArg some type.symm⟩
    · rw [withAgentStatus, Db.set_other _ _ (by simp)] at found
      exact ⟨run, found, rfl⟩
    · rw [withAgentStatus, Db.set_other _ _ (by simp)]
  | ledger plain => exact absurd (ledger_apart plain rfl) apart
  | _ => exact absurd rfl apart

theorem Effect.events_kept (effect : Effect k s s') {event : RunEventRow} (member : event ∈ s .runEvents) :
    event ∈ s' .runEvents := by
  rcases effect.journal_step with same | ⟨row, journaled, -⟩
  · rwa [same]
  · rw [journaled.events, Keyed.mem_insert journaled.fresh]
    exact .inl member

/-- A chain of effects journals no events but those of its kinds. -/
theorem Moves.events {touched : RunId → Prop} {kinds : Kind → Prop} (moves : Moves touched kinds s s')
    {event : RunEventRow} (member : event ∈ s' .runEvents) :
    event ∈ s .runEvents ∨ ∃ k, kinds k ∧ k.eventType = some event.type := by
  induction moves with
  | refl => exact .inl member
  | tail _ last ih =>
    obtain ⟨⟨k, can, effect⟩, -⟩ := last
    rcases effect.journal_step with same | ⟨row, journaled, type⟩
    · exact ih (same ▸ member)
    · rw [journaled.events, Keyed.mem_insert journaled.fresh] at member
      rcases member with inside | rfl
      · exact ih inside
      · exact .inr ⟨k, can, type⟩

theorem Moves.events_kept {touched : RunId → Prop} {kinds : Kind → Prop} (moves : Moves touched kinds s s')
    {event : RunEventRow} (member : event ∈ s .runEvents) : event ∈ s' .runEvents :=
  moves.keeps (fun _ _ _ _ effect inside => effect.events_kept inside) member

/-- The event types a call can journal. -/
def Call.journals (call : Call) (type : RunEventType) : Bool := call.kinds.any fun k => k.eventType == some type

theorem Call.no_event {s : Store} {call : Call} {event : RunEventRow} (none : call.journals event.type = false)
    (member : event ∈ (call.perform s) .runEvents) : event ∈ s .runEvents := by
  rcases (Call.moves s call).events member with inside | ⟨k, can, type⟩
  · exact inside
  · have silent := List.any_eq_false.mp none k can
    simp [type] at silent

end Journal

section Kept
variable {s s' : Store} {k : Kind} {touched : RunId → Prop} {kinds : Kind → Prop}

theorem Effect.runs_found (effect : Effect k s s') {id : RunId} {run : RunRow}
    (found : (s .runs).find? id = some run) :
    ∃ run', (s' .runs).find? id = some run' ∧ RunKept k run run' := (effect.runs id).later found

private theorem alive (effect : Effect k s s') {id : RunId} (there : ∃ run, (s .runs).find? id = some run) :
    ∃ run, (s' .runs).find? id = some run :=
  (effect.runs_found there.choose_spec).imp fun _ kept => kept.1

private theorem events_sound (effect : Effect k s s') (sound : Sound s) (event : RunEventRow)
    (member : event ∈ s' .runEvents) :
    ∃ run, (s' .runs).find? event.runId = some run ∧ event.seq ≤ run.nextSequence := by
  have older : event ∈ s .runEvents →
      ∃ run, (s' .runs).find? event.runId = some run ∧ event.seq ≤ run.nextSequence := fun inside => by
    obtain ⟨run, found, bound⟩ := sound.events event inside
    obtain ⟨run', found', kept⟩ := effect.runs_found found
    exact ⟨run', found', bound.trans kept.sequence⟩
  rcases effect.journal_step with same | ⟨row, journaled, -⟩
  · exact older (same ▸ member)
  · rw [journaled.events, Keyed.mem_insert journaled.fresh] at member
    rcases member with inside | rfl
    · exact older inside
    · obtain ⟨run, found, counted⟩ := journaled.counted
      exact ⟨run, found, counted.ge⟩

private theorem leases_sound (effect : Effect k s s') (sound : Sound s) (lease : RunLeaseRow)
    (member : lease ∈ s' .runLeases) : ∃ run, (s' .runs).find? lease.runId = some run := by
  by_cases apart : k.writes .runLeases = false
  · exact alive effect (sound.leases lease (effect.frame apart ▸ member))
  cases effect with
  | leases backed =>
    rw [Db.set_same] at member
    rw [Db.set_other _ _ (by simp)]
    rcases backed lease member with ⟨old, inside, same⟩ | present
    · exact same ▸ sound.leases old inside
    · exact Option.isSome_iff_exists.mp present
  | ledger plain => exact absurd (ledger_apart plain rfl) apart
  | _ => exact absurd rfl apart

theorem Effect.sound (effect : Effect k s s') (sound : Sound s) : Sound s' := by
  refine ⟨events_sound effect sound, leases_sound effect sound, fun goal member => ?_, fun agent member => ?_,
    fun run member goalId current => ?_⟩
  · rcases (effect.goals goal.id).earlier (Keyed.find?_key member) with ⟨absent, rfl, -⟩ | ⟨old, stored, kept⟩
    · cases effect with
      | created inserted _ _ home =>
        obtain ⟨fresh, unused, -, runs, goals, -⟩ := insertRun_fresh inserted
        rw [goals, Keyed.mem_insert unused] at member
        rcases member with inside | rfl
        · rw [Keyed.find?_key inside] at absent
          cases absent
        · rw [runs, home, Keyed.find?_insert fresh]
          exact ⟨_, if_pos rfl⟩
    · exact alive effect (kept.run ▸ sound.goals old (Keyed.find?_eq_some.mp stored).1)
  · rcases (effect.agents agent.id).earlier (Keyed.find?_key member) with ⟨absent, new⟩ | ⟨old, stored, kept⟩
    · rcases new with ⟨rfl, -⟩ | ⟨rfl, -⟩
      · cases effect with
        | created inserted _ _ _ _ home =>
          obtain ⟨fresh, -, unused, runs, -, agents⟩ := insertRun_fresh inserted
          rw [agents, Keyed.mem_insert unused] at member
          rcases member with inside | rfl
          · rw [Keyed.find?_key inside] at absent
            cases absent
          · rw [runs, home, Keyed.find?_insert fresh]
            exact ⟨_, if_pos rfl⟩
      · cases effect with
        | spawned fresh _ home =>
          rw [Db.set_same, Keyed.mem_insert fresh] at member
          rw [Db.set_other _ _ (by simp)]
          rcases member with inside | rfl
          · exact sound.agents agent inside
          · exact Option.isSome_iff_exists.mp home
    · exact alive effect (kept.run ▸ sound.agents old (Keyed.find?_eq_some.mp stored).1)
  · rcases (effect.runs run.id).earlier (Keyed.find?_key member) with ⟨absent, rfl, -⟩ | ⟨old, stored, kept⟩
    · cases effect with
      | created inserted _ named home =>
        obtain ⟨fresh, unused, -, runs, goals, -⟩ := insertRun_fresh inserted
        rw [runs, Keyed.mem_insert fresh] at member
        rcases member with inside | rfl
        · rw [Keyed.find?_key inside] at absent
          cases absent
        · obtain rfl := Option.some.inj (named.symm.trans current)
          rw [goals, Keyed.find?_insert unused]
          exact ⟨_, if_pos rfl, home⟩
    · obtain ⟨inside, same⟩ := Keyed.find?_eq_some.mp stored
      obtain ⟨goal, found, home⟩ := sound.current old inside goalId (kept.goal.symm.trans current)
      obtain ⟨goal', found', keptGoal⟩ := (effect.goals goalId).later found
      exact ⟨goal', found', keptGoal.run.trans (home.trans same)⟩

theorem sound_empty : Sound Store.empty := by
  refine ⟨?_, ?_, ?_, ?_, ?_⟩ <;> intro row member <;> exact absurd member Keyed.not_mem_empty

theorem Moves.sound (moves : Moves touched kinds s s') (sound : Sound s) : Sound s' :=
  moves.keeps (fun _ _ _ _ effect => effect.sound) sound

theorem ReachedBy.sound {allowed : Store → Call → Prop} (reached : ReachedBy allowed s) : Sound s :=
  reached.invariant sound_empty fun _ _ _ sound _ => (Call.moves _ _).sound sound

end Kept

section Journal
variable {s : Store} {now : IsoTimestamp}

theorem Sound.leased (sound : Sound s) {lease : FencedLease} (current : CurrentLease s lease now) :
    ∃ run, (s .runs).find? lease.runId = some run := by
  obtain ⟨row, held, -⟩ := current
  obtain ⟨member, same⟩ := Keyed.find?_eq_some.mp held
  exact same ▸ sound.leases row member

theorem Sound.free (sound : Sound s) {runId : RunId} {run : RunRow} (found : (s .runs).find? runId = some run) :
    (s .runEvents).find? (runId, run.nextSequence + 1) = none := by
  refine Keyed.find?_eq_none.mpr fun event member same => ?_
  obtain ⟨other, stored, bound⟩ := sound.events event member
  simp only [key, Prod.mk.injEq] at same
  rw [same.1, found, Option.some.injEq] at stored
  subst stored
  omega

/-- In a sound store a known Run can always journal one more event. -/
theorem appendEvent_returns (sound : Sound s) {runId : RunId} {run : RunRow} (found : (s .runs).find? runId = some run)
    (type : RunEventType) (payload : JsonObject) (leaseGeneration : Option Nat) :
    Returns (appendEventInternal runId type payload now leaseGeneration) s fun _ s' => Sound s' := by
  have appended : appendEventInternal runId type payload now leaseGeneration s = .ok _ _ :=
    appendEventInternal_ok.mpr ⟨run, found, sound.free found, rfl, rfl⟩
  exact ⟨_, _, appended, (Effect.event appended).sound sound⟩

theorem transitionRun_returns (sound : Sound s) {runId : RunId} {run : RunRow}
    (found : (s .runs).find? runId = some run) {target : RunStatus} (edge : canTransitionRun run.status target = true)
    (reason : Option String) :
    Returns (transitionRunInternal runId target now reason) s fun _ s' => Sound s' := by
  have moved : ∃ run', ((withRunStatus s runId target now reason) .runs).find? runId = some run' ∧
      run'.nextSequence = run.nextSequence := by
    rw [withRunStatus, Db.set_same, Keyed.find?_update, found]
    exact ⟨_, rfl, by simp [(Keyed.find?_eq_some.mp found).2]⟩
  obtain ⟨run', found', same⟩ := moved
  have journals : ∃ event s', appendEventInternal runId .runStatusChanged
      [("from", .string run.status.text), ("to", .string target.text)] now none
      (withRunStatus s runId target now reason) = .ok event s' := by
    refine ⟨_, _, appendEventInternal_ok.mpr ⟨run', found', ?_, rfl, rfl⟩⟩
    rw [withRunStatus, Db.set_other _ _ (by simp), same]
    exact sound.free found
  obtain ⟨event, s', appended⟩ := journals
  have returned : transitionRunInternal runId target now reason s = .ok () s' :=
    transitionRunInternal_ok.mpr ⟨run, event, found, edge, appended⟩
  exact ⟨_, _, returned, (Effect.transition returned).sound sound⟩

theorem ensureContinuation_returns (sound : Sound s) {runId : RunId} {run : RunRow}
    (found : (s .runs).find? runId = some run) : Returns (ensureContinuationInternal runId now) s fun _ s' => Sound s' := by
  by_cases continuing : Continuing s run
  · have ensured : ensureContinuationInternal runId now s = .ok () (withAction s runId now) :=
      ensureContinuationInternal_ok.mpr ⟨run, found, .inl ⟨continuing, rfl⟩⟩
    exact ⟨(), _, ensured, (Effect.ensured ensured).sound sound⟩
  · refine ⟨(), s, ensureContinuationInternal_ok.mpr ⟨run, found, .inr ⟨continuing, rfl, ?_⟩⟩, sound⟩
    intro goalId _ current
    obtain ⟨goal, stored, -⟩ := sound.current run (Keyed.find?_eq_some.mp found).1 goalId current
    exact ⟨goal, stored⟩

theorem goalStatus_returns (sound : Sound s) {runId : RunId} {run : RunRow} {goal : GoalRow} {target : GoalStatus}
    {selected : GoalRow → Bool} {f : GoalRow → GoalRow} {keeps : ∀ goal, (f goal).id = goal.id}
    (there : (s .runs).find? runId = some run) (found : (s .goals).find? goal.id = some goal)
    (chosen : ∀ other ∈ s .goals, selected other = true ↔ other = goal)
    (edge : canTransitionGoal goal.status target = true)
    (home : goal.runId = runId ∨ ∃ run, (s .runs).find? runId = some run ∧ run.currentGoalId = some goal.id)
    (sets : ∀ goal, (f goal).status = target ∧ (f goal).runId = goal.runId) :
    ∃ event s', appendEventInternal runId .goalStatusChanged [("goalId", .string goal.id), ("to", .string target.text)]
        now none (s.set .goals ((s .goals).update selected f keeps)) = .ok event s' ∧ Sound s' ∧
      ∃ run', (s' .runs).find? runId = some run' ∧ run'.status = run.status := by
  have there' : ((s.set .goals ((s .goals).update selected f keeps)) .runs).find? runId = some run := by
    rw [Db.set_other _ _ (by simp)]
    exact there
  have free : ((s.set .goals ((s .goals).update selected f keeps)) .runEvents).find? (runId, run.nextSequence + 1) = none := by
    rw [Db.set_other _ _ (by simp)]
    exact sound.free there
  have appended : appendEventInternal runId .goalStatusChanged [("goalId", .string goal.id), ("to", .string target.text)]
      now none (s.set .goals ((s .goals).update selected f keeps)) = .ok _ _ :=
    appendEventInternal_ok.mpr ⟨run, there', free, rfl, rfl⟩
  obtain ⟨run', stored, kept⟩ := (Effect.event appended).runs_found there'
  have status : run'.status = run.status := by simpa using kept.status
  exact ⟨_, _, appended, (Effect.goalStatus found chosen edge home sets appended).sound sound, run', stored, status⟩

theorem transitionAgent_returns (sound : Sound s) {agentId : AgentId} {agent : AgentRow}
    (found : (s .agents).find? agentId = some agent) {target : AgentStatus}
    (edge : canTransitionAgent agent.status target = true) (leaseGeneration : Option Nat) :
    Returns (transitionAgentInternal agentId target now leaseGeneration) s fun _ s' => Sound s' := by
  obtain ⟨run, there⟩ := sound.agents agent (Keyed.find?_eq_some.mp found).1
  have journals : ∃ event s', appendEventInternal agent.runId .agentStatusChanged
      [("agentId", .string agentId), ("to", .string target.text)] now leaseGeneration
      (withAgentStatus s agentId target now) = .ok event s' := by
    refine ⟨_, _, appendEventInternal_ok.mpr ⟨run, ?_, ?_, rfl, rfl⟩⟩
    · rwa [withAgentStatus, Db.set_other _ _ (by simp)]
    · rw [withAgentStatus, Db.set_other _ _ (by simp)]
      exact sound.free there
  obtain ⟨event, s', appended⟩ := journals
  have later : ∃ row, (s' .agents).find? agentId = some row := by
    rw [appended_other appended (by simp) (by simp), withAgentStatus, Db.set_same, Keyed.find?_update, found]
    exact ⟨_, rfl⟩
  obtain ⟨row, stored⟩ := later
  have returned := transitionAgentInternal_ok.mpr
    ⟨agent, event, found, edge, appended, mustAgent_ok.mpr ⟨row, stored, rfl, rfl⟩⟩
  exact ⟨_, _, returned, (Effect.agentStatus returned).sound sound⟩

theorem transitionAgent_agents {s' : Store} {agentId : AgentId} {target : AgentStatus} {leaseGeneration : Option Nat}
    {agent : Agent} (moved : transitionAgentInternal agentId target now leaseGeneration s = .ok agent s') :
    s' .agents = (withAgentStatus s agentId target now) .agents := by
  obtain ⟨row, event, -, -, appended, -⟩ := transitionAgentInternal_ok.mp moved
  exact appended_other appended (by simp) (by simp)

end Journal

end OttiliCoder
