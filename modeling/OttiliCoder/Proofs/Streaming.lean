import Mathlib.Data.List.Induction
import OttiliCoder.Proofs.Journal
import OttiliCoder.Proofs.StreamReading

/-! Event streams: what the client delivers is the journal past the number it started from,
however the response is cut and however often it is lost. -/

namespace OttiliCoder
open Host

/-! Writing: the frames of a response are the journal past its starting point, up to its cursor. -/

section Response
variable (eventId : RunId → Nat → String) {runId : RunId} {after count : Nat} {s : Store} {stream : EventStream}

/-- The first events past the starting point have been written, this many of them. -/
structure Published (s : Store) (runId : RunId) (after : Nat) (stream : EventStream) (count : Nat) : Prop where
  carried : ∃ events, List.Forall₂ Carries stream.written events ∧
    events.reduceOption = ((listEvents s runId after).take count).map (eventValue eventId)
  cursor : stream.sequence = after + count
  bounded : count ≤ (listEvents s runId after).length

theorem foldl_publish {events : List RunEvent}
    (numbers : events.map (·.sequence) = List.range' (stream.sequence + 1) events.length) :
    events.foldl (fun stream event => { stream.write (eventFrame eventId event) with sequence := event.sequence }) stream =
      { sequence := stream.sequence + events.length, written := stream.written ++ events.map (eventFrame eventId) } := by
  induction events generalizing stream with
  | nil => simp
  | cons event events ih =>
    simp only [List.map_cons, List.length_cons, List.range'_succ, List.cons.injEq] at numbers
    obtain ⟨number, numbers⟩ := numbers
    rw [List.foldl_cons, ih (by simpa [number] using numbers)]
    simp only [EventStream.write, number, List.append_assoc, List.map_cons, List.length_cons, List.singleton_append]
    congr 1
    omega

theorem frames_carry (events : List RunEvent) :
    List.Forall₂ Carries (events.map (eventFrame eventId)) (events.map fun event => some (eventValue eventId event)) := by
  induction events with
  | nil => exact .nil
  | cons event events ih => exact .cons (eventFrame_carries eventId event) ih

/-- A poll writes all that is in the journal. -/
theorem Published.publish (published : Published eventId s runId after stream count) (numbered : Numbered s) :
    Published eventId s runId after (stream.publish eventId s runId) (listEvents s runId after).length := by
  obtain ⟨⟨events, carried, same⟩, cursor, bounded⟩ := published
  have fresh : listEvents s runId stream.sequence = (listEvents s runId after).drop count := by
    rw [cursor, listEvents_add numbered]
  have numbers : ((listEvents s runId after).drop count).map (·.sequence) =
      List.range' (stream.sequence + 1) ((listEvents s runId after).drop count).length := by
    rw [← fresh]
    exact listEvents_sequences numbered runId _
  rw [EventStream.publish, fresh, foldl_publish eventId numbers]
  refine ⟨⟨_, List.rel_append carried (frames_carry eventId _), ?_⟩, ?_, Nat.le_refl _⟩
  · have rest : (((listEvents s runId after).drop count).map fun event => some (eventValue eventId event)).reduceOption =
        ((listEvents s runId after).drop count).map (eventValue eventId) := by simp [List.reduceOption]
    rw [List.reduceOption_append, same, rest, List.take_length, ← List.map_append, List.take_append_drop]
  · simp only [cursor, List.length_drop]
    omega

theorem Published.call (published : Published eventId s runId after stream count) (reached : Reachable s) (call : Call) :
    Published eventId (call.perform s) runId after stream count := by
  obtain ⟨⟨events, carried, same⟩, cursor, bounded⟩ := published
  obtain ⟨more, grown⟩ := call.listEvents_prefix reached runId after
  refine ⟨⟨events, carried, ?_⟩, cursor, ?_⟩
  · rw [same, ← grown, List.take_append_of_le_length bounded]
  · rw [← grown, List.length_append]
    omega

theorem Published.heartbeat (published : Published eventId s runId after stream count) :
    Published eventId s runId after (stream.write keepalive) count := by
  obtain ⟨⟨events, carried, same⟩, cursor, bounded⟩ := published
  refine ⟨⟨events ++ [none], List.rel_append carried (.cons keepalive_carries .nil), ?_⟩, cursor, bounded⟩
  rw [List.reduceOption_append, same]
  simp

/-- Nothing was appended since the last poll. -/
def StreamStep.keepsUp (current : Bool) : StreamStep → Bool
  | .call _ => false
  | .poll => true
  | .heartbeat => current

def upToDate (steps : List StreamStep) : Bool := steps.foldl StreamStep.keepsUp true

theorem streamEvents_published (reached : Reachable s) (runId : RunId) (after : Nat) (steps : List StreamStep) :
    let open_ := streamEvents eventId s runId after steps
    Reachable open_.1 ∧ ∃ count, Published eventId open_.1 runId after open_.2 count ∧
      (upToDate steps = true → count = (listEvents open_.1 runId after).length) := by
  induction steps using List.reverseRecOn with
  | nil =>
    have start : Published eventId s runId after { sequence := after, written := [] } 0 :=
      ⟨⟨[], .nil, rfl⟩, rfl, Nat.zero_le _⟩
    exact ⟨reached, _, start.publish eventId (numbered_reached reached), fun _ => rfl⟩
  | append_singleton steps step ih =>
    obtain ⟨reached', count, published, current⟩ := ih
    have later : streamEvents eventId s runId after (steps ++ [step]) =
        step.perform eventId runId (streamEvents eventId s runId after steps) := by
      rw [streamEvents, List.foldl_append]
      rfl
    have state : upToDate (steps ++ [step]) = step.keepsUp (upToDate steps) := by
      rw [upToDate, List.foldl_append]
      rfl
    simp only [later, state]
    cases step with
    | call call => exact ⟨.step call reached' trivial, count, published.call eventId reached' call, fun no => by cases no⟩
    | poll => exact ⟨reached', _, published.publish eventId (numbered_reached reached'), fun _ => rfl⟩
    | heartbeat => exact ⟨reached', count, published.heartbeat eventId, current⟩

theorem streamEvents_grows (reached : Reachable s) (runId : RunId) (after start : Nat) (steps : List StreamStep) :
    listEvents s runId start <+: listEvents (streamEvents eventId s runId after steps).1 runId start := by
  induction steps using List.reverseRecOn with
  | nil => exact List.prefix_rfl
  | append_singleton steps step ih =>
    have later : streamEvents eventId s runId after (steps ++ [step]) =
        step.perform eventId runId (streamEvents eventId s runId after steps) := by
      rw [streamEvents, List.foldl_append]
      rfl
    rw [later]
    cases step with
    | call call =>
      have open_ := (streamEvents_published eventId reached runId after steps).1
      exact ih.trans (call.listEvents_prefix open_ runId start)
    | poll => exact ih
    | heartbeat => exact ih

end Response

/-! Following a Run: a client attaches again after the last event it was given. -/

/-- How one response goes: what the store does before the request and while it is open, how its
bytes are cut, whether all of them arrive, whether the client sees its end, and how many events
the client waits for. -/
structure Attachment where
  before : List Call
  steps : List StreamStep
  sizes : List Nat
  whole : Bool
  ended : Bool
  wanted : Option Nat

/-- Chunks of the given sizes, and all the rest in a last one if it arrives. -/
def cut (whole : Bool) : List Nat → Bytes → List Bytes
  | [], bytes => if whole then [bytes] else []
  | size :: sizes, bytes => bytes.take size :: cut whole sizes (bytes.drop size)

def sequenceNumber (event : JsonValue) : Nat :=
  match event.get? (units "sequence") with
  | some (.number literal) => digitsValue literal.whole
  | _ => 0

/-- The store, the number to ask for next, and the events given so far. -/
structure Follower where
  store : Store
  after : Nat
  delivered : List JsonValue

section Follow
variable (eventId : RunId → Nat → String) (runId : RunId)

def Follower.attach (follower : Follower) (attachment : Attachment) : Follower :=
  let open_ := streamEvents eventId (Transaction.performAll Call.perform attachment.before follower.store) runId follower.after attachment.steps
  let arrived := Sdk.streamEvents (cut attachment.whole attachment.sizes open_.2.bytes) attachment.ended
  let events := (attachment.wanted.map arrived.take).getD arrived
  { store := open_.1
    after := (events.getLast?.map sequenceNumber).getD follower.after
    delivered := follower.delivered ++ events }

def follow (s : Store) (start : Nat) (attachments : List Attachment) : Follower :=
  attachments.foldl (Follower.attach eventId runId) { store := s, after := start, delivered := [] }

/-- All of the response arrived and was taken, and nothing was appended since its last poll. -/
def Attachment.caughtUp (attachment : Attachment) : Bool :=
  upToDate attachment.steps && attachment.whole && attachment.wanted.isNone

/-- The events given so far are the first ones past the starting point. -/
structure Followed (start : Nat) (follower : Follower) (count : Nat) : Prop where
  reached : Reachable follower.store
  given : follower.delivered = ((listEvents follower.store runId start).take count).map (eventValue eventId)
  next : follower.after = start + count
  bounded : count ≤ (listEvents follower.store runId start).length

theorem cut_starts (whole : Bool) (sizes : List Nat) (bytes : Bytes) : (cut whole sizes bytes).flatten <+: bytes := by
  induction sizes generalizing bytes with
  | nil => cases whole <;> simp [cut]
  | cons size sizes ih =>
    have rest := ih (bytes.drop size)
    obtain ⟨more, same⟩ := rest
    refine ⟨more, ?_⟩
    rw [cut, List.flatten_cons, List.append_assoc, same, List.take_append_drop]

theorem cut_whole (sizes : List Nat) (bytes : Bytes) : (cut true sizes bytes).flatten = bytes := by
  induction sizes generalizing bytes with
  | nil => simp [cut]
  | cons size sizes ih => rw [cut, List.flatten_cons, ih, List.take_append_drop]

theorem sequenceNumber_eventValue (event : RunEvent) : sequenceNumber (eventValue eventId event) = event.sequence :=
  digitsValue_digitsOf event.sequence

theorem performAll_grows {s : Store} (reached : Reachable s) (calls : List Call) (start : Nat) :
    Reachable (Transaction.performAll Call.perform calls s) ∧
      listEvents s runId start <+: listEvents (Transaction.performAll Call.perform calls s) runId start := by
  induction calls using List.reverseRecOn with
  | nil => exact ⟨reached, List.prefix_rfl⟩
  | append_singleton calls call ih =>
    obtain ⟨reached', grown⟩ := ih
    rw [Transaction.performAll_concat]
    exact ⟨.step call reached' trivial, grown.trans (call.listEvents_prefix reached' runId start)⟩

/-- The number to ask for next is the one of the last event given. -/
theorem next_of_numbers {events : List RunEvent} {after : Nat}
    (numbers : events.map (·.sequence) = List.range' (after + 1) events.length) :
    (((events.map (eventValue eventId)).getLast?).map sequenceNumber).getD after = after + events.length := by
  rcases List.eq_nil_or_concat events with rfl | ⟨before, last, rfl⟩
  · rfl
  · rw [List.concat_eq_append, List.length_append, List.length_singleton, List.range'_1_concat, List.map_append,
      List.map_singleton] at numbers
    have number := List.singleton_inj.mp (List.append_inj_right' numbers rfl)
    simp only [List.concat_eq_append, List.map_append, List.map_singleton, List.getLast?_append_of_ne_nil _ (List.cons_ne_nil _ _),
      List.getLast?_singleton, Option.map_some, Option.getD_some, sequenceNumber_eventValue, List.length_append,
      List.length_singleton]
    omega

/-- One response more: the events given are still the first ones past the starting point. -/
theorem Followed.attach {start count : Nat} {follower : Follower} (followed : Followed eventId runId start follower count)
    (attachment : Attachment) : ∃ total, Followed eventId runId start (follower.attach eventId runId attachment) total ∧
      (attachment.caughtUp = true →
        total = (listEvents (follower.attach eventId runId attachment).store runId start).length) := by
  obtain ⟨reached, given, next, bounded⟩ := followed
  let s := Transaction.performAll Call.perform attachment.before follower.store
  let open_ := streamEvents eventId s runId follower.after attachment.steps
  let arrived := Sdk.streamEvents (cut attachment.whole attachment.sizes open_.2.bytes) attachment.ended
  let events := (attachment.wanted.map arrived.take).getD arrived
  let journal := listEvents open_.1 runId start
  obtain ⟨reached', grown⟩ := performAll_grows runId reached attachment.before start
  obtain ⟨reachedOpen, published, ⟨⟨carried, frames, same⟩, -, limit⟩, current⟩ :=
    streamEvents_published eventId reached' runId follower.after attachment.steps
  have grownOpen : listEvents follower.store runId start <+: journal :=
    grown.trans (streamEvents_grows eventId reached' runId follower.after start attachment.steps)
  have rest : listEvents open_.1 runId follower.after = journal.drop count := by
    rw [next, listEvents_add (numbered_reached reachedOpen)]
  have within : count ≤ journal.length := bounded.trans grownOpen.length_le
  have taken : events <+: arrived := by
    cases wanted : attachment.wanted with
    | none => simp [events, wanted]
    | some most => simpa [events, wanted] using List.take_prefix most arrived
  have shown : events <+: (journal.drop count).map (eventValue eventId) := by
    refine taken.trans ((streamEvents_delivers frames _ (cut_starts ..)).trans ?_)
    rw [same, rest]
    exact (List.take_prefix ..).map _
  have some : events = ((journal.drop count).take events.length).map (eventValue eventId) := by
    rw [List.map_take]
    exact List.prefix_iff_eq_take.mp shown
  have fits : events.length ≤ journal.length - count := by
    have most := shown.length_le
    rwa [List.length_map, List.length_drop] at most
  have numbers : ((journal.drop count).take events.length).map (·.sequence) =
      List.range' (follower.after + 1) ((journal.drop count).take events.length).length := by
    have all := listEvents_sequences (numbered_reached reachedOpen) runId follower.after
    rw [rest] at all
    rw [List.map_take, all, List.length_take, List.length_drop, Nat.min_eq_left fits, List.take_range'_of_length_ge fits]
  refine ⟨count + events.length, ⟨reachedOpen, ?_, ?_, ?_⟩, ?_⟩
  · obtain ⟨more, grows⟩ := grownOpen
    have before : (listEvents follower.store runId start).take count = journal.take count := by
      rw [← grows, List.take_append_of_le_length bounded]
    change follower.delivered ++ events = (journal.take (count + events.length)).map (eventValue eventId)
    rw [given, before, List.take_add, List.map_append, ← some]
  · have last := next_of_numbers eventId numbers
    rw [← some, List.length_take, List.length_drop, Nat.min_eq_left fits, next] at last
    change (events.getLast?.map sequenceNumber).getD follower.after = start + (count + events.length)
    rw [next, last]
    omega
  · change count + events.length ≤ journal.length
    omega
  · intro caught
    simp only [Attachment.caughtUp, Bool.and_eq_true, Option.isNone_iff_eq_none] at caught
    obtain ⟨⟨up, whole⟩, patient⟩ := caught
    have all : events = carried.reduceOption := by
      have untouched : events = arrived := by simp [events, patient]
      rw [untouched]
      refine streamEvents_whole frames _ ?_
      rw [whole]
      exact cut_whole _ _
    have length : events.length = (journal.drop count).length := by
      rw [all, same, current up, List.take_length, List.length_map, rest]
    change count + events.length = journal.length
    rw [length, List.length_drop]
    omega

theorem follow_followed {s : Store} (reached : Reachable s) (start : Nat) (attachments : List Attachment) :
    ∃ count, Followed eventId runId start (follow eventId runId s start attachments) count ∧
      ∀ last, attachments.getLast? = some last → last.caughtUp = true →
        count = (listEvents (follow eventId runId s start attachments).store runId start).length := by
  induction attachments using List.reverseRecOn with
  | nil => exact ⟨0, ⟨reached, rfl, rfl, Nat.zero_le _⟩, fun _ none => by cases none⟩
  | append_singleton attachments attachment ih =>
    obtain ⟨count, followed, -⟩ := ih
    have later : follow eventId runId s start (attachments ++ [attachment]) =
        (follow eventId runId s start attachments).attach eventId runId attachment := by
      rw [follow, List.foldl_append]
      rfl
    obtain ⟨total, kept, caught⟩ := followed.attach eventId runId attachment
    rw [later]
    refine ⟨total, kept, fun last same up => caught ?_⟩
    rw [List.getLast?_concat] at same
    rwa [Option.some.inj same]

/-- The events of a Run are numbered from one without a gap, `listEvents` gives those after a
number, and a client that attaches again and again is given each of them once and in order; it
has all of them once a response has arrived whole with nothing appended since its last poll. -/
theorem events_delivered_once (history : List Call) (runId : RunId) :
    (listEvents (storeAfter history) runId).map (·.sequence) =
        List.range' 1 (listEvents (storeAfter history) runId).length ∧
      (∀ afterSequence, listEvents (storeAfter history) runId afterSequence =
        (listEvents (storeAfter history) runId).drop afterSequence) ∧
      ∀ (eventId : RunId → Nat → String) (start : Nat) (attachments : List Attachment),
        let follower := follow eventId runId (storeAfter history) start attachments
        follower.delivered <+: (listEvents follower.store runId start).map (eventValue eventId) ∧
          ∀ last, attachments.getLast? = some last → last.caughtUp = true →
            follower.delivered = (listEvents follower.store runId start).map (eventValue eventId) := by
  have numbered := numbered_reached (reachable_storeAfter history)
  refine ⟨listEvents_sequences numbered runId 0, fun afterSequence => ?_, fun eventId start attachments => ?_⟩
  · have added := listEvents_add numbered runId 0 afterSequence
    rwa [Nat.zero_add] at added
  · obtain ⟨count, followed, caught⟩ := follow_followed eventId runId (reachable_storeAfter history) start attachments
    refine ⟨?_, fun last same up => ?_⟩
    · rw [followed.given]
      exact (List.take_prefix ..).map _
    · rw [followed.given, caught last same up, List.take_length]

end Follow

end OttiliCoder
