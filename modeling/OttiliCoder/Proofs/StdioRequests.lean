import OttiliCoder.Integrations.Stdio
import OttiliCoder.Library.Reached

/-! The requests of a connection: those pending, and those settled. -/

namespace OttiliCoder.Stdio
open Host JsonRpc Transaction

/-! The ids tell requests apart. -/

theorem mcp_injective : Function.Injective mcpWire.requestId := by
  intro first second same
  have texts : digitUnits (digitsOf first) = digitUnits (digitsOf second) := List.append_cancel_left (MapKey.string.inj same)
  have digits : digitsOf first = digitsOf second := by
    refine List.map_injective_iff.mpr ?_ texts
    intro digit other equal
    exact Fin.ext (Nat.add_left_cancel equal)
  rw [← digitsValue_digitsOf first, digits, digitsValue_digitsOf]

theorem lsp_injective : Function.Injective lspWire.requestId := by
  intro first second same
  exact_mod_cast MapKey.number.inj same

/-- The settlement is the request's own. -/
def Settlement.Own (wire : Wire) (request : Nat) : Settlement wire.Reason → Prop
  | answered message => ∃ id, message.responseTo = some id ∧ id.key = wire.requestId request
  | aborted other => other = request
  | writeFailed other => other = request
  | closed _ => True

namespace Connection
variable {wire : Wire} {connection : Connection wire}

/-- The numbers of the pending requests and of the settled ones. -/
def accounts (connection : Connection wire) : List Nat := connection.pending.map Prod.snd ++ connection.settled.map Prod.fst

structure Sound (connection : Connection wire) : Prop where
  named : ∀ entry ∈ connection.pending, entry.1 = wire.requestId entry.2
  /-- Every request issued is pending or settled, and once. -/
  issued : connection.accounts.Perm (List.range' 1 (connection.nextId - 1))
  counted : 1 ≤ connection.nextId
  listening : ∀ request ∈ connection.listening, request ∈ connection.pending.map Prod.snd
  once : connection.listening.Nodup
  own : ∀ settlement ∈ connection.settled, settlement.2.Own wire settlement.1
  ended : connection.closed = true → connection.pending = []

theorem sound_initial : (initial wire).Sound where
  named _ none := nomatch none
  issued := .refl _
  counted := Nat.le_refl _
  listening _ none := nomatch none
  once := List.nodup_nil
  own _ none := nomatch none
  ended _ := rfl

theorem Sound.nodup (sound : connection.Sound) : connection.accounts.Nodup := sound.issued.nodup_iff.mpr List.nodup_range'

theorem Sound.mem_accounts (sound : connection.Sound) {request : Nat} :
    request ∈ connection.accounts ↔ 1 ≤ request ∧ request < connection.nextId := by
  have counted := sound.counted
  rw [sound.issued.mem_iff, List.mem_range'_1]
  omega

theorem Sound.keys (sound : connection.Sound) (injective : Function.Injective wire.requestId) :
    (connection.pending.map Prod.fst).Nodup := by
  have same : connection.pending.map Prod.fst = (connection.pending.map Prod.snd).map wire.requestId := by
    rw [List.map_map]
    exact List.map_congr_left sound.named
  rw [same]
  exact (List.nodup_append.mp sound.nodup).1.map injective

/-- A pending request is settled and its entry erased. -/
theorem Sound.settled (sound : connection.Sound) (injective : Function.Injective wire.requestId) {key : MapKey} {request : Nat}
    {settlement : Settlement wire.Reason} (entry : (key, request) ∈ connection.pending) (own : settlement.Own wire request) :
    Sound { connection with
      pending := Entries.erase key connection.pending
      listening := connection.listening.erase request
      settled := connection.settled ++ [(request, settlement)] } := by
  have erased := Entries.perm_erase (sound.keys injective) entry
  have issued : (request :: (Entries.erase key connection.pending).map Prod.snd ++ connection.settled.map Prod.fst).Perm
      connection.accounts := ((erased.map Prod.snd).append_right _).symm
  refine ⟨?_, ?_, sound.counted, ?_, sound.once.erase _, ?_, ?_⟩
  · intro other listed
    exact sound.named other (Entries.mem_erase.mp listed).1
  · refine List.Perm.trans ?_ (issued.trans sound.issued)
    rw [accounts, List.map_append, ← List.append_assoc]
    exact List.perm_append_comm
  · intro other listed
    have heard := sound.listening other (List.mem_of_mem_erase listed)
    have apart : other ≠ request := fun same => (sound.once.mem_erase_iff.mp listed).1 same
    rw [(erased.map Prod.snd).mem_iff] at heard
    exact (List.mem_cons.mp heard).resolve_left apart
  · intro other listed
    rcases List.mem_append.mp listed with old | new
    · exact sound.own other old
    · rw [List.mem_singleton.mp new]
      exact own
  · intro closed
    rw [sound.ended closed] at entry
    cases entry

theorem Sound.settle (sound : connection.Sound) (injective : Function.Injective wire.requestId) {key : MapKey}
    {settlement : Settlement wire.Reason} (own : ∀ request, wire.requestId request = key → settlement.Own wire request) :
    (connection.settle key settlement).Sound := by
  unfold Connection.settle
  split
  · exact sound
  · next request found =>
    have entry := Entries.mem_of_lookup found
    exact sound.settled injective entry (own request (sound.named _ entry).symm)

theorem Sound.abort (sound : connection.Sound) (injective : Function.Injective wire.requestId) (request : Nat) :
    (connection.abort request).Sound := by
  unfold Connection.abort
  split
  · next listening =>
    obtain ⟨entry, listed, rfl⟩ := List.mem_map.mp (sound.listening request listening)
    have named : (wire.requestId entry.2, entry.2) ∈ connection.pending := by
      rw [← sound.named entry listed]
      exact listed
    exact sound.settled injective named rfl
  · exact sound

theorem Sound.handleMessage (sound : connection.Sound) (injective : Function.Injective wire.requestId) (message : JsonRpcMessage) :
    (connection.handleMessage message).Sound := by
  have given : ∀ handled, Sound { connection with handled } := fun _ =>
    ⟨sound.named, sound.issued, sound.counted, sound.listening, sound.once, sound.own, sound.ended⟩
  unfold Connection.handleMessage
  dsimp only
  split
  · exact given _
  · next id responds => exact (given _).settle injective fun request same => ⟨id, responds, same.symm⟩

theorem Sound.finish (sound : connection.Sound) (reason : Option wire.Reason) : (connection.finish reason).Sound := by
  unfold Connection.finish
  split
  · exact sound
  · refine ⟨fun _ none => (nomatch none), ?_, sound.counted, ?_, sound.once.filter _, ?_, fun _ => rfl⟩
    · refine List.Perm.trans ?_ sound.issued
      rw [accounts, List.map_append, List.map_map]
      change (connection.settled.map Prod.fst ++ connection.pending.map Prod.snd).Perm connection.accounts
      exact List.perm_append_comm
    · intro request listed
      obtain ⟨listening, unlisted⟩ := List.mem_filter.mp listed
      obtain ⟨entry, pending, rfl⟩ := List.mem_map.mp (sound.listening request listening)
      simp only [Bool.not_eq_true', List.any_eq_false] at unlisted
      exact absurd (beq_self_eq_true entry.2) (unlisted entry pending)
    · intro settlement listed
      rcases List.mem_append.mp listed with old | new
      · exact sound.own settlement old
      · obtain ⟨entry, _, rfl⟩ := List.mem_map.mp new
        trivial

theorem setPending_new {key : MapKey} {request : Nat} {pending : List (MapKey × Nat)} (new : ∀ entry ∈ pending, entry.1 ≠ key) :
    setPending key request pending = pending ++ [(key, request)] := by
  unfold setPending
  rw [Entries.lookup_eq_none.mpr new]
  rfl

theorem Sound.requested (sound : connection.Sound) (injective : Function.Injective wire.requestId) {signal : Bool}
    {requested : Connection wire} (request : connection.request signal = .ok requested) : requested.Sound := by
  unfold Connection.request at request
  split at request
  · cases request
  · next opened =>
    obtain rfl := Except.ok.inj request
    have new : ∀ entry ∈ connection.pending, entry.1 ≠ wire.requestId connection.nextId := by
      intro entry listed same
      rw [sound.named entry listed] at same
      have number := injective same
      have listed : entry.2 ∈ connection.accounts := List.mem_append_left _ (List.mem_map_of_mem listed)
      have bound := (sound.mem_accounts.mp listed).2
      omega
    rw [setPending_new new]
    refine ⟨?_, ?_, Nat.le_succ_of_le sound.counted, ?_, ?_, sound.own, fun closed => absurd closed opened⟩
    · intro entry listed
      rcases List.mem_append.mp listed with old | fresh
      · exact sound.named entry old
      · rw [List.mem_singleton.mp fresh]
    · obtain ⟨count, counted⟩ : ∃ count, connection.nextId = count + 1 := Nat.exists_eq_succ_of_ne_zero (Nat.ne_of_gt sound.counted)
      have issued := sound.issued
      simp only [accounts, counted, Nat.add_sub_cancel, List.map_append, List.map_cons, List.map_nil] at issued ⊢
      rw [List.range'_concat, Nat.mul_comm, Nat.mul_one, Nat.add_comm 1 count, List.append_assoc]
      refine List.Perm.trans ?_ (issued.append_right _)
      rw [List.append_assoc]
      exact List.perm_append_comm.append_left _
    · intro request listed
      rw [List.map_append]
      split at listed
      · rcases List.mem_append.mp listed with old | fresh
        · exact List.mem_append_left _ (sound.listening request old)
        · exact List.mem_append_right _ fresh
      · exact List.mem_append_left _ (sound.listening request listed)
    · split
      · refine List.nodup_append.mpr ⟨sound.once, List.nodup_singleton _, ?_⟩
        intro request listed other fresh same
        obtain rfl := List.mem_singleton.mp fresh
        have issued : request ∈ connection.accounts := List.mem_append_left _ (sound.listening request listed)
        have bound := (sound.mem_accounts.mp issued).2
        omega
      · exact sound.once

theorem Sound.consume (sound : connection.Sound) (injective : Function.Injective wire.requestId) (chunk : Host.Bytes) :
    (connection.consume chunk).Sound := by
  have handled : ∀ (messages : List JsonRpcMessage) (connection : Connection wire), connection.Sound →
      (messages.foldl Connection.handleMessage connection).Sound := by
    intro messages
    induction messages with
    | nil => exact fun _ sound => sound
    | cons message rest ih => exact fun _ sound => ih _ (sound.handleMessage injective message)
  have read : ∀ reader, Sound { connection with reader } := fun _ =>
    ⟨sound.named, sound.issued, sound.counted, sound.listening, sound.once, sound.own, sound.ended⟩
  unfold Connection.consume
  dsimp only
  split
  · exact handled _ _ (read _)
  · exact (handled _ _ (read _)).finish _

theorem sound_perform (injective : Function.Injective wire.requestId) (event : StdioEvent wire.Reason) (sound : connection.Sound) :
    (connection.perform event).Sound := by
  unfold perform
  cases event with
  | request signal =>
    dsimp only
    split
    · exact sound
    · next requested request => exact sound.requested injective request
  | abort request => exact sound.abort injective request
  | writeFails request => exact sound.settle injective fun _ same => (injective same).symm
  | data chunk => exact sound.consume injective chunk
  | close => exact sound.finish none
  | ends reason => exact sound.finish (some reason)

theorem sound_performAll (injective : Function.Injective wire.requestId) (events : List (StdioEvent wire.Reason)) :
    (performAll perform events (initial wire)).Sound := by
  suffices each : ∀ connection : Connection wire, connection.Sound → (performAll perform events connection).Sound from each _ sound_initial
  induction events with
  | nil => exact fun _ sound => sound
  | cons event rest ih => exact fun connection sound => ih _ (sound_perform injective event sound)

/-! What that says of the requests. -/

def settledRequests (connection : Connection wire) : List Nat := connection.settled.map Prod.fst

/-- The requests issued are accounted for. -/
structure Accounted (connection : Connection wire) : Prop where
  /-- No request is settled twice. -/
  once : ∀ request, connection.settledRequests.count request ≤ 1
  own : ∀ settlement ∈ connection.settled, settlement.2.Own wire settlement.1
  /-- The map holds the requests issued and not settled. -/
  pending : ∀ key request, (key, request) ∈ connection.pending ↔
    key = wire.requestId request ∧ (1 ≤ request ∧ request < connection.nextId) ∧ request ∉ connection.settledRequests
  closed : connection.closed = true →
    connection.pending = [] ∧ ∀ signal, connection.request signal = .error connection.closeReason

theorem Sound.accounted (sound : connection.Sound) : connection.Accounted where
  once request := List.nodup_iff_count_le_one.mp (List.nodup_append.mp sound.nodup).2.1 request
  own := sound.own
  pending key request := by
    rw [← sound.mem_accounts]
    constructor
    · intro listed
      have pending : request ∈ connection.pending.map Prod.snd := List.mem_map_of_mem listed
      refine ⟨sound.named _ listed, List.mem_append_left _ pending, ?_⟩
      exact fun settled => (List.nodup_append.mp sound.nodup).2.2 request pending request settled rfl
    · rintro ⟨named, issued, unsettled⟩
      obtain ⟨entry, listed, same⟩ := List.mem_map.mp ((List.mem_append.mp issued).resolve_right unsettled)
      have key_eq := sound.named entry listed
      rw [named, ← same, ← key_eq]
      exact listed
  closed closed := ⟨sound.ended closed, fun _ => if_pos closed⟩

end Connection

/-! What a connection reads, apart from its requests. -/

structure Reading (wire : Wire) where
  reader : wire.Reader
  handled : List JsonRpcMessage
  closed : Bool

namespace Reading
variable {wire : Wire}

def start (wire : Wire) : Reading wire := ⟨wire.start, [], false⟩

def read (reading : Reading wire) (chunk : Host.Bytes) : Reading wire where
  reader := (wire.push chunk reading.reader).1
  handled := if reading.closed then reading.handled else reading.handled ++ (wire.push chunk reading.reader).2.1
  closed := reading.closed || (wire.push chunk reading.reader).2.2.isSome

end Reading

/-- The chunks that have arrived. -/
def chunks {Reason : Type} (events : List (StdioEvent Reason)) : List Host.Bytes :=
  events.filterMap fun event =>
    match event with
    | .data chunk => some chunk
    | _ => none

/-- The connection is told to close, or hears from its process. -/
def StdioEvent.closes {Reason : Type} : StdioEvent Reason → Bool
  | close => true
  | ends _ => true
  | _ => false

namespace Connection
variable {wire : Wire}

def reading (connection : Connection wire) : Reading wire := ⟨connection.reader, connection.handled, connection.closed⟩

theorem settle_reading (connection : Connection wire) (key : MapKey) (settlement : Settlement wire.Reason) :
    (connection.settle key settlement).reading = connection.reading := by
  unfold settle
  split <;> rfl

theorem handleMessage_reading (connection : Connection wire) (message : JsonRpcMessage) :
    (connection.handleMessage message).reading =
      { connection.reading with
        handled := if connection.closed then connection.handled else connection.handled ++ [message] } := by
  unfold handleMessage
  dsimp only
  split
  · rfl
  · exact settle_reading _ _ _

theorem foldl_reading (messages : List JsonRpcMessage) (connection : Connection wire) :
    (messages.foldl handleMessage connection).reading =
      { connection.reading with
        handled := if connection.closed then connection.handled else connection.handled ++ messages } := by
  induction messages generalizing connection with
  | nil => simp [reading]
  | cons message rest ih =>
    have one := handleMessage_reading connection message
    have closed : (connection.handleMessage message).closed = connection.closed := congrArg Reading.closed one
    have handled : (connection.handleMessage message).handled =
        if connection.closed then connection.handled else connection.handled ++ [message] := congrArg Reading.handled one
    rw [List.foldl_cons, ih, one, closed, handled]
    cases connection.closed <;> simp

theorem finish_reading (connection : Connection wire) (reason : Option wire.Reason) :
    (connection.finish reason).reading = { connection.reading with closed := true } := by
  unfold finish
  split
  · next closed => rw [← closed]; rfl
  · rfl

theorem consume_reading (connection : Connection wire) (chunk : Host.Bytes) :
    (connection.consume chunk).reading = connection.reading.read chunk := by
  have same : connection.reading.reader = connection.reader := rfl
  unfold consume Reading.read
  rw [same]
  generalize wire.push chunk connection.reader = pushed
  obtain ⟨reader, messages, failed⟩ := pushed
  cases failed with
  | none =>
    dsimp only
    rw [foldl_reading]
    cases closed : connection.closed <;> simp [reading, closed]
  | some reason =>
    dsimp only
    rw [finish_reading, foldl_reading]
    cases closed : connection.closed <;> simp [reading, closed]

/-- Unless it is closed from elsewhere, a connection reads the chunks that arrive, whatever its requests do. -/
theorem performAll_reading (events : List (StdioEvent wire.Reason)) (goesOn : ∀ event ∈ events, event.closes = false)
    (connection : Connection wire) :
    (performAll perform events connection).reading = (chunks events).foldl Reading.read connection.reading := by
  induction events generalizing connection with
  | nil => rfl
  | cons event rest ih =>
    have later := ih (fun other listed => goesOn other (List.mem_cons_of_mem _ listed)) (connection.perform event)
    refine Eq.trans later ?_
    cases event with
    | data chunk =>
      change (chunks rest).foldl Reading.read (connection.consume chunk).reading = _
      rw [consume_reading]
      rfl
    | request signal =>
      have same : (connection.perform (.request signal)).reading = connection.reading := by
        unfold perform request
        dsimp only
        split
        · rfl
        · next requested asked =>
          split at asked
          · cases asked
          · rw [← Except.ok.inj asked]
            rfl
      rw [same]
      rfl
    | abort request =>
      have same : (connection.abort request).reading = connection.reading := by
        unfold abort
        split <;> rfl
      change (chunks rest).foldl Reading.read (connection.abort request).reading = _
      rw [same]
      rfl
    | writeFails request =>
      change (chunks rest).foldl Reading.read (connection.settle _ _).reading = _
      rw [settle_reading]
      rfl
    | close => cases goesOn _ List.mem_cons_self
    | ends reason => cases goesOn _ List.mem_cons_self

end Connection

end OttiliCoder.Stdio
