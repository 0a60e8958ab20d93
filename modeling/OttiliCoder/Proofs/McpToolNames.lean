import OttiliCoder.Library.Results
import OttiliCoder.Runtime.McpTools

/-! When the tools of the connected MCP servers make one registry: exactly when no two of them get one name. -/

namespace OttiliCoder.Mcp
open Host Relational Results

/-- A tool together with the server that offers it. -/
abbrev Offer := ServerId × McpToolDescriptor

namespace Offer

def name (offer : Offer) : String := mcpToolName offer.1 offer.2.name

/-- The definition that is built of it; nothing where the server or the tool has no name. -/
def definition? (options : McpToolsOptions) (offer : Offer) : Except String RuntimeToolDefinition := do
  let policyDefinition ← toMcpToolDefinition offer.1 offer.2 ((options.safety offer.1).getD {})
  return toRuntimeToolDefinition policyDefinition
    { serverId := offer.1, toolName := offer.2.name, maxOutputBytes := options.maxOutputBytes }

def Named (offer : Offer) : Prop := isBlank offer.1 = false ∧ isBlank offer.2.name = false

end Offer

/-- What a server offers by its answer. -/
def offered (answers : ServerId → ListAnswer) (serverId : ServerId) : List Offer :=
  match listTools (answers serverId) with
  | .error _ => []
  | .ok tools => tools.map fun tool => (serverId, tool)

section Registering
variable {options : McpToolsOptions} {registry registry' : ToolRegistry} {offer : Offer} {offers : List Offer}
  {definition : RuntimeToolDefinition}

theorem toMcpToolDefinition_ok {serverId : ServerId} {tool : McpToolDescriptor} {metadata : McpToolSafetyMetadata} {policy : McpToolPolicy}
    (built : toMcpToolDefinition serverId tool metadata = .ok policy) : policy.name = mcpToolName serverId tool.name := by
  unfold toMcpToolDefinition at built
  split at built
  · cases built
  · cases built
    rfl

/-- What is built of an offer has its name, and calls its tool. -/
theorem definition_ok (built : offer.definition? options = .ok definition) :
    definition.name = offer.name ∧ definition.execute.serverId = offer.1 ∧ definition.execute.toolName = offer.2.name := by
  obtain ⟨policy, made, returned⟩ := except_bind_ok.mp built
  obtain rfl := Except.ok.inj returned
  exact ⟨toMcpToolDefinition_ok made, rfl, rfl⟩

theorem named_iff (options : McpToolsOptions) : offer.Named ↔ ∃ definition, offer.definition? options = .ok definition := by
  unfold Offer.Named Offer.definition? toMcpToolDefinition
  cases isBlank offer.1 <;> cases isBlank offer.2.name <;> simp [bind, Except.bind, pure, Except.pure]

theorem register_ok : register registry definition = .ok registry' ↔
    registry.find? definition.name = none ∧ registry'.rows = registry.rows ++ [definition] := by
  unfold register
  cases stored : registry.find? definition.name with
  | some other => simp
  | none =>
    have inserted := Keyed.insert_rows stored
    constructor
    · intro returned
      obtain rfl := Except.ok.inj returned
      exact ⟨rfl, inserted⟩
    · rintro ⟨_, rows⟩
      exact congrArg Except.ok (Keyed.ext (inserted.trans rows.symm))

theorem registerTool_ok : registerTool options offer.1 registry offer.2 = .ok registry' ↔
    ∃ definition, offer.definition? options = .ok definition ∧ registry.find? definition.name = none ∧
      registry'.rows = registry.rows ++ [definition] := by
  unfold registerTool Offer.definition?
  rw [except_bind_ok]
  constructor
  · rintro ⟨policy, made, registered⟩
    exact ⟨_, except_bind_ok.mpr ⟨policy, made, rfl⟩, register_ok.mp registered⟩
  · rintro ⟨definition, built, fresh, rows⟩
    obtain ⟨policy, made, returned⟩ := except_bind_ok.mp built
    obtain rfl := Except.ok.inj returned
    exact ⟨policy, made, register_ok.mpr ⟨fresh, rows⟩⟩

/-- Offers are registered one after another when each can be built and no name is taken. -/
theorem registerOffers_ok : offers.foldlM (fun registry offer => registerTool options offer.1 registry offer.2) registry = .ok registry' ↔
    ∃ definitions, List.Forall₂ (fun offer definition => offer.definition? options = .ok definition) offers definitions ∧
      ((registry.rows ++ definitions).map RuntimeToolDefinition.name).Nodup ∧ registry'.rows = registry.rows ++ definitions := by
  induction offers generalizing registry with
  | nil =>
    constructor
    · intro returned
      obtain rfl := Except.ok.inj returned
      exact ⟨[], .nil, by simpa using registry.unique, by simp⟩
    · rintro ⟨definitions, built, _, rows⟩
      cases built
      exact congrArg Except.ok (Keyed.ext (by simpa using rows.symm))
  | cons offer offers ih =>
    rw [List.foldlM_cons, except_bind_ok]
    constructor
    · rintro ⟨middle, registered, rest⟩
      obtain ⟨definition, built, -, one⟩ := registerTool_ok.mp registered
      obtain ⟨definitions, others, distinct, all⟩ := ih.mp rest
      rw [one, List.append_assoc, List.singleton_append] at distinct all
      exact ⟨definition :: definitions, .cons built others, distinct, all⟩
    · rintro ⟨definitions, built, distinct, rows⟩
      cases built with
      | @cons _ definition _ definitions built others =>
        have fresh : registry.find? definition.name = none := by
          rw [Keyed.find?_eq_none]
          intro row stored same
          rw [List.map_append] at distinct
          exact (List.nodup_append.mp distinct).2.2 _ (List.mem_map_of_mem stored) _ (List.mem_map_of_mem List.mem_cons_self) same
        have one := Keyed.insert_rows fresh
        refine ⟨registry.insert definition, registerTool_ok.mpr ⟨definition, built, fresh, one⟩, ih.mpr ⟨definitions, others, ?_, ?_⟩⟩
        · rwa [one, List.append_assoc, List.singleton_append]
        · rwa [one, List.append_assoc, List.singleton_append]

theorem registerServer_eq (answers : ServerId → ListAnswer) (serverId : ServerId) : registerServer options answers registry serverId =
    (offered answers serverId).foldlM (fun registry offer => registerTool options offer.1 registry offer.2) registry := by
  unfold registerServer offered
  cases listTools (answers serverId) with
  | error _ => rfl
  | ok tools => rw [List.foldlM_map]

end Registering

/-- All offers, in the order in which they are registered. -/
def allOffered (answers : ServerId → ListAnswer) (connectedServerIds : List ServerId) : List Offer := connectedServerIds.flatMap (offered answers)

theorem createMcpTools_eq (options : McpToolsOptions) (answers : ServerId → ListAnswer) (connectedServerIds : List ServerId) :
    createMcpTools options connectedServerIds answers =
      (allOffered answers connectedServerIds).foldlM (fun registry offer => registerTool options offer.1 registry offer.2) .empty := by
  unfold createMcpTools allOffered
  generalize (Keyed.empty : ToolRegistry) = registry
  induction connectedServerIds generalizing registry with
  | nil => rfl
  | cons serverId connectedServerIds ih =>
    rw [List.foldlM_cons, List.flatMap_cons, List.foldlM_append, registerServer_eq]
    exact congrArg _ (funext ih)

/-- Every name belongs to one offer, and every offer has a name. -/
def NamedApart (offers : List Offer) : Prop := (offers.map Offer.name).Nodup ∧ ∀ offer ∈ offers, offer.Named

section Apart
variable {options : McpToolsOptions} {connectedServerIds : List ServerId} {answers : ServerId → ListAnswer} {registry : ToolRegistry}
  {serverId : ServerId} {offer : Offer} {definition : RuntimeToolDefinition}

theorem createMcpTools_ok : createMcpTools options connectedServerIds answers = .ok registry ↔
    List.Forall₂ (fun offer definition => offer.definition? options = .ok definition) (allOffered answers connectedServerIds) registry.rows := by
  rw [createMcpTools_eq, registerOffers_ok]
  constructor
  · rintro ⟨definitions, built, _, rows⟩
    rw [rows]
    exact built
  · intro built
    exact ⟨registry.rows, built, registry.unique, rfl⟩

theorem mem_offered (member : offer ∈ offered answers serverId) : offer.1 = serverId := by
  unfold offered at member
  split at member
  · cases member
  · obtain ⟨tool, -, rfl⟩ := List.mem_map.mp member
    rfl

theorem mem_registry (created : createMcpTools options connectedServerIds answers = .ok registry) :
    definition ∈ registry ↔ ∃ offer ∈ allOffered answers connectedServerIds, offer.definition? options = .ok definition := by
  have built := createMcpTools_ok.mp created
  constructor
  · exact fun stored => forall₂_mem_right built stored
  · rintro ⟨offer, member, made⟩
    obtain ⟨other, stored, same⟩ := forall₂_mem_left built member
    exact Except.ok.inj (same.symm.trans made) ▸ stored

/-- The tools of a server are what it offers. -/
theorem mem_own (created : createMcpTools options connectedServerIds answers = .ok registry) (connected : serverId ∈ connectedServerIds) :
    (definition ∈ registry ∧ definition.execute.serverId = serverId) ↔
      ∃ offer ∈ offered answers serverId, offer.definition? options = .ok definition := by
  rw [mem_registry created]
  constructor
  · rintro ⟨⟨offer, member, built⟩, own⟩
    obtain ⟨other, -, inside⟩ := List.mem_flatMap.mp member
    have same : serverId = other := by rw [← own, (definition_ok built).2.1, mem_offered inside]
    exact ⟨offer, same ▸ inside, built⟩
  · rintro ⟨offer, inside, built⟩
    refine ⟨⟨offer, List.mem_flatMap.mpr ⟨serverId, connected, inside⟩, built⟩, ?_⟩
    rw [(definition_ok built).2.1, mem_offered inside]

end Apart

/-- There is a registry; what it has under a name is built of the one offer with this name, and calls its tool; and it has the same tools
of a server as any other registry for which this server has answered the same. -/
def ServersApart (options : McpToolsOptions) (connectedServerIds : List ServerId) (answers : ServerId → ListAnswer) : Prop :=
  ∃ registry, createMcpTools options connectedServerIds answers = .ok registry ∧
    (∀ definition ∈ registry, ∃ offer ∈ allOffered answers connectedServerIds, offer.definition? options = .ok definition ∧
      definition.execute.serverId = offer.1 ∧ definition.execute.toolName = offer.2.name ∧
      ∀ other ∈ allOffered answers connectedServerIds, other.name = definition.name → other = offer) ∧
    ∀ serverId ∈ connectedServerIds,
      (∀ definition, (definition ∈ registry ∧ definition.execute.serverId = serverId) ↔
        ∃ offer ∈ offered answers serverId, offer.definition? options = .ok definition) ∧
      ∀ others registry', others serverId = answers serverId → createMcpTools options connectedServerIds others = .ok registry' →
        ∀ definition, (definition ∈ registry' ∧ definition.execute.serverId = serverId) ↔
          definition ∈ registry ∧ definition.execute.serverId = serverId

/-- One server cannot break or shadow another exactly when no two tools get one name. -/
theorem servers_apart_iff (options : McpToolsOptions) (connectedServerIds : List ServerId) (answers : ServerId → ListAnswer) :
    ServersApart options connectedServerIds answers ↔ NamedApart (allOffered answers connectedServerIds) := by
  constructor
  · rintro ⟨registry, created, _⟩
    have built := createMcpTools_ok.mp created
    constructor
    · rw [forall₂_map_eq built fun offer definition made => (definition_ok made).1.symm]
      exact registry.unique
    · intro offer member
      obtain ⟨definition, -, made⟩ := forall₂_mem_left built member
      exact (named_iff options).mpr ⟨definition, made⟩
  · rintro ⟨distinct, named⟩
    obtain ⟨definitions, built⟩ := exists_forall₂.mpr fun offer member => (named_iff options).mp (named offer member)
    have unique : (definitions.map RuntimeToolDefinition.name).Nodup := by
      rwa [← forall₂_map_eq built fun offer definition made => (definition_ok made).1.symm]
    have created : createMcpTools options connectedServerIds answers = .ok ⟨definitions, unique⟩ := createMcpTools_ok.mpr built
    refine ⟨_, created, ?_, ?_⟩
    · intro definition stored
      obtain ⟨offer, member, made⟩ := (mem_registry created).mp stored
      obtain ⟨name, server, tool⟩ := definition_ok made
      refine ⟨offer, member, made, server, tool, ?_⟩
      intro other listed same
      exact List.inj_on_of_nodup_map distinct listed member (same.trans name)
    · intro serverId connected
      refine ⟨fun definition => mem_own created connected, ?_⟩
      intro others registry' same created' definition
      rw [mem_own created connected, mem_own created' connected, offered, offered, same]

/-! Ids that the catalog accepts have no dots, so that only the tools of one server can get one name. -/

/-- `/^[a-z][a-z0-9_-]{0,63}$/i` -/
def isMcpServerId (id : String) : Bool :=
  match id.toList with
  | [] => false
  | first :: rest => first.isAlpha && decide (rest.length ≤ 63) && rest.all fun c => c.isAlphanum || c == '_' || c == '-'

section Ids
variable {one other : ServerId} {serverId : ServerId} {answers : ServerId → ListAnswer} {connectedServerIds : List ServerId}

theorem dot_not_mem (valid : isMcpServerId serverId = true) : '.' ∉ serverId.toList := by
  intro dot
  unfold isMcpServerId at valid
  split at valid
  · cases valid
  next first rest characters =>
    rw [Bool.and_eq_true, Bool.and_eq_true, List.all_eq_true] at valid
    rw [characters] at dot
    obtain rfl | dot := List.mem_cons.mp dot
    · exact absurd valid.1.1 (by decide)
    · exact absurd (valid.2 '.' dot) (by decide)

theorem isMcpServerId_named (valid : isMcpServerId serverId = true) : isBlank serverId = false := by
  unfold isMcpServerId at valid
  split at valid
  · cases valid
  next first rest characters =>
    rw [Bool.and_eq_true, Bool.and_eq_true] at valid
    have letter : (decide (first.val ≥ 'A'.val ∧ first.val ≤ 'Z'.val) ||
        (decide (first.val ≥ 'a'.val) && decide (first.val ≤ 'z'.val))) = true := valid.1.1
    have visible : isWhiteSpace first.toNat = false ∧ first.toNat < 0x10000 := by
      simp only [Bool.or_eq_true, Bool.and_eq_true, decide_eq_true_eq, ge_iff_le, UInt32.le_iff_toNat_le] at letter
      have bounds : 65 ≤ first.toNat ∧ first.toNat ≤ 122 := by
        rcases letter with ⟨low, high⟩ | ⟨low, high⟩
        · exact ⟨low, Nat.le_trans high (by decide)⟩
        · exact ⟨Nat.le_trans (by decide) low, high⟩
      refine ⟨?_, by omega⟩
      simp only [isWhiteSpace, Bool.or_eq_false_iff, Bool.and_eq_false_iff, decide_eq_false_iff_not]
      refine ⟨⟨.inr (by omega), .inl (by omega)⟩, ?_⟩
      simp
      omega
    rw [isBlank, utf16, characters, List.flatMap_cons, List.all_append, pointUnits, if_pos visible.2, List.all_cons, visible.1]
    rfl

/-- What stands before the first delimiter. -/
theorem append_cons_inj {α : Type} {delimiter : α} [BEq α] [LawfulBEq α] {first second rest other : List α} (one : delimiter ∉ first)
    (two : delimiter ∉ second) (same : first ++ delimiter :: rest = second ++ delimiter :: other) : first = second ∧ rest = other := by
  have before (text tail : List α) (apart : delimiter ∉ text) : (text ++ delimiter :: tail).takeWhile (· != delimiter) = text := by
    have plain : ∀ c ∈ text, (c != delimiter) = true := fun c member => bne_iff_ne.mpr fun found => apart (found ▸ member)
    rw [List.takeWhile_append_of_pos plain, List.takeWhile_cons_of_neg (by simp), List.append_nil]
  obtain rfl : first = second := by rw [← before first rest one, same, before second other two]
  exact ⟨rfl, (List.cons.inj (List.append_cancel_left same)).2⟩

theorem mcpToolName_inj (first : isMcpServerId one = true) (second : isMcpServerId other = true) {tool tool' : String}
    (same : mcpToolName one tool = mcpToolName other tool') : one = other ∧ tool = tool' := by
  have texts : one.toList ++ '.' :: tool.toList = other.toList ++ '.' :: tool'.toList := by
    have all := congrArg String.toList same
    simpa [mcpToolName, String.toList_append] using all
  obtain ⟨ids, tools⟩ := append_cons_inj (dot_not_mem first) (dot_not_mem second) texts
  exact ⟨String.toList_inj.mp ids, String.toList_inj.mp tools⟩

theorem parseMcpTool_named {value : Json} {tool : McpToolDescriptor} (parsed : parseMcpTool value = .ok tool) : isBlank tool.name = false := by
  unfold parseMcpTool at parsed
  simp only at parsed
  split at parsed
  · cases parsed
  · split at parsed
    · cases parsed
    next name _ =>
      split at parsed
      · cases parsed
      next filled =>
        obtain ⟨description, -, parsed⟩ := except_bind_ok.mp parsed
        obtain ⟨inputSchema, -, parsed⟩ := except_bind_ok.mp parsed
        obtain ⟨annotations, -, parsed⟩ := except_bind_ok.mp parsed
        obtain rfl := Except.ok.inj parsed
        exact eq_false_of_ne_true filled

theorem offered_named {offer : Offer} (member : offer ∈ offered answers serverId) : isBlank offer.2.name = false := by
  unfold offered at member
  split at member
  · cases member
  next tools listed =>
    obtain ⟨tool, inside, rfl⟩ := List.mem_map.mp member
    obtain ⟨result, -, listed⟩ := except_bind_ok.mp listed
    split at listed
    · cases listed
    · split at listed
      · cases listed
      · obtain ⟨value, -, parsed⟩ := forall₂_mem_right (mapM_ok.mp listed) inside
        exact parseMcpTool_named parsed

/-- For the ids of a catalog the names are apart when no server names a tool twice. -/
theorem namedApart_iff (valid : ∀ serverId ∈ connectedServerIds, isMcpServerId serverId = true) (distinct : connectedServerIds.Nodup) :
    NamedApart (allOffered answers connectedServerIds) ↔
      ∀ serverId ∈ connectedServerIds, ((offered answers serverId).map fun offer => offer.2.name).Nodup := by
  have named : ∀ offer ∈ allOffered answers connectedServerIds, offer.Named := by
    intro offer member
    obtain ⟨serverId, connected, inside⟩ := List.mem_flatMap.mp member
    refine ⟨?_, offered_named inside⟩
    rw [mem_offered inside]
    exact isMcpServerId_named (valid serverId connected)
  have own (serverId : ServerId) (connected : serverId ∈ connectedServerIds) :
      ((offered answers serverId).map Offer.name).Nodup ↔ ((offered answers serverId).map fun offer => offer.2.name).Nodup := by
    have names : (offered answers serverId).map Offer.name =
        ((offered answers serverId).map fun offer => offer.2.name).map (mcpToolName serverId) := by
      rw [List.map_map]
      apply List.map_congr_left
      intro offer member
      rw [Offer.name, mem_offered member]
      rfl
    rw [names]
    apply List.nodup_map_iff
    intro tool tool' same
    exact (mcpToolName_inj (valid serverId connected) (valid serverId connected) same).2
  rw [NamedApart, and_iff_left named, allOffered, List.map_flatMap, List.nodup_flatMap]
  constructor
  · rintro ⟨each, _⟩ serverId connected
    exact (own serverId connected).mp (each serverId connected)
  · intro each
    refine ⟨fun serverId connected => (own serverId connected).mpr (each serverId connected), ?_⟩
    apply distinct.imp_of_mem
    intro one other first second apart name here there
    obtain ⟨offer, inside, rfl⟩ := List.mem_map.mp here
    obtain ⟨offer', inside', same⟩ := List.mem_map.mp there
    rw [Offer.name, Offer.name, mem_offered inside, mem_offered inside'] at same
    exact apart (mcpToolName_inj (valid other second) (valid one first) same).1.symm

end Ids

/-! A server that names a tool twice, beside one that does nothing wrong. -/

def sampleTool (name : String) : Json := .object [("name", .string name)]

def sampleAnswers (serverId : ServerId) : ListAnswer :=
  if serverId = "files" then .ok (.object [("tools", .array [sampleTool "read", sampleTool "read"])])
  else .ok (.object [("tools", .array [sampleTool "query"])])

theorem repeated_name_breaks_all : ¬ ServersApart {} ["search", "files"] sampleAnswers := by
  rintro ⟨registry, created, _⟩
  have failed : (createMcpTools {} ["search", "files"] sampleAnswers).isOk = false := by decide +kernel
  rw [created] at failed
  cases failed

end OttiliCoder.Mcp
