import OttiliCoder.Library.Results
import OttiliCoder.Proofs.PageRank

/-! Maps of a repository: every edge between its files leads to one of them, so the ranks of the entries share
out one unit. -/

namespace OttiliCoder.RepoMap
open Host Relational Results

/-! The edges. -/

section Edges
variable {platform : Platform} {normalized : List RepoMapFile}

theorem mem_addToSet {values : List JsString} {value other : JsString} (listed : other ∈ addToSet values value) :
    other ∈ values ∨ other = value := by
  unfold addToSet at listed
  split at listed
  · exact .inl listed
  · rwa [List.mem_append, List.mem_singleton] at listed

/-- Whoever defines a name is one of the files. -/
def OwnedBy (paths : List JsString) (owners : Table JsString (List JsString)) : Prop :=
  ∀ name listed, owners.get name = some listed → ∀ owner ∈ listed, owner ∈ paths

theorem OwnedBy.set {paths listed : List JsString} {owners : Table JsString (List JsString)} (owned : OwnedBy paths owners)
    (known : ∀ owner ∈ listed, owner ∈ paths) (name : JsString) : OwnedBy paths (owners.set name listed) := by
  intro other found here
  rw [Table.get_set] at here
  split at here
  · obtain rfl := Option.some.inj here
    exact known
  · exact owned other found here

theorem definitionOwners_owned (platform : Platform) (normalized : List RepoMapFile) :
    OwnedBy (normalized.map (·.path)) (definitionOwners platform normalized) := by
  unfold definitionOwners
  refine List.foldlRecOn normalized _ ?_ ?_
  · intro name listed found
    cases found
  · intro owners owned file member
    refine List.foldlRecOn _ _ owned ?_
    intro owners owned symbol _
    split
    · exact owned
    · refine owned.set (fun owner listed => ?_) symbol.name
      rcases mem_addToSet listed with old | rfl
      · cases found : owners.get symbol.name with
        | none =>
          rw [found] at old
          cases old
        | some others =>
          rw [found] at old
          exact owned symbol.name others found owner old
      · exact List.mem_map_of_mem member

theorem resolveImport_known {fromPath specifier target : JsString} {files : List JsString}
    (resolved : resolveImport platform fromPath specifier files = some target) : target ∈ files := by
  unfold resolveImport at resolved
  split at resolved
  · cases resolved
  · exact List.contains_iff_mem.mp (List.find?_some resolved)

theorem fileEdges_known {owners : Table JsString (List JsString)} {paths : List JsString} (owned : OwnedBy paths owners)
    (file : RepoMapFile) : ∀ edge ∈ fileEdges platform owners paths file, edge.target ∈ paths := by
  intro edge listed
  unfold fileEdges at listed
  rcases List.mem_append.mp listed with used | imported
  · obtain ⟨definition, stored, inside⟩ := List.mem_flatMap.mp used
    dsimp only at inside
    split at inside
    · cases inside
    · obtain ⟨owner, member, rfl⟩ := List.mem_map.mp inside
      exact owned definition.1 definition.2 (Table.get_eq_some.mpr stored) owner member
  · obtain ⟨specifier, _, made⟩ := List.mem_filterMap.mp imported
    obtain ⟨target, resolved, rfl⟩ := Option.map_eq_some_iff.mp made
    exact resolveImport_known resolved

theorem repoEdges_known (platform : Platform) (normalized : List RepoMapFile) :
    ∀ edge ∈ repoEdges platform normalized, edge.target ∈ normalized.map (·.path) := by
  intro edge listed
  obtain ⟨file, _, inside⟩ := List.mem_flatMap.mp listed
  exact fileEdges_known (definitionOwners_owned platform normalized) file edge inside

end Edges

/-! The map. -/

/-- The paths of the files that are mapped. -/
def mappedPaths (platform : Platform) (files : List RepoMapFile) : List JsString := (normalizedFiles platform files).map (·.path)

/-- The graph of the files that are mapped. -/
def repoGraph (platform : Platform) (files : List RepoMapFile) : EdgeGraph :=
  edgeGraph (mappedPaths platform files) (repoEdges platform (normalizedFiles platform files))

/-- The entries that a map has, given the ranks. -/
def rankedEntries (platform : Platform) (files : List RepoMapFile) (options : RepoMapOptions) (ranks : Ranks) : List RepoMapEntry :=
  ((mappedPaths platform files).map (entryOf platform options (symbolsByPath platform (normalizedFiles platform files))
    (repoGraph platform files) ranks)).insertionSort (entryAtMost platform)

section Build
variable {platform : Platform} {files : List RepoMapFile} {options : RepoMapOptions} {result : RepoMapResult}

/-- What a map that is returned is made of. -/
structure Built (platform : Platform) (files : List RepoMapFile) (options : RepoMapOptions) (result : RepoMapResult)
    (budget maxSymbols : Nat) (ranks : Ranks) : Prop where
  withBudget : validateBudget options.maxTokens 2048 = .ok budget
  withSymbols : validateBudget options.maxSymbolsPerFile 24 = .ok maxSymbols
  ranked : pageRank (mappedPaths platform files) (repoGraph platform files) = some ranks
  entries : result.entries = rankedEntries platform files options ranks
  rendered : renderWithinBudget result.entries budget maxSymbols = (result.text, result.truncated)
  estimatedTokens : result.estimatedTokens = estimateTokens result.text

theorem buildRepoMap_ok (built : buildRepoMap platform files options = .ok result) :
    ∃ budget maxSymbols ranks, Built platform files options result budget maxSymbols ranks := by
  unfold buildRepoMap at built
  obtain ⟨budget, withBudget, built⟩ := except_bind_ok.mp built
  obtain ⟨maxSymbols, withSymbols, built⟩ := except_bind_ok.mp built
  refine ⟨budget, maxSymbols, ?_⟩
  dsimp only at built
  split at built
  · cases built
  · split at built
    · cases built
    next ranks ranked =>
      obtain rfl := Except.ok.inj built
      exact ⟨ranks, withBudget, withSymbols, ranked, rfl, rfl, rfl⟩

theorem validateBudget_noQuotient {value : Option Number} {fallback : Nat} : validateBudget value fallback ≠ .error .noQuotient := by
  unfold validateBudget
  split
  · split <;> simp
  · simp

/-- Only a rank without a value leaves the map without one. -/
theorem pageRank_of_noQuotient (failed : buildRepoMap platform files options = .error .noQuotient) :
    pageRank (mappedPaths platform files) (repoGraph platform files) = none := by
  unfold buildRepoMap at failed
  rcases except_bind_error.mp failed with refused | ⟨budget, _, failed⟩
  · exact absurd refused validateBudget_noQuotient
  rcases except_bind_error.mp failed with refused | ⟨maxSymbols, _, failed⟩
  · exact absurd refused validateBudget_noQuotient
  dsimp only at failed
  split at failed
  · cases failed
  · split at failed
    next unranked => exact unranked
    · cases failed

theorem repoGraph_sound (platform : Platform) (files : List RepoMapFile) : SoundEdges (mappedPaths platform files) (repoGraph platform files) :=
  soundEdges_edgeGraph (repoEdges_known platform (normalizedFiles platform files))

/-- The entries of a map are its files, and their ranks share out one unit; the map is not left without ranks. -/
structure RanksShared (platform : Platform) (files : List RepoMapFile) (options : RepoMapOptions) : Prop where
  noQuotient : buildRepoMap platform files options ≠ .error .noQuotient
  shared : ∀ result, buildRepoMap platform files options = .ok result →
    (result.entries.map (·.path)).Perm (mappedPaths platform files) ∧ (∀ entry ∈ result.entries, 0 < entry.structuralRank) ∧
      (result.entries.map (·.structuralRank)).sum = 1

theorem ranksShared (filled : mappedPaths platform files ≠ []) (distinct : (mappedPaths platform files).Nodup) :
    RanksShared platform files options := by
  obtain ⟨ranks, ranked, distribution⟩ := pageRank_distribution (repoGraph_sound platform files) filled distinct
  refine ⟨fun failed => ?_, fun result built => ?_⟩
  · rw [pageRank_of_noQuotient failed] at ranked
    cases ranked
  · obtain ⟨budget, maxSymbols, own, built⟩ := buildRepoMap_ok built
    obtain rfl : own = ranks := Option.some.inj (built.ranked.symm.trans ranked)
    have sorted := List.perm_insertionSort (entryAtMost platform) ((mappedPaths platform files).map
      (entryOf platform options (symbolsByPath platform (normalizedFiles platform files)) (repoGraph platform files) own))
    change (rankedEntries platform files options own).Perm _ at sorted
    rw [← built.entries] at sorted
    refine ⟨?_, ?_, ?_⟩
    · refine (sorted.map _).trans ?_
      rw [List.map_map]
      exact (List.map_id (mappedPaths platform files)).symm ▸ List.Perm.refl _
    · intro entry listed
      obtain ⟨path, known, rfl⟩ := List.mem_map.mp (sorted.mem_iff.mp listed)
      exact distribution.positive path known
    · rw [(sorted.map _).sum_eq, List.map_map, ← distribution.total, Amounts.total_eq, distribution.listed]
      rfl

end Build

/-- The iterations of a graph between given files: no quotient is without a value, the ranks share out one unit, and a file
without edges passes the same on to every file. -/
structure KeepsMass (paths : List JsString) (graph : EdgeGraph) : Prop where
  iterations : ∀ count, ∃ ranks, ranksAfter paths graph count = some ranks ∧ Distribution paths ranks ∧
    ∀ source, outgoingOf graph source = [] → PassesEvenly paths graph ranks source
  ranked : ∃ ranks, pageRank paths graph = some ranks ∧ Distribution paths ranks

/-- For files with different paths: their ranks share out one unit whatever edges are added between them, and so do those of
the map of a repository. -/
theorem pageRank_keeps_mass (paths : List JsString) (filled : paths ≠ []) (distinct : paths.Nodup) :
    (∀ edges : List Edge, (∀ edge ∈ edges, edge.target ∈ paths) → KeepsMass paths (edgeGraph paths edges)) ∧
      ∀ platform files options, mappedPaths platform files = paths → RanksShared platform files options := by
  constructor
  · intro edges known
    have sound := soundEdges_edgeGraph known
    refine ⟨fun count => ?_, pageRank_distribution sound filled distinct⟩
    obtain ⟨ranks, reached, distribution⟩ := ranksAfter_distribution sound filled distinct count
    exact ⟨ranks, reached, distribution, fun source dangling => passesEvenly sound filled distinct dangling⟩
  · rintro platform files options rfl
    exact ranksShared filled distinct

/-! Two files, one of which uses what the other defines and imports it; the other has no edges. -/

def samplePlatform : Platform where
  basename path suffix := path.take (path.length - suffix.length)
  dirname _ := units "."
  extname path := unit '.' :: path.rtakeWhile fun u => u != unit '.'
  join _ specifier := specifier
  toLowerCase := toLowerCase
  localeCompare := compare

def sampleFiles : List RepoMapFile :=
  [⟨units "b.ts", units "import \"./a\"\nunit()"⟩, ⟨units "./a.ts", units "export function unit"⟩]

theorem sample_keeps_mass :
    KeepsMass [units "a.ts", units "b.ts"] (edgeGraph [units "a.ts", units "b.ts"] [⟨units "b.ts", units "a.ts", 1⟩]) ∧
      RanksShared samplePlatform sampleFiles {} :=
  have kept := pageRank_keeps_mass [units "a.ts", units "b.ts"] (by decide) (by decide)
  ⟨kept.1 [⟨units "b.ts", units "a.ts", 1⟩] (by decide), kept.2 samplePlatform sampleFiles {} (by decide)⟩

end OttiliCoder.RepoMap
