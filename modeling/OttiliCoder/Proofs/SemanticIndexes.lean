import OttiliCoder.Library.Reached
import OttiliCoder.Library.Results
import OttiliCoder.Proofs.Chunks

/-! The semantic index publishes only the latest request. A build that other requests have overtaken changes
nothing, and the build of the latest request is never lost. -/

namespace OttiliCoder.Semantic
open Host Relational RepoMap Transaction Results

/-! What is published. -/

def chunksOf (platform : Platform) (options : ChunkOptions) (files : List RepoMapFile) : List IndexedChunk :=
  files.flatMap fun file => toChunks platform file options

def frequencyOf (chunks : List IndexedChunk) : Amounts JsString Nat := chunks.foldl addFrequency .empty

/-- The files that are asked for, after an event. -/
def request (platform : Platform) (requested : FileMap) : Event → FileMap
  | .index files =>
    match normalizeFiles platform files with
    | .ok normalized => fileMap normalized
    | .error _ => requested
  | .update files removedPaths =>
    match normalizeFiles platform files with
    | .ok added =>
      let kept := removedPaths.foldl (fun map path => Keyed.filter map fun row => row.1 != normalizePath path) requested
      match normalizeFiles platform (values (added.foldl (fun map file => map.set file.path file) kept)) with
      | .ok normalized => fileMap normalized
      | .error _ => requested
    | .error _ => requested
  | _ => requested

section Frequency
variable {term : JsString} {chunk : IndexedChunk} {chunks : List IndexedChunk}

theorem amount_foldl_raise_one {listed : List JsString} (distinct : listed.Nodup) (frequency : Amounts JsString Nat) :
    (listed.foldl (fun frequency term => frequency.raise term 1) frequency).amount term =
      frequency.amount term + if term ∈ listed then 1 else 0 := by
  induction listed generalizing frequency with
  | nil => rfl
  | cons first rest ih =>
    obtain ⟨apart, distinct⟩ := List.nodup_cons.mp distinct
    rw [List.foldl_cons, ih distinct, Amounts.amount_raise]
    by_cases same : first = term
    · subst same
      simp [apart]
    · simp [same, Ne.symm same]

/-- A word counts once for each chunk it is in. -/
theorem amount_foldl_addFrequency (frequency : Amounts JsString Nat) :
    (chunks.foldl addFrequency frequency).amount term =
      frequency.amount term + chunks.countP fun chunk => decide (term ∈ chunk.terms.keys) := by
  induction chunks generalizing frequency with
  | nil => rfl
  | cons chunk rest ih =>
    rw [List.foldl_cons, ih, addFrequency, amount_foldl_raise_one (Table.nodup_keys _), List.countP_cons]
    by_cases there : term ∈ chunk.terms.keys
    · simp only [there, if_true, decide_true]
      omega
    · simp [there]

theorem amount_frequencyOf : (frequencyOf chunks).amount term = chunks.countP fun chunk => decide (term ∈ chunk.terms.keys) := by
  rw [frequencyOf, amount_foldl_addFrequency]
  exact Nat.zero_add _

end Frequency

/-! Builds. -/

section Builds
variable {platform : Platform} {index : SemanticIndex} {build next : Build}

/-- A build has cut the files that it has behind it, and no others. -/
structure Partial (platform : Platform) (options : ChunkOptions) (build : Build) (remaining : List RepoMapFile) : Prop where
  cut : ∃ done, build.normalized = done ++ remaining ∧ build.chunks = chunksOf platform options done
  counted : build.frequency = frequencyOf build.chunks

theorem Partial.step {options : ChunkOptions} {file : RepoMapFile} {rest : List RepoMapFile}
    (cut : Partial platform options build (file :: rest)) (place : Nat) :
    Partial platform options { build with
      remaining := rest
      index := place
      chunks := build.chunks ++ toChunks platform file options
      frequency := (toChunks platform file options).foldl addFrequency build.frequency } rest := by
  obtain ⟨⟨done, split, chunks⟩, counted⟩ := cut
  refine ⟨⟨done ++ [file], ?_, ?_⟩, ?_⟩
  · dsimp only
    rw [split, List.append_assoc]
    rfl
  · dsimp only
    unfold chunksOf at chunks ⊢
    rw [chunks, List.flatMap_append]
    simp
  · dsimp only
    rw [counted]
    unfold frequencyOf
    rw [List.foldl_append]

/-- The index after the build of all the files. -/
def publish (platform : Platform) (index : SemanticIndex) (normalized : List RepoMapFile) : SemanticIndex :=
  { index with
    files := fileMap normalized
    chunks := chunksOf platform index.options normalized
    documentFrequency := frequencyOf (chunksOf platform index.options normalized)
    status := .ready }

/-- What comes of a build of a generation and its files that goes on. -/
inductive Continued (platform : Platform) (index : SemanticIndex) (generation : Nat) (normalized : List RepoMapFile) (left : Nat) :
    SemanticIndex × Option Build → Prop
  | overtaken (apart : generation ≠ index.generation) : Continued platform index generation normalized left (index, none)
  | waits (current : generation = index.generation) (next : Build) (same : next.generation = generation)
      (files : next.normalized = normalized) (cut : Partial platform index.options next next.remaining)
      (fewer : next.remaining.length < left) : Continued platform index generation normalized left (index, some next)
  | published (current : generation = index.generation) :
      Continued platform index generation normalized left (publish platform index normalized, none)

theorem continueBuild_continued {remaining : List RepoMapFile} (cut : Partial platform index.options build remaining) :
    Continued platform index build.generation build.normalized remaining.length (continueBuild platform index build remaining) := by
  induction remaining generalizing build with
  | nil =>
    rw [continueBuild]
    split
    next apart => exact .overtaken apart
    next current =>
      obtain ⟨⟨done, split, chunks⟩, counted⟩ := cut
      rw [List.append_nil] at split
      have whole : build.chunks = chunksOf platform index.options build.normalized := split ▸ chunks
      rw [counted, whole]
      exact .published (not_not.mp current)
  | cons file rest ih =>
    rw [continueBuild]
    split
    next apart => exact .overtaken apart
    next current =>
      have onward := cut.step (build.index + 1)
      dsimp only
      split
      next => exact .waits (not_not.mp current) _ rfl rfl onward (Nat.lt_succ_self _)
      next =>
        have later := ih onward
        generalize continueBuild platform index _ rest = outcome at later
        cases later with
        | overtaken apart => exact absurd apart current
        | waits current next same files cut fewer => exact .waits current next same files cut (Nat.lt_succ_of_lt fewer)
        | published current => exact .published current

end Builds

/-! Systems. -/

/-- Every build that waits has done what it should, and only the youngest can be that of the present generation. -/
structure Valid (platform : Platform) (system : System) : Prop where
  older : ∀ build ∈ system.builds, build.generation ≤ system.index.generation
  distinct : (system.builds.map (·.generation)).Nodup
  cut : ∀ build ∈ system.builds, Partial platform system.index.options build build.remaining
  current : ∀ build ∈ system.builds, build.generation = system.index.generation →
    system.index.status = .indexing ∧ fileMap build.normalized = system.index.desiredFiles
  indexing : system.index.status = .indexing → ∃ build ∈ system.builds, build.generation = system.index.generation
  ready : system.index.status = .ready → ∃ normalized, fileMap normalized = system.index.desiredFiles ∧
    system.index.files = system.index.desiredFiles ∧ system.index.chunks = chunksOf platform system.index.options normalized ∧
    system.index.documentFrequency = frequencyOf system.index.chunks

section Systems
variable {platform : Platform} {system : System}

theorem valid_fresh (platform : Platform) (options : ChunkOptions) : Valid platform (.fresh options) := by
  have nothing : ∀ build, build ∉ (System.fresh options).builds := fun _ => List.not_mem_nil
  refine ⟨fun _ listed => absurd listed (nothing _), List.nodup_nil, fun _ listed => absurd listed (nothing _),
    fun _ listed => absurd listed (nothing _), ?_, ?_⟩
  · intro impossible
    cases impossible
  · intro impossible
    cases impossible

/-- What a call that starts a build hands over. -/
theorem startIndex_ok {index started : SemanticIndex} {files : List RepoMapFile} {build : Build}
    (begun : startIndex platform index files = .ok (started, build)) : ∃ normalized, normalizeFiles platform files = .ok normalized ∧
      started = { index with
        desiredFiles := fileMap normalized
        generation := index.generation + 1
        status := .indexing
        reason := none } ∧
      build = ⟨index.generation + 1, normalized, normalized, 0, [], .empty⟩ := by
  obtain ⟨normalized, valid, made⟩ := except_bind_ok.mp begun
  obtain ⟨rfl, rfl⟩ := Prod.mk.inj (except_pure_ok.mp made)
  exact ⟨normalized, valid, rfl, rfl⟩

theorem Valid.started (valid : Valid platform system) {normalized : List RepoMapFile} :
    Valid platform ⟨{ system.index with
      desiredFiles := fileMap normalized
      generation := system.index.generation + 1
      status := .indexing
      reason := none }, system.builds ++ [⟨system.index.generation + 1, normalized, normalized, 0, [], .empty⟩]⟩ := by
  have parts : ∀ {build : Build}, build ∈ system.builds ++ [⟨system.index.generation + 1, normalized, normalized, 0, [], .empty⟩] →
      build ∈ system.builds ∨ build = ⟨system.index.generation + 1, normalized, normalized, 0, [], .empty⟩ := by
    intro build listed
    rwa [List.mem_append, List.mem_singleton] at listed
  refine ⟨?_, ?_, ?_, ?_, ?_, ?_⟩
  · intro build listed
    rcases parts listed with old | rfl
    · exact Nat.le_succ_of_le (valid.older build old)
    · exact Nat.le_refl _
  · rw [List.map_append, List.map_singleton]
    apply List.Nodup.append valid.distinct (List.nodup_singleton _)
    intro generation old new
    obtain ⟨build, listed, rfl⟩ := List.mem_map.mp old
    have bound := valid.older build listed
    have same : build.generation = system.index.generation + 1 := List.mem_singleton.mp new
    omega
  · intro build listed
    rcases parts listed with old | rfl
    · exact valid.cut build old
    · exact ⟨⟨[], rfl, rfl⟩, rfl⟩
  · intro build listed same
    rcases parts listed with old | rfl
    · have bound := valid.older build old
      dsimp only at same
      omega
    · exact ⟨rfl, rfl⟩
  · intro _
    exact ⟨_, List.mem_append_right _ List.mem_cons_self, rfl⟩
  · intro impossible
    cases impossible

/-- A call that leaves no build of its generation behind. -/
theorem Valid.invalidated (valid : Valid platform system) {status : SemanticIndexStatus} {reason : Option JsString}
    (indexing : status ≠ .indexing) (ready : status ≠ .ready) :
    Valid platform { system with index := { system.index with generation := system.index.generation + 1, status, reason } } := by
  refine ⟨fun build listed => Nat.le_succ_of_le (valid.older build listed), valid.distinct, valid.cut, ?_, ?_, ?_⟩
  · intro build listed same
    have bound := valid.older build listed
    dsimp only at same
    omega
  · exact fun same => absurd same indexing
  · exact fun same => absurd same ready

section Ended
variable {place : Nat} {build other : Build}

/-- The builds that are left when one has ended are those of other generations. -/
theorem mem_eraseIdx (valid : Valid platform system) (found : system.builds[place]? = some build) :
    other ∈ system.builds.eraseIdx place ↔ other ∈ system.builds ∧ other.generation ≠ build.generation := by
  obtain ⟨inside, rfl⟩ := List.getElem?_eq_some_iff.mp found
  have positions : ∀ first second (one : first < system.builds.length) (two : second < system.builds.length),
      system.builds[first].generation = system.builds[second].generation → first = second := by
    intro first second one two same
    have within : first < (system.builds.map (·.generation)).length := by rwa [List.length_map]
    apply (List.getElem?_inj within valid.distinct).mp
    rw [List.getElem?_map, List.getElem?_map, List.getElem?_eq_getElem one, List.getElem?_eq_getElem two, Option.map_some,
      Option.map_some, same]
  rw [List.mem_eraseIdx_iff_getElem]
  constructor
  · rintro ⟨at_, bound, apart, rfl⟩
    exact ⟨List.getElem_mem bound, fun same => apart (positions at_ place bound inside same)⟩
  · rintro ⟨listed, apart⟩
    obtain ⟨at_, bound, rfl⟩ := List.getElem_of_mem listed
    refine ⟨at_, bound, ?_, rfl⟩
    rintro rfl
    exact apart rfl

theorem Valid.erased (valid : Valid platform system) (found : system.builds[place]? = some build)
    (overtaken : build.generation ≠ system.index.generation) : Valid platform ⟨system.index, system.builds.eraseIdx place⟩ := by
  have kept : ∀ {other : Build}, other ∈ system.builds.eraseIdx place → other ∈ system.builds :=
    fun listed => ((mem_eraseIdx valid found).mp listed).1
  refine ⟨fun other listed => valid.older other (kept listed), valid.distinct.sublist ((List.eraseIdx_sublist _ _).map _),
    fun other listed => valid.cut other (kept listed), fun other listed => valid.current other (kept listed), ?_, valid.ready⟩
  intro indexing
  obtain ⟨other, listed, current⟩ := valid.indexing indexing
  exact ⟨other, (mem_eraseIdx valid found).mpr ⟨listed, fun same => overtaken (same.symm.trans current)⟩, current⟩

/-- The build of the present generation ends, and none of that generation is left. -/
theorem Valid.settled (valid : Valid platform system) (found : system.builds[place]? = some build)
    (current : build.generation = system.index.generation) {index : SemanticIndex} (options : index.options = system.index.options)
    (generation : index.generation = system.index.generation) (indexing : index.status ≠ .indexing)
    (ready : index.status = .ready → ∃ normalized, fileMap normalized = index.desiredFiles ∧ index.files = index.desiredFiles ∧
      index.chunks = chunksOf platform index.options normalized ∧ index.documentFrequency = frequencyOf index.chunks) :
    Valid platform ⟨index, system.builds.eraseIdx place⟩ := by
  have kept : ∀ {other : Build}, other ∈ system.builds.eraseIdx place → other ∈ system.builds :=
    fun listed => ((mem_eraseIdx valid found).mp listed).1
  refine ⟨?_, valid.distinct.sublist ((List.eraseIdx_sublist _ _).map _), ?_, ?_, fun same => absurd same indexing, ready⟩
  · intro other listed
    dsimp only
    rw [generation]
    exact valid.older other (kept listed)
  · intro other listed
    dsimp only
    rw [options]
    exact valid.cut other (kept listed)
  · intro other listed same
    dsimp only at same
    rw [generation, ← current] at same
    exact absurd same ((mem_eraseIdx valid found).mp listed).2

/-- A build waits again, as far as it has come. -/
theorem Valid.waiting (valid : Valid platform system) (found : system.builds[place]? = some build) {next : Build}
    (same : next.generation = build.generation) (files : next.normalized = build.normalized)
    (cut : Partial platform system.index.options next next.remaining) :
    Valid platform ⟨system.index, system.builds.set place next⟩ := by
  obtain ⟨inside, rfl⟩ := List.getElem?_eq_some_iff.mp found
  have listed := List.getElem_mem inside
  have either : ∀ {other : Build}, other ∈ system.builds.set place next → other ∈ system.builds ∨ other = next :=
    fun member => List.mem_or_eq_of_mem_set member
  refine ⟨?_, ?_, ?_, ?_, ?_, valid.ready⟩
  · intro other member
    rcases either member with old | rfl
    · exact valid.older other old
    · exact same ▸ valid.older _ listed
  · rw [List.map_set, same]
    have unchanged : (system.builds.map (·.generation)).set place system.builds[place].generation =
        system.builds.map (·.generation) := by
      rw [← List.map_set, List.set_getElem_self]
    rw [unchanged]
    exact valid.distinct
  · intro other member
    rcases either member with old | rfl
    · exact valid.cut other old
    · exact cut
  · intro other member current
    rcases either member with old | rfl
    · exact valid.current other old current
    · rw [files]
      exact valid.current _ listed (same ▸ current)
  · intro indexing
    obtain ⟨other, member, current⟩ := valid.indexing indexing
    obtain ⟨at_, bound, rfl⟩ := List.getElem_of_mem member
    by_cases there : at_ = place
    · subst there
      exact ⟨next, List.mem_set inside _, same.trans current⟩
    · refine ⟨system.builds[at_], ?_, current⟩
      apply List.mem_of_getElem?
      rw [List.getElem?_set_ne (Ne.symm there), List.getElem?_eq_getElem bound]

end Ended

theorem Valid.accepted (valid : Valid platform system) {outcome : Indexing (SemanticIndex × Build)}
    (begun : ∀ started build, outcome = .ok (started, build) → ∃ files, startIndex platform system.index files = .ok (started, build)) :
    Valid platform (accept system outcome) := by
  cases outcome with
  | error failure => exact valid
  | ok made =>
    obtain ⟨started, build⟩ := made
    obtain ⟨files, start⟩ := begun started build rfl
    obtain ⟨normalized, -, rfl, rfl⟩ := startIndex_ok start
    exact valid.started

theorem startUpdate_ok {index started : SemanticIndex} {files : List RepoMapFile} {removedPaths : List JsString} {build : Build}
    (begun : startUpdate platform index files removedPaths = .ok (started, build)) : ∃ added, normalizeFiles platform files = .ok added ∧
      startIndex platform index (values (added.foldl (fun map file => map.set file.path file)
        (removedPaths.foldl (fun map path => Keyed.filter map fun row => row.1 != normalizePath path) index.desiredFiles))) =
          .ok (started, build) :=
  except_bind_ok.mp begun

theorem Valid.performed (valid : Valid platform system) (event : Event) : Valid platform (perform platform event system) := by
  cases event with
  | index files => exact valid.accepted fun started build begun => ⟨files, begun⟩
  | update files removedPaths =>
    apply valid.accepted
    intro started build begun
    obtain ⟨added, -, start⟩ := startUpdate_ok begun
    exact ⟨_, start⟩
  | markUnavailable reason =>
    apply valid.invalidated
    · intro impossible
      cases impossible
    · intro impossible
      cases impossible
  | cancel =>
    apply valid.invalidated
    · intro impossible
      cases impossible
    · intro impossible
      cases impossible
  | resume place =>
    unfold perform
    dsimp only
    cases found : system.builds[place]? with
    | none => exact valid
    | some build =>
      have listed := List.mem_of_getElem? found
      have continued := continueBuild_continued (valid.cut build listed)
      dsimp only
      generalize continueBuild platform system.index build build.remaining = outcome at continued
      cases continued with
      | overtaken apart => exact valid.erased found apart
      | waits current next same files cut fewer => exact valid.waiting found same files cut
      | published current =>
        obtain ⟨-, desired⟩ := valid.current build listed current
        apply @Valid.settled platform system place build valid found current (publish platform system.index build.normalized) rfl rfl
        · intro impossible
          cases impossible
        · intro _
          exact ⟨build.normalized, desired, desired, rfl, rfl⟩
  | fail place message =>
    unfold perform
    dsimp only
    cases found : system.builds[place]? with
    | none => exact valid
    | some build =>
      dsimp only
      unfold failBuild
      split
      next apart => exact valid.erased found apart
      next current =>
        apply @Valid.settled platform system place build valid found (not_not.mp current)
          { system.index with status := .failed, reason := some message } rfl rfl
        · intro impossible
          cases impossible
        · intro impossible
          cases impossible

/-- Only calls change what is asked for. -/
theorem performed_desired (valid : Valid platform system) (event : Event) :
    (perform platform event system).index.desiredFiles = request platform system.index.desiredFiles event ∧
      (perform platform event system).index.options = system.index.options := by
  have started : ∀ files, (accept system (startIndex platform system.index files)).index.desiredFiles =
      (match normalizeFiles platform files with | .ok normalized => fileMap normalized | .error _ => system.index.desiredFiles) ∧
      (accept system (startIndex platform system.index files)).index.options = system.index.options := by
    intro files
    unfold startIndex
    cases normalizeFiles platform files with
    | ok normalized => exact ⟨rfl, rfl⟩
    | error failure => exact ⟨rfl, rfl⟩
  cases event with
  | index files => exact started files
  | update files removedPaths =>
    unfold perform request startUpdate
    dsimp only
    cases normalizeFiles platform files with
    | ok added => exact started _
    | error failure => exact ⟨rfl, rfl⟩
  | markUnavailable reason => exact ⟨rfl, rfl⟩
  | cancel => exact ⟨rfl, rfl⟩
  | resume place =>
    unfold perform request
    dsimp only
    cases found : system.builds[place]? with
    | none => exact ⟨rfl, rfl⟩
    | some build =>
      have continued := continueBuild_continued (valid.cut build (List.mem_of_getElem? found))
      dsimp only
      generalize continueBuild platform system.index build build.remaining = outcome at continued
      cases continued with
      | overtaken apart => exact ⟨rfl, rfl⟩
      | waits current next same files cut fewer => exact ⟨rfl, rfl⟩
      | published current => exact ⟨rfl, rfl⟩
  | fail place message =>
    unfold perform request
    dsimp only
    cases found : system.builds[place]? with
    | none => exact ⟨rfl, rfl⟩
    | some build =>
      dsimp only
      unfold failBuild
      split
      next => exact ⟨rfl, rfl⟩
      next => exact ⟨rfl, rfl⟩

/-- A build that was overtaken changes nothing, whether it goes on or throws. -/
theorem overtaken_inert {place : Nat} {build : Build} (found : system.builds[place]? = some build)
    (overtaken : build.generation ≠ system.index.generation) (message : JsString) :
    (perform platform (.resume place) system).index = system.index ∧ (perform platform (.fail place message) system).index = system.index := by
  constructor
  · unfold perform
    dsimp only
    rw [found]
    dsimp only
    have stops : continueBuild platform system.index build build.remaining = (system.index, none) := by
      cases build.remaining with
      | nil => rw [continueBuild, if_pos overtaken]
      | cons file rest => rw [continueBuild, if_pos overtaken]
    rw [stops]
    rfl
  · unfold perform failBuild
    dsimp only
    rw [found]
    dsimp only
    rw [if_pos overtaken]

end Systems

/-! Search. -/

section Search
variable {platform : Platform} {index : SemanticIndex} {query : JsString} {maxResults : Option Number} {response : SemanticSearchResponse}

/-- A result tells of a chunk of the index. -/
structure Found (platform : Platform) (query : JsString) (chunk : IndexedChunk) (result : SemanticSearchResult) : Prop where
  path : result.path = chunk.path
  lines : result.startLine = chunk.startLine ∧ result.endLine = chunk.endLine
  text : result.text = chunk.text
  terms : ∀ term, term ∈ result.matchedTerms ↔ term ∈ lexicalTerms platform query ∧ chunk.terms.amount term ≠ 0

theorem resultOf_found (chunk : IndexedChunk) :
    Found platform query chunk (resultOf platform index query (lexicalTerms platform query).eraseDups chunk) := by
  refine ⟨rfl, ⟨rfl, rfl⟩, rfl, ?_⟩
  intro term
  unfold resultOf matchedTerms
  rw [List.mem_filter, List.mem_eraseDups, decide_eq_true_iff]

theorem search_ok (returned : search platform index query maxResults = .ok response) :
    (index.status ≠ .ready → response.results = []) ∧ (∀ limit, maxResults.getD 8 = .finite limit → response.results.length ≤ limit.num.toNat) ∧
      ∀ result ∈ response.results, ∃ chunk ∈ index.chunks, Found platform query chunk result := by
  have nothing : ∀ limit : Nat, ([] : List SemanticSearchResult).length ≤ limit := fun limit => Nat.zero_le limit
  unfold search at returned
  split at returned
  next limit limited =>
    split at returned
    next =>
      split at returned
      next =>
        obtain rfl := Except.ok.inj returned
        exact ⟨fun _ => rfl, fun _ _ => nothing _, fun _ listed => absurd listed List.not_mem_nil⟩
      next ready =>
        split at returned
        next =>
          obtain rfl := Except.ok.inj returned
          exact ⟨fun _ => rfl, fun _ _ => nothing _, fun _ listed => absurd listed List.not_mem_nil⟩
        next =>
          obtain rfl := Except.ok.inj returned
          refine ⟨fun other => absurd other ready, ?_, ?_⟩
          · intro other same
            obtain rfl := Number.finite.inj (limited.symm.trans same)
            exact List.length_take_le _ _
          · intro result listed
            have ranked := List.mem_of_mem_take listed
            obtain ⟨scored, -⟩ := List.mem_filter.mp ((List.mem_insertionSort _).mp ranked)
            obtain ⟨chunk, inside, rfl⟩ := List.mem_map.mp scored
            exact ⟨chunk, inside, resultOf_found chunk⟩
    next => cases returned
  next => cases returned

end Search

/-! Runs. -/

/-- The system after events, from the start. -/
abbrev after (platform : Platform) (options : ChunkOptions) (events : List Event) : System :=
  performAll (perform platform) events (.fresh options)

/-- The files that the events ask for. -/
abbrev requestedBy (platform : Platform) (events : List Event) : FileMap := events.foldl (request platform) .empty

/-- The index shows the files that are asked for, and nothing else. -/
structure Shows (platform : Platform) (options : ChunkOptions) (index : SemanticIndex) (requested : FileMap)
    (normalized : List RepoMapFile) : Prop where
  asked : fileMap normalized = requested
  files : index.files = requested
  chunks : index.chunks = chunksOf platform options normalized
  frequency : ∀ term, index.documentFrequency.amount term = index.chunks.countP fun chunk => decide (term ∈ chunk.terms.keys)

/-- What holds after any events: an index that is ready shows the latest request, a build that was overtaken changes nothing any
more, and a search finds only stretches of the files asked for, with their text, and only in an index that is ready. -/
structure ShowsLatest (platform : Platform) (options : ChunkOptions) (events : List Event) : Prop where
  ready : (after platform options events).index.status = .ready →
    ∃ normalized, Shows platform options (after platform options events).index (requestedBy platform events) normalized
  overtaken : ∀ place build, (after platform options events).builds[place]? = some build →
    build.generation ≠ (after platform options events).index.generation → ∀ message,
      (perform platform (.resume place) (after platform options events)).index = (after platform options events).index ∧
        (perform platform (.fail place message) (after platform options events)).index = (after platform options events).index
  searched : ∀ query maxResults response, search platform (after platform options events).index query maxResults = .ok response →
    ∀ result ∈ response.results, (after platform options events).index.status = .ready ∧
      ∃ normalized, Shows platform options (after platform options events).index (requestedBy platform events) normalized ∧
        ∃ file ∈ normalized, ∃ chunk, CutFrom platform options file chunk ∧ Found platform query chunk result

theorem run_valid (platform : Platform) (options : ChunkOptions) (events : List Event) :
    Valid platform (after platform options events) ∧ (after platform options events).index.options = options ∧
      (after platform options events).index.desiredFiles = requestedBy platform events := by
  induction events using List.reverseRecOn with
  | nil => exact ⟨valid_fresh platform options, rfl, rfl⟩
  | append_singleton events event ih =>
    obtain ⟨valid, same, desired⟩ := ih
    obtain ⟨asked, kept⟩ := performed_desired valid event
    unfold after requestedBy at *
    rw [performAll_concat, List.foldl_append]
    exact ⟨valid.performed event, kept.trans same, asked.trans (congrArg (request platform · event) desired)⟩

theorem Valid.shows {platform : Platform} {system : System} (valid : Valid platform system) (ready : system.index.status = .ready) :
    ∃ normalized, Shows platform system.index.options system.index system.index.desiredFiles normalized := by
  obtain ⟨normalized, asked, files, chunks, frequency⟩ := valid.ready ready
  refine ⟨normalized, asked, files, chunks, ?_⟩
  intro term
  rw [frequency]
  exact amount_frequencyOf

/-- The build at a place goes on so many times, and nothing else happens. -/
def resumed (platform : Platform) (place count : Nat) (system : System) : System :=
  performAll (perform platform) (List.replicate count (.resume place)) system

theorem resumed_publishes {platform : Platform} {system : System} (valid : Valid platform system) {place : Nat} {build : Build}
    (found : system.builds[place]? = some build) (current : build.generation = system.index.generation) :
    ∃ count ≤ build.remaining.length + 1, (resumed platform place count system).index = publish platform system.index build.normalized := by
  induction left : build.remaining.length using Nat.strongRecOn generalizing system build with
  | ind left ih =>
    have listed := List.mem_of_getElem? found
    have continued := continueBuild_continued (valid.cut build listed)
    have onward := valid.performed (.resume place)
    have once : perform platform (.resume place) system =
        putBack system place (continueBuild platform system.index build build.remaining) := by
      unfold perform
      dsimp only
      rw [found]
    generalize continueBuild platform system.index build build.remaining = outcome at continued once
    cases continued with
    | overtaken apart => exact absurd current apart
    | waits _ next same files cut fewer =>
      rw [once] at onward
      obtain ⟨inside, -⟩ := List.getElem?_eq_some_iff.mp found
      have there : (system.builds.set place next)[place]? = some next := List.getElem?_set_self inside
      obtain ⟨count, bound, ended⟩ := ih next.remaining.length (left ▸ fewer) onward there (same.trans current) rfl
      refine ⟨count + 1, ?_, ?_⟩
      · omega
      · change (resumed platform place count (perform platform (.resume place) system)).index = _
        rw [once]
        exact ended.trans (by rw [files]; rfl)
    | published _ =>
      refine ⟨1, Nat.le_add_left _ _, ?_⟩
      change (perform platform (.resume place) system).index = _
      rw [once]
      rfl

/-- The build of the latest request is never lost: while the index is being built, one of the builds that wait shows the files that
are asked for as soon as it has gone on a few times, at most once for each of them and once more. -/
theorem latest_request_is_published (platform : Platform) (options : ChunkOptions) (events : List Event)
    (indexing : (after platform options events).index.status = .indexing) :
    ∃ place count normalized, count ≤ normalized.length + 1 ∧
      (resumed platform place count (after platform options events)).index.status = .ready ∧
      Shows platform options (resumed platform place count (after platform options events)).index (requestedBy platform events) normalized := by
  obtain ⟨valid, same, desired⟩ := run_valid platform options events
  obtain ⟨build, listed, current⟩ := valid.indexing indexing
  obtain ⟨place, inside, found⟩ := List.getElem_of_mem listed
  have there : (after platform options events).builds[place]? = some build := by
    rw [List.getElem?_eq_getElem inside, found]
  obtain ⟨count, bound, ended⟩ := resumed_publishes valid there current
  obtain ⟨-, asked⟩ := valid.current build listed current
  obtain ⟨⟨done, split, -⟩, -⟩ := valid.cut build listed
  refine ⟨place, count, build.normalized, ?_, ?_, ?_⟩
  · rw [split, List.length_append]
    omega
  · rw [ended]
    rfl
  · rw [ended]
    refine ⟨asked.trans desired, asked.trans desired, congrArg (chunksOf platform · build.normalized) same, ?_⟩
    intro term
    exact amount_frequencyOf

/-! An index that is being built. -/

def samplePlatform : Platform where
  normalize text := text
  toLowerCase := Host.toLowerCase
  localeCompare := compare
  isLetterOrNumber point := isWordPoint point
  log value := value

def sampleEvents : List Event := [.index [⟨units "a.ts", units "let a\nlet b"⟩], .cancel, .update [⟨units "b.ts", units "let c"⟩] []]

theorem sample_request_is_published :
    ∃ place count normalized, count ≤ normalized.length + 1 ∧
      (resumed samplePlatform place count (after samplePlatform ⟨2, 1, Nat.lt_succ_self 1⟩ sampleEvents)).index.status = .ready ∧
      Shows samplePlatform ⟨2, 1, Nat.lt_succ_self 1⟩
        (resumed samplePlatform place count (after samplePlatform ⟨2, 1, Nat.lt_succ_self 1⟩ sampleEvents)).index
        (requestedBy samplePlatform sampleEvents) normalized :=
  latest_request_is_published samplePlatform ⟨2, 1, Nat.lt_succ_self 1⟩ sampleEvents (by decide +kernel)

end OttiliCoder.Semantic
