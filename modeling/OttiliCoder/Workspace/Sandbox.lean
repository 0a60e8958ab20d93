import Mathlib.Data.List.Lex
import Mathlib.Data.List.Sort
import OttiliCoder.Library.PosixPath

/-! Sandbox profiles: what a process may write, read, reach and run, and what a child may be given of it. -/

namespace OttiliCoder.Sandbox
open Host Host.Posix

inductive SandboxMode where
  | safe | standard | autonomous | unrestricted | custom
deriving DecidableEq

/-- `NetworkAccess`, `ProcessAccess` and `EnvironmentAccess` have the same three levels. -/
inductive Access where
  | deny | allowlist | allow
deriving DecidableEq

structure SandboxFilesystemPolicy where
  allowAnyPath : Bool
  writableRoots : List JsString
  readonlyRoots : List JsString
deriving DecidableEq

structure SandboxNetworkPolicy where
  access : Access
  destinations : List JsString
deriving DecidableEq

structure SandboxEnvironmentPolicy where
  access : Access
  /-- `variables`. -/
  variableNames : List JsString
deriving DecidableEq

structure SandboxProcessPolicy where
  access : Access
  executables : List JsString
deriving DecidableEq

structure SandboxProfile where
  mode : SandboxMode
  workspaceRoot : JsString
  filesystem : SandboxFilesystemPolicy
  network : SandboxNetworkPolicy
  environment : SandboxEnvironmentPolicy
  process : SandboxProcessPolicy
deriving DecidableEq

structure SandboxInheritanceError where
  violations : List String
deriving DecidableEq

def SandboxInheritanceError.message (error : SandboxInheritanceError) : String :=
  "Child sandbox profile would broaden its parent: " ++ "; ".intercalate error.violations

/-- `[...new Set(values)].sort()`. -/
def sortedSet (values : List JsString) : List JsString := values.eraseDups.insertionSort (· ≤ ·)

def normalizeStringList (values : List JsString) : List JsString :=
  sortedSet ((values.map trim).filter fun value => 0 < value.length)

def accessRank : Access → Nat
  | .deny => 0
  | .allowlist => 1
  | .allow => 2

def isListNoBroader (candidateAccess : Access) (candidateValues : List JsString) (parentAccess : Access)
    (parentValues : List JsString) : Bool :=
  if accessRank candidateAccess > accessRank parentAccess then false
  else if candidateAccess ≠ .allowlist ∨ parentAccess = .allow then true
  else if parentAccess ≠ .allowlist then false
  else candidateValues.all fun value => parentValues.contains value

section
variable (cwd : JsString)

def normalizePathList (paths : List JsString) : List JsString := sortedSet (paths.map (resolve cwd))

def isWithin (candidate parent : JsString) : Bool := staysInside (relative cwd parent candidate)

/-- The profile with its paths resolved and its lists in order. -/
def normalized (profile : SandboxProfile) : SandboxProfile where
  mode := profile.mode
  workspaceRoot := resolve cwd profile.workspaceRoot
  filesystem := {
    allowAnyPath := profile.filesystem.allowAnyPath
    writableRoots := normalizePathList cwd profile.filesystem.writableRoots
    readonlyRoots := normalizePathList cwd profile.filesystem.readonlyRoots }
  network := ⟨profile.network.access, normalizeStringList profile.network.destinations⟩
  environment := ⟨profile.environment.access, normalizeStringList profile.environment.variableNames⟩
  process := ⟨profile.process.access, normalizeStringList profile.process.executables⟩

def normalizeProfile (profile : SandboxProfile) : Except SandboxInheritanceError SandboxProfile :=
  if (normalized cwd profile).network.access = .allowlist ∧ (normalized cwd profile).network.destinations.length = 0 then
    .error ⟨["network allowlist cannot be empty"]⟩
  else if (normalized cwd profile).process.access = .allowlist ∧ (normalized cwd profile).process.executables.length = 0 then
    .error ⟨["process executable allowlist cannot be empty"]⟩
  else if (normalized cwd profile).environment.access = .allowlist ∧ (normalized cwd profile).environment.variableNames.length = 0 then
    .error ⟨["environment variable allowlist cannot be empty"]⟩
  else .ok (normalized cwd profile)

/-- What a child asks for and its parent does not give, by field. -/
def violations (parent child : SandboxProfile) : List String :=
  let parentReadableRoots := parent.filesystem.writableRoots ++ parent.filesystem.readonlyRoots
  (if child.filesystem.allowAnyPath ∧ !parent.filesystem.allowAnyPath then ["filesystem.allowAnyPath"] else []) ++
    (if parent.filesystem.allowAnyPath then []
    else
      (if child.filesystem.writableRoots.all fun root =>
          parent.filesystem.writableRoots.any fun parentRoot => isWithin cwd root parentRoot
        then [] else ["filesystem.writableRoots"]) ++
      (if child.filesystem.readonlyRoots.all fun root => parentReadableRoots.any fun parentRoot => isWithin cwd root parentRoot
        then [] else ["filesystem.readonlyRoots"])) ++
    (if isListNoBroader child.network.access child.network.destinations parent.network.access parent.network.destinations
      then [] else ["network"]) ++
    (if isListNoBroader child.environment.access child.environment.variableNames parent.environment.access parent.environment.variableNames
      then [] else ["environment"]) ++
    (if isListNoBroader child.process.access child.process.executables parent.process.access parent.process.executables
      then [] else ["process"])

/-- Validates and returns a child profile. -/
def inheritSandboxProfile (parent requestedChild : SandboxProfile) : Except SandboxInheritanceError SandboxProfile := do
  let normalizedParent ← normalizeProfile cwd parent
  let child ← normalizeProfile cwd requestedChild
  let violations := violations cwd normalizedParent child
  if violations.length > 0 then .error ⟨violations⟩ else .ok child

/-- A root of the old workspace at its place in the new one; any other root stays where it is. -/
def rebase (workspaceRoot replacementRoot path : JsString) : JsString :=
  if !isWithin cwd path workspaceRoot then path
  else
    let relativePath := relative cwd workspaceRoot path
    if relativePath.length = 0 then replacementRoot else resolve replacementRoot relativePath

/-- Rebinds a durable policy when the same agent moves to a different worktree. -/
def rebindSandboxProfile (profile : SandboxProfile) (nextWorkspaceRoot : JsString) : Except SandboxInheritanceError SandboxProfile := do
  let normalized ← normalizeProfile cwd profile
  let replacementRoot := resolve cwd nextWorkspaceRoot
  normalizeProfile cwd { normalized with
    workspaceRoot := replacementRoot
    filesystem := { normalized.filesystem with
      writableRoots := normalized.filesystem.writableRoots.map (rebase cwd normalized.workspaceRoot replacementRoot)
      readonlyRoots := normalized.filesystem.readonlyRoots.map (rebase cwd normalized.workspaceRoot replacementRoot) } }

end

end OttiliCoder.Sandbox
