import Mathlib.Data.List.Basic
import OttiliCoder.Library.Transaction

/-! The Git service: private snapshots of the working tree and the index, and putting them back. Git's own
commands are modelled by what they are documented to do; object ids stand for the objects themselves. -/

namespace OttiliCoder.Git
open Transaction

/-! Trees of files. -/

/-- A path of a file, relative to the repository. -/
structure Path where
  text : String
  isFile : text.toList.getLast? ≠ some '/'
deriving DecidableEq

/-- `left.startsWith(right + "/")`. -/
def startsBelow (left right : String) : Bool := (right.toList ++ ['/']).isPrefixOf left.toList

def samePlace (left right : String) : Bool := left == right || startsBelow left right || startsBelow right left

/-- Files by path; none of them is a directory of another. -/
structure Files (Content : Type) where
  rows : List (Path × Content)
  apart : ∀ one ∈ rows, ∀ other ∈ rows, startsBelow one.1.text other.1.text = false
deriving DecidableEq

namespace Files
variable {Content : Type}

def empty : Files Content := ⟨[], by simp⟩

def get (files : Files Content) (path : Path) : Option Content := files.rows.lookup path

def has (files : Files Content) (path : Path) : Bool := files.rows.any fun row => row.1 == path

def paths (files : Files Content) : List Path := files.rows.map (·.1)

def keep (files : Files Content) (kept : Path → Bool) : Files Content where
  rows := files.rows.filter fun row => kept row.1
  apart one listed other member := files.apart one (List.mem_of_mem_filter listed) other (List.mem_of_mem_filter member)

/-- Nothing of a tree is at the place of a path, above it or below it. -/
def clearOf (files : Files Content) (path : Path) : Bool := files.rows.all fun row => !samePlace row.1.text path.text

/-- Writes every file of a tree; what is in the way of one is removed. -/
def overlay (files onto : Files Content) : Files Content where
  rows := files.rows ++ (onto.keep files.clearOf).rows
  apart := by
    have clear : ∀ row ∈ files.rows, ∀ other ∈ (onto.keep files.clearOf).rows, samePlace row.1.text other.1.text = false := by
      intro row listed other member
      have all := List.all_eq_true.mp (List.mem_filter.mp member).2 row listed
      exact Bool.not_eq_true' _ ▸ all
    intro one listed other member
    obtain listed | listed := List.mem_append.mp listed
    · obtain member | member := List.mem_append.mp member
      · exact files.apart one listed other member
      · have free := clear one listed other member
        simp only [samePlace, Bool.or_eq_false_iff] at free
        exact free.1.2
    · obtain member | member := List.mem_append.mp member
      · have free := clear other member one listed
        simp only [samePlace, Bool.or_eq_false_iff] at free
        exact free.2
      · exact (onto.keep files.clearOf).apart one listed other member

end Files

/-! Objects and refs. -/

inductive Commit (Content : Type) where
  | mk (tree : Files Content) (parents : List (Commit Content))

def Commit.tree {Content : Type} : Commit Content → Files Content
  | .mk tree _ => tree

def Commit.parents {Content : Type} : Commit Content → List (Commit Content)
  | .mk _ parents => parents

structure GitCheckpointSnapshot (Content : Type) where
  /-- A private Ottili ref, never refs/stash. -/
  ref : String
  /-- Commit whose tree represents the complete working tree at capture time. -/
  commit : Commit Content
  /-- HEAD at capture time. -/
  baseCommit : Commit Content
  /-- Commit whose tree represents the index at capture time. -/
  indexCommit : Commit Content

inductive GitError where
  /-- `GitSnapshotError`. -/
  | snapshot (message : String)
  /-- `GitOperationError` of a command that ends with an error. -/
  | operation (args : List String)
deriving DecidableEq

structure Repository (Content : Type) where
  head : Option (Commit Content)
  worktree : Files Content
  /-- None before the index file is first written. -/
  index : Option (Files Content)
  refs : List (String × Commit Content)

abbrev GitM (Content : Type) := EStateM GitError (Repository Content)

def isRefCharacter (character : Char) : Bool :=
  character.isAlphanum || character == '.' || character == '_' || character == '-'

/-- `/^[A-Za-z0-9][A-Za-z0-9._-]{0,127}$/`, without ".." and not ending in ".". -/
def isRefComponent (value : List Char) : Bool :=
  match value with
  | [] => false
  | first :: rest =>
    first.isAlphanum && decide (rest.length ≤ 127) && rest.all isRefCharacter &&
      !(value.zip rest).contains ('.', '.') && value.getLast? != some '.'

def assertRefComponent (value : List Char) (name : String) : Except GitError Unit :=
  if isRefComponent value then .ok ()
  else .error (.snapshot (name ++ " must be a safe, non-empty Git ref component."))

def privateRefStart : String := "refs/ottili/coder/"

def assertPrivateRef (ref : String) : Except GitError Unit :=
  let components := ref.toList.splitOn '/'
  if !privateRefStart.toList.isPrefixOf ref.toList then
    .error (.snapshot ("Checkpoint refs must be below " ++ privateRefStart ++ "."))
  else if components.length < 5 ∨ components[0]? ≠ some "refs".toList ∨ components[1]? ≠ some "ottili".toList then
    .error (.snapshot "Checkpoint ref has an invalid shape.")
  else (components.drop 2).forM fun component => assertRefComponent component "Checkpoint ref"

/-- A private ref reserved for a transactional pre-restore backup. -/
def recoverySnapshotRefFor (runId restoreId : String) : Except GitError String := do
  assertRefComponent runId.toList "runId"
  assertRefComponent restoreId.toList "restoreId"
  return privateRefStart ++ runId ++ "/recovery/" ++ restoreId

section Service
variable {Content : Type}

/-- Which untracked paths git passes over, read from the ignore files of the working tree. -/
abbrev IgnoreRules (Content : Type) := (Path → Option Content) → Path → Bool

variable (rules : IgnoreRules Content)

def Repository.tracked (repository : Repository Content) : Files Content := repository.index.getD .empty

def Repository.ignored (repository : Repository Content) (path : Path) : Bool := rules repository.worktree.get path

def raise {α : Type} (outcome : Except GitError α) : GitM Content α :=
  match outcome with
  | .ok value => pure value
  | .error error => throw error

/-- `git add -A` with another index: every tracked path that is still there and every path that is not ignored. -/
def addAll (repository : Repository Content) (index : Files Content) : Files Content :=
  repository.worktree.keep fun path => index.has path || !repository.ignored rules path

/-- `git ls-files --others --ignored --exclude-standard`. -/
def lsFilesIgnored (repository : Repository Content) : List Path :=
  repository.worktree.paths.filter fun path => !repository.tracked.has path && repository.ignored rules path

/-- `git read-tree`. -/
def readTree (tree : Files Content) : GitM Content Unit := modify fun repository => { repository with index := some tree }

/-- `git clean -f -d`. -/
def clean : GitM Content Unit :=
  modify fun repository => { repository with
    worktree := repository.worktree.keep fun path => repository.tracked.has path || repository.ignored rules path }

/-- `git checkout-index --all --force`. -/
def checkoutIndex : GitM Content Unit :=
  modify fun repository => { repository with worktree := repository.tracked.overlay repository.worktree }

/-- `git update-ref` that requires the ref to be missing. -/
def createRef (ref : String) (commit : Commit Content) : GitM Content Unit := do
  let repository ← get
  if (repository.refs.lookup ref).isSome then throw (.operation ["update-ref", ref])
  else set { repository with refs := repository.refs ++ [(ref, commit)] }

def requireHeadCommit : GitM Content (Commit Content) := do
  let repository ← get
  expect repository.head
    (.snapshot "Cannot create a workspace checkpoint before the repository has an initial commit.")

/-- Captures the working tree and the index without modifying either. -/
def captureWorkspaceSnapshot (ref : String) : GitM Content (GitCheckpointSnapshot Content) := do
  raise (assertPrivateRef ref)
  let head ← requireHeadCommit
  let repository ← get
  -- the temporary index is a copy of the real one, or what HEAD holds when there is none
  let temporaryIndex := repository.index.getD head.tree
  let indexCommit := .mk repository.tracked [head]
  let commit := .mk (addAll rules repository temporaryIndex) [head, indexCommit]
  createRef ref commit
  return { ref, commit, baseCommit := head, indexCommit }

def readCheckpointSnapshot (ref : String) : GitM Content (GitCheckpointSnapshot Content) := do
  raise (assertPrivateRef ref)
  let repository ← get
  let commit ← expect (repository.refs.lookup ref) (.operation ["rev-parse", "--verify", ref ++ "^\x7bcommit\x7d"])
  match commit.parents with
  | baseCommit :: indexCommit :: _ => return { ref, commit, baseCommit, indexCommit }
  | _ => throw (.snapshot ("Private ref " ++ ref ++ " does not point to an Ottili workspace snapshot."))

def stripSlash (text : String) : String :=
  if text.toList.getLast? = some '/' then String.ofList text.toList.dropLast else text

/-- Refuses a restore that would overwrite an ignored file, which no snapshot captures. -/
def assertNoIgnoredPathCollision (tree : Files Content) : GitM Content Unit := do
  let repository ← get
  let ignoredPaths := (lsFilesIgnored rules repository).map fun path => stripSlash path.text
  let collision := (tree.paths.map (·.text)).find? fun targetPath => ignoredPaths.any fun ignoredPath => samePlace targetPath ignoredPath
  match collision with
  | none => pure ()
  | some collision =>
    throw (.snapshot ("Checkpoint restore would overwrite ignored path '" ++ collision ++
      "'. Move or remove it before restoring."))

/-- Restores a captured tree and then its captured index. -/
def restoreWorkspaceSnapshot (ref : String) : GitM Content (GitCheckpointSnapshot Content) := do
  let snapshot ← readCheckpointSnapshot ref
  assertNoIgnoredPathCollision rules snapshot.commit.tree
  readTree snapshot.commit.tree
  clean rules
  checkoutIndex
  readTree snapshot.indexCommit.tree
  return snapshot

end Service

end OttiliCoder.Git
