import OttiliCoder.Library.JsString

/-! What a command is spawned as. On Windows a batch file goes through `cmd.exe`, with one command line made of its arguments. -/

namespace OttiliCoder.CommandTarget
open Host

structure ResolvedCommandTarget where
  executable : JsString
  args : List JsString
  /-- The arguments are already a command line. -/
  windowsVerbatimArguments : Bool := false
deriving DecidableEq

structure ResolveCommandTargetOptions where
  platform : Option String := none
  path : Option JsString := none
  pathExtensions : Option JsString := none
  comspec : Option JsString := none
  workingDirectory : Option JsString := none

/-- `path.win32` and the file system, as far as the search asks them. -/
structure WindowsHost where
  isAbsolute : JsString → Bool
  resolve : JsString → JsString → JsString
  probe : JsString → Bool

/-- What the options default to. -/
structure Process where
  platform : String
  comspec : Option JsString

/-- The last name of a path; separators at its end do not count. -/
def lastName (path : JsString) : JsString :=
  let isSeparator := fun u => u == unit '/' || u == unit '\\'
  let afterDrive :=
    match path with
    | letter :: colon :: rest => if isLetter letter && colon == unit ':' then rest else path
    | _ => path
  (afterDrive.rdropWhile isSeparator).rtakeWhile fun u => !isSeparator u

/-- `win32.extname`. A dot at the start of the name begins no extension, nor does the second of two that are the whole name. -/
def extname (path : JsString) : JsString :=
  let name := lastName path
  let extension := name.rtakeWhile fun u => u != unit '.'
  let stem := name.take (name.length - extension.length - 1)
  if stem = [] ∨ extension.length = name.length ∨ name = units ".." then [] else unit '.' :: extension

/-- What `cmd.exe` interprets rather than passes through. -/
def CMD_METACHARACTERS : JsString := units "\"&|<>^%!()\r\n"

def BATCH_EXTENSIONS : List JsString := [units ".cmd", units ".bat"]

def hasMetacharacter (value : JsString) : Bool := value.any fun u => CMD_METACHARACTERS.contains u

def isBatch (resolved : JsString) : Bool := BATCH_EXTENSIONS.contains (toLowerCase (extname resolved))

section Resolve
variable (windows : WindowsHost)

/-- The file Windows would execute for a bare command name. -/
def resolveWindowsExecutable (command : JsString) (options : ResolveCommandTargetOptions) : Option JsString :=
  let extensions := (((options.pathExtensions.getD (units ".COM;.EXE;.BAT;.CMD")).splitOn (unit ';')).map trim).filter fun extension =>
    decide (0 < extension.length)
  let candidateRoots :=
    if windows.isAbsolute command || command.contains (unit '/') || command.contains (unit '\\') then
      [windows.resolve (options.workingDirectory.getD (units ".")) command]
    else
      (((options.path.getD []).splitOn (unit ';')).filter fun entry => decide (0 < entry.length)).map fun entry =>
        windows.resolve entry command
  candidateRoots.findSome? fun root =>
    if 0 < (extname root).length ∧ windows.probe root = true then some root
    else (extensions.map fun extension => root ++ extension).find? windows.probe

/-- Quotes one token for the command-line parser of the C runtime: the backslashes at its end are doubled, since they would
otherwise escape the closing mark. -/
def quoteWindowsArgument (value : JsString) : JsString :=
  if 0 < value.length ∧ value.any isWhiteSpace = false then value
  else
    let escaped := value ++ value.rtakeWhile fun u => u == unit '\\'
    unit '"' :: (escaped ++ [unit '"'])

def metacharacterMessage (command rejected : JsString) : JsString :=
  units "Command '" ++ command ++ units "' is a Windows batch file, which must run through cmd.exe. The argument " ++ quote rejected ++
    units (" contains a cmd.exe metacharacter and cannot be passed safely. " ++ "Invoke the underlying executable directly instead.")

/-- The executable and the arguments that run a command, or the message of the error. -/
def resolveCommandTarget (process : Process) (command : JsString) (args : List JsString) (options : ResolveCommandTargetOptions) :
    Except JsString ResolvedCommandTarget :=
  if options.platform.getD process.platform ≠ "win32" then .ok { args, executable := command }
  else
    match resolveWindowsExecutable windows command options with
    | none => .ok { args, executable := command }
    | some resolved =>
      if !isBatch resolved then .ok { args, executable := resolved }
      else
        match (resolved :: args).find? hasMetacharacter with
        | some rejected => .error (metacharacterMessage command rejected)
        | none =>
          let commandLine := [unit ' '].intercalate ((resolved :: args).map quoteWindowsArgument)
          .ok {
            args := [units "/d", units "/s", units "/c", unit '"' :: (commandLine ++ [unit '"'])]
            executable := (options.comspec.or process.comspec).getD (units "cmd.exe")
            windowsVerbatimArguments := true }

end Resolve

end OttiliCoder.CommandTarget
