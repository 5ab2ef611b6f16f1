import ColorTheme.CommandLine.Run

/-!
# The program

Reads the files that a command line names, carries out the run, writes its file, and prints what
it has to say.
-/

set_option autoImplicit false

namespace ColorTheme

/-- The failure that an error of the system stands for.  The system's number may be negated. -/
def failureOf (failure : IO.Error) : FileError :=
  match failure with
  | .alreadyExists .. => .alreadyThere
  | .inappropriateType _ number _ =>
    if min number (0 - number) = 20 then .notADirectory else .isADirectory
  | .invalidArgument _ number _ =>
    if min number (0 - number) = 36 then .nameTooLong else .notFound
  | _ => .notFound

/-- The text of a file of the system. -/
def readSystemFile (name : String) : IO (Except FileError String) := do
  if let some failure := nameFlaw? name then return .error failure
  try
    let bytes ← IO.FS.readBinFile name
    return match String.fromUTF8? bytes with
      | some text => .ok text
      | none => .error .notText
  catch failure => return .error (failureOf failure)

/-- Makes the directories that a file needs, and writes it. -/
def writeSystemFile (file : TextFile) : IO (Except WriteError Unit) := do
  if let some parent := (parentOf? file.name).filter (!·.isEmpty) then
    if let some failure := nameFlaw? parent then return .error (.directory parent failure)
    try IO.FS.createDirAll parent
    catch failure => return .error (.directory parent (failureOf failure))
  if let some failure := nameFlaw? file.name then return .error (.file file.name failure)
  try
    IO.FS.writeFile file.name file.text
    return .ok ()
  catch failure => return .error (.file file.name (failureOf failure))

/-- The files that the words of a command line name. -/
def namedFiles (words : List String) : List String :=
  match Invocation.ofArguments words with
  | .error _ => []
  | .ok invocation =>
    invocation.configFile.getD Config.fileName :: match invocation.command with
      | .check files => files
      | .build file _ _ => [file]
      | .config => []

/-- Prints an event, with messages of little matter only on demand. -/
def printEvent (verbose : Bool) (event : Event) : IO Unit :=
  match event with
  | .message level text =>
    if level != .debug || verbose then IO.eprintln (level.name ++ " " ++ harmless text)
    else pure ()
  | .report r => IO.eprint r.display
  | .remark text => IO.eprintln text

/-- Carries out the words of a command line, and gives the exit code. -/
def carryOut (words : List String) : IO UInt32 := do
  let files ← (namedFiles words).mapM fun name => return (name, ← readSystemFile name)
  let read : ReadFile := fun name => (files.lookup name).getD (.error .notFound)
  let planned := Run.ofArguments read words
  let run ← match planned.file with
    | none => pure planned
    | some file => match ← writeSystemFile file with
      | .ok () => pure (planned.wrote file)
      | .error failure => pure (planned.refused failure)
  let verbose := match Invocation.ofArguments words with
    | .ok invocation => invocation.verbose
    | .error _ => false
  run.events.forM (printEvent verbose)
  IO.print run.stdout
  return run.exit.toUInt32

end ColorTheme

/-- The program. -/
def main (words : List String) : IO UInt32 := ColorTheme.carryOut words
