import LatentFactors.Command.Run
import LatentFactors.Command.Split
import LatentFactors.Command.Tune
import LatentFactors.Text.Columns

/-!
# The program

The first word of the command line names the command: `run-learner`,
`split-data` or `tune-learner`.  Frames are kept in files as JSON texts, and
what the commands report goes to the error output.
-/

namespace LatentFactors.Program

/-- Reads the files that exist.  The directories of all files are taken to
exist, as it shows when they are written. -/
def readFolder (paths outputs : List String) : IO Command.Folder := do
  let mut texts := []
  let mut frames := []
  for path in paths do
    try
      let text ← IO.FS.readFile path
      if Command.Folder.isFrame path then
        match Text.Columns.read? text with
        | some frame => frames := (path, frame) :: frames
        | none => IO.eprintln (path ++ " holds no frame")
      else texts := (path, text) :: texts
    catch _ => pure ()
  return .ofFiles texts frames ((paths ++ outputs).map Text.Path.directory)

/-- The draws of a seed. -/
def drawsOf (seed : Option String) : Draws Float :=
  .ofSource (Draws.congruential (((seed.bind Decimal.readInteger).getD 1).natAbs))

/-- What a failure without words of its own is reported as. -/
def failureText (fault : Fault Float) : String :=
  match fault with
  | .usage => "usage: COMMAND [options] ARGUMENT..."
  | .fileNotFound path => "no file " ++ path
  | .isDirectory path => path ++ " is a directory"
  | .notDirectory path => path ++ " is not in a directory"
  | .fileExists path => path ++ " is a file"
  | .cannotWrite path => "no directory for " ++ path
  | .notText path => path ++ " holds no text"
  | .notFrame path => path ++ " holds no frame"
  | .unknownAlgorithm name => "no algorithm " ++ name
  | .missingColumn name => "no column " ++ name
  | .malformedPattern | .unusableSeparator => "malformed separator"
  | other => other.message.getD "malformed input"

/-- Goes on with an outcome or reports its failure. -/
def conclude {β : Type} (outcome : Outcome Float β) (next : β → IO Unit) : IO UInt32 := do
  match outcome with
  | .ok answer =>
    next answer
    return 0
  | .error fault =>
    IO.eprintln (failureText fault)
    return 1

/-- Reports lines. -/
def report (lines : List String) : IO Unit := lines.forM fun line => IO.eprintln line

/-- Trains and scores an algorithm. -/
def run (words : List String) : IO UInt32 := do
  match Command.Run.Settings.read words with
  | .error fault => conclude (.error fault) fun () => pure ()
  | .ok settings =>
    let folder ← readFolder settings.files settings.output.toList
    conclude (Command.Run.execute settings folder (drawsOf settings.seed)) fun answer => do
      report (answer.log ++ answer.reports.map Report.text)
      match settings.output, answer.predictions with
      | some path, some frame => IO.FS.writeFile path (Text.Columns.write frame)
      | _, _ => pure ()

/-- Splits a file of ratings. -/
def split (words : List String) : IO UInt32 := do
  match Command.Split.Settings.read words with
  | .error fault => conclude (.error fault) fun () => pure ()
  | .ok settings =>
    let folder ← readFolder settings.files []
    conclude (Command.Split.execute settings folder (drawsOf settings.seed)) fun answer => do
      report (answer.report :: answer.log)
      IO.FS.createDirAll answer.directory
      let write (name : String) (frame : Frame Float) : IO Unit :=
        IO.FS.writeFile (Text.Path.join answer.directory name) (Text.Columns.write frame)
      write "train.parquet" answer.train
      write "validation.parquet" answer.validation
      write "test.parquet" answer.test

/-- Searches for parameters. -/
def tune (words : List String) : IO UInt32 := do
  match Command.Tune.Settings.read words with
  | .error fault => conclude (.error fault) fun () => pure ()
  | .ok settings =>
    let folder ← readFolder settings.files (settings.record.toList ++ settings.output.toList)
    let draws := drawsOf settings.seed
    conclude (Command.Tune.execute settings folder draws draws) fun answer => do
      report answer.log
      match settings.record with
      | some path => IO.FS.writeFile path answer.record.text
      | none => pure ()
      match settings.output, answer.best with
      | some path, some best =>
        let members := best.map fun (name, n) => (name, Text.Json.number n)
        IO.FS.writeFile path (Text.Json.object members).text
      | _, _ => pure ()

end LatentFactors.Program

/-- Runs the command that the first word names. -/
def main (words : List String) : IO UInt32 :=
  match words with
  | "run-learner" :: rest => LatentFactors.Program.run rest
  | "split-data" :: rest => LatentFactors.Program.split rest
  | "tune-learner" :: rest => LatentFactors.Program.tune rest
  | _ => LatentFactors.Program.conclude (.error .usage) fun () => pure ()
