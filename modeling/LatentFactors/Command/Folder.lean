import LatentFactors.Text.Delimited
import LatentFactors.Text.Path

/-!
# The files of a command

A command finds its files in a `Folder`, which knows the files in and below
the working directory.  A file is a text or a frame; the frames are those
whose names end in `.parquet`.

A path is followed part by part (`Folder.follow`): every part but the last
has to lead to a directory.  What stands at its end decides whether it can be
read (`text`, `frame`, `table`), written (`checkWritable`) or made a directory
(`makeDirectory`).  Nothing is known of the files above the working
directory.
-/

namespace LatentFactors.Command

/-- What a file holds. -/
inductive Content where
  | text (text : String)
  | frame (frame : Frame Float)

/-- A place among files: so many directories above the working directory, and
then down by names; or down by names from the root. -/
structure Trail where
  above : Nat
  inside : List String
  deriving DecidableEq, Repr

namespace Trail

/-- The working directory. -/
def here : Trail := ⟨0, []⟩

/-- Follows one part of a path.  Nothing is above the root. -/
def enter (t : Trail) (part : String) : Trail :=
  if part == ".." then
    if t.inside.isEmpty then ⟨t.above + 1, []⟩
    else if t.inside == [Text.Path.root] then t
    else { t with inside := t.inside.dropLast }
  else { t with inside := t.inside ++ [part] }

end Trail

/-- Files by their places, and directories without files. -/
structure Folder where
  files : Table (List String) Content
  directories : List (List String)

/-- What a path leads to. -/
inductive Found where
  | file (content : Content)
  | directory
  /-- Nothing, in a directory that exists. -/
  | vacant
  /-- Nothing, in a directory that does not exist. -/
  | nowhere
  /-- A file in place of a directory on the way. -/
  | blocked

namespace Folder

/-- The folder of some texts, frames and directories. -/
def ofFiles (texts : List (String × String)) (frames : List (String × Frame Float))
    (directories : List String) : Folder :=
  ⟨.ofList (texts.map (fun (path, text) => (Text.Path.parts path, .text text)) ++
      frames.map fun (path, frame) => (Text.Path.parts path, .frame frame)),
    directories.map Text.Path.parts⟩

/-- Whether a place below the working directory is a directory. -/
def isDirectory (folder : Folder) (inside : List String) : Bool :=
  inside == [Text.Path.root] ||
    (folder.directories ++ folder.files.keys.map List.dropLast).any inside.isPrefixOf

/-- What is at a place in a directory that exists. -/
def at? (folder : Folder) (t : Trail) : Found :=
  if t.inside.isEmpty then .directory
  else if t.above ≠ 0 then .vacant
  else
    match folder.files.find? t.inside with
    | some content => .file content
    | none => if folder.isDirectory t.inside then .directory else .vacant

/-- Follows the parts of a path from a place. -/
def followFrom (folder : Folder) (t : Trail) : List String → Found
  | [] => folder.at? t
  | part :: rest =>
    match folder.at? t with
    | .directory => folder.followFrom (t.enter part) rest
    | .file _ => .blocked
    | .vacant | .nowhere | .blocked => .nowhere

/-- Follows a path. -/
def follow (folder : Folder) (path : String) : Found :=
  folder.followFrom .here (Text.Path.parts path)

/-- The content of a file. -/
def content (folder : Folder) (path : String) : Outcome Float Content :=
  match folder.follow path with
  | .file content => .ok content
  | .directory => .error (.isDirectory path)
  | .vacant | .nowhere => .error (.fileNotFound path)
  | .blocked => .error (.notDirectory path)

/-- The text of a path. -/
def text (folder : Folder) (path : String) : Outcome Float String := do
  match ← folder.content path with
  | .text text => return text
  | .frame _ => throw (.notText path)

/-- The frame of a path. -/
def frame (folder : Folder) (path : String) : Outcome Float (Frame Float) := do
  match ← folder.content path with
  | .frame frame => return frame
  | .text _ => throw (.notFrame path)

/-- Whether a path names a frame. -/
def isFrame (path : String) : Bool := Text.Path.suffix path == ".parquet"

/-- Reads a frame, or a delimited text with the given names for its columns. -/
def table (folder : Folder) (path separator : String) (names : List String) :
    Outcome Float (Frame Float) :=
  if isFrame path then folder.frame path
  else do
    Text.Delimited.check names separator
    Text.Delimited.read names separator (← folder.text path)

/-- Refuses a path at which no file can be written. -/
def checkWritable (folder : Folder) (path : String) : Outcome Float Unit :=
  match folder.follow path with
  | .file _ => if path.endsWith "/" then .error (.notDirectory path) else .ok ()
  | .vacant => if path.endsWith "/" then .error (.isDirectory path) else .ok ()
  | .directory => .error (.isDirectory path)
  | .nowhere => .error (.fileNotFound path)
  | .blocked => .error (.notDirectory path)

/-- Refuses a path at which no frame can be written: its directory has to
exist. -/
def checkFrameWritable (folder : Folder) (path : String) : Outcome Float Unit := do
  match folder.follow (Text.Path.directory path) with
  | .directory => folder.checkWritable path
  | _ => throw (.cannotWrite path)

/-- Makes the directories on a path that do not exist, from a place that is a
directory. -/
def makeFrom (path : String) (folder : Folder) (t : Trail) :
    List String → Outcome Float Folder
  | [] => .ok folder
  | part :: rest => do
    let next := t.enter part
    match folder.at? next with
    | .directory => makeFrom path folder next rest
    | .file _ => throw (if rest.isEmpty then .fileExists path else .notDirectory path)
    | .vacant | .nowhere | .blocked =>
      makeFrom path { folder with directories := next.inside :: folder.directories } next rest

/-- Makes a directory, and all that it is in. -/
def makeDirectory (folder : Folder) (path : String) : Outcome Float Folder :=
  makeFrom path folder .here (Text.Path.parts path)

end Folder

end LatentFactors.Command
