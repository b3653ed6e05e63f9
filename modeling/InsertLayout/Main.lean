import InsertLayout.CommandLine.Run

/-!
# The program

The host of a process: its streams and the files of the machine that it runs on.
-/

set_option autoImplicit false

namespace InsertLayout.Machine

/-- A path as the system takes it. -/
def systemPath (path : Path) := System.mkFilePath [String.ofList path]

/-- The system's number of an error, which some calls report with its sign changed. -/
def errorNumber (code : UInt32) : Nat :=
  if code.toNat < 0x80000000 then code.toNat else 0x100000000 - code.toNat

/-- The reason that the system gives for an error. -/
def reason (e : IO.Error) : FileError :=
  match e with
  | .noFileOrDirectory .. => .notFound
  | .permissionDenied _ code _ | .inappropriateType _ code _ | .invalidArgument _ code _
  | .otherError code _ =>
    match errorNumber code with
    | 13 => .denied
    | 20 => .notDirectory
    | 21 => .isDirectory
    | 36 => .nameTooLong
    | 40 => .linkLoop
    | _ => .other e.toString.toList
  | _ => .other e.toString.toList

/-- The text that bytes encode. -/
def decode (bytes : ByteArray) : Except FileError Text :=
  match String.fromUTF8? bytes with
  | some s => .ok s.toList
  | none => .error .notText

/-- The bytes of a stream that have not been read yet. -/
partial def readToEnd (stream : IO.FS.Stream) (bytes : ByteArray) : IO ByteArray := do
  let more ← stream.read 65536
  if more.isEmpty then return bytes else readToEnd stream (bytes ++ more)

/-- The value of an action, or the reason why it failed. -/
def attempted {α : Type} (action : IO α) : IO (Except FileError α) := do
  match ← action.toBaseIO with
  | .ok a => return .ok a
  | .error e => return .error (reason e)

/-- A directory that the walk is inside of, and the path to it without links. -/
structure Enclosing where
  path : Path
  real : String

/-- The files of statements below a directory. -/
partial def collect (enclosing : List Enclosing) (path : Path) :
    IO (Except WalkError (List Path)) := do
  match ← attempted (systemPath path).readDir, ← attempted (IO.FS.realPath (systemPath path)) with
  | .error e, _ | _, .error e => return .error (.entry path e)
  | .ok entries, .ok real =>
    let here := ⟨path, real.toString⟩
    let names := (entries.toList.map fun entry => entry.fileName.toList).mergeSort Path.textLe
    let mut found : List (List Path) := []
    for name in names do
      let child := path.child name
      match ← attempted (systemPath child).metadata with
      | .error e => return .error (.entry child e)
      | .ok metadata =>
        match metadata.type with
        | .dir =>
          match ← attempted (IO.FS.realPath (systemPath child)) with
          | .error e => return .error (.entry child e)
          | .ok real =>
            let straight := (System.mkFilePath [here.real, String.ofList name]).toString
            if real.toString != straight then
              if let .error e ← attempted (systemPath child).readDir then
                return .error (.unopened e)
              if let some outer := (here :: enclosing).find? (·.real == real.toString) then
                return .error (.loop child outer.path)
            match ← collect (here :: enclosing) child with
            | .error e => return .error e
            | .ok files => found := files :: found
        | .file => if child.isSql then found := [child] :: found
        | _ => pure ()
    return .ok found.reverse.flatten

/-- The host of this process. -/
def host : Host IO where
  readInput := do
    let bytes ← attempted do readToEnd (← IO.getStdin) .empty
    return bytes.bind decode
  isDirectory path := (systemPath path).isDir
  sqlFiles path := return (← collect [] path).map fun files => files.mergeSort Path.le
  read path := return (← attempted (IO.FS.readBinFile (systemPath path))).bind decode
  write path t := attempted (IO.FS.writeFile (systemPath path) (String.ofList t))
  print t := do
    let output ← IO.getStdout
    output.putStr (String.ofList t)
    output.flush
  report t := do (← IO.getStderr).putStr (String.ofList t)

end InsertLayout.Machine

/-- Runs the program with its arguments. -/
def main (arguments : List String) : IO UInt32 := do
  let code ← InsertLayout.execute InsertLayout.Machine.host (arguments.map String.toList)
  return UInt32.ofNat code
