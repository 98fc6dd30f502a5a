import RouteModule.CommandLine

/-!
The program on a disk. A `Program` is carried out operation by operation, and what the operating
system says becomes a `FileFault`.
-/

namespace RouteModule

/-- The fault of a number of the operating system. -/
def FileFault.ofNumber (number : UInt32) (text : String) : FileFault :=
  if number = 2 then notFound
  else if number = 17 then alreadyThere
  else if number = 20 then notDirectory
  else if number = 21 then isDirectory
  else if number = 36 then nameTooLong
  else if number = 40 then linkLoop
  else other text.toList number.toNat

def FileFault.ofError : IO.Error → FileFault
  | .alreadyExists _ n t => ofNumber n t
  | .otherError n t => ofNumber n t
  | .resourceBusy n t => ofNumber n t
  | .resourceVanished n t => ofNumber n t
  | .unsupportedOperation n t => ofNumber n t
  | .hardwareFault n t => ofNumber n t
  | .unsatisfiedConstraints n t => ofNumber n t
  | .illegalOperation n t => ofNumber n t
  | .protocolError n t => ofNumber n t
  | .timeExpired n t => ofNumber n t
  | .interrupted _ n t => ofNumber n t
  | .noFileOrDirectory _ n t => ofNumber n t
  | .invalidArgument _ n t => ofNumber n t
  | .permissionDenied _ n t => ofNumber n t
  | .resourceExhausted _ n t => ofNumber n t
  | .inappropriateType _ n t => ofNumber n t
  | .noSuchThing _ n t => ofNumber n t
  | .unexpectedEof => other "unexpected end of file".toList 0
  | .userError t => other t.toList 0

def onDisk (path : Text) (act : String → IO α) : IO (Except FileFault α) := do
  if path.contains '\x00' then return .error .nul
  try
    return .ok (← act (String.ofList path))
  catch e => return .error (.ofError e)

/-- What a path leads to: a directory can be opened, but not read. -/
def kindOnDisk (path : Text) : IO (Except FileFault Kind) := do
  let r ← onDisk path fun p => do
    let handle ← IO.FS.Handle.mk p .read
    let _ ← handle.read 1
  return match r with
    | .ok () => .ok .file
    | .error .isDirectory => .ok .directory
    | .error f => .error f

def readOnDisk (path : Text) : IO (Except FileFault Bytes) :=
  onDisk path fun p => do
    let handle ← IO.FS.Handle.mk p .read
    return (← handle.readBinToEnd).toList

def writeOnDisk (path : Text) (content : Bytes) : IO (Except FileFault Unit) :=
  onDisk path fun p => do
    let handle ← IO.FS.Handle.mk p .write
    handle.write (ByteArray.mk content.toArray)
    handle.flush

def Program.perform : Program α → IO (Except Problem α)
  | done a => return .ok a
  | fail p => return .error p
  | kind path next => do (next (← kindOnDisk path)).perform
  | read path next => do (next (← readOnDisk path)).perform
  | write path content next => do (next (← writeOnDisk path content)).perform

def CommandLine.Report.print (r : Report) : IO Unit := do
  IO.print (String.ofList r.output)
  if let some failure := r.failure? then IO.eprintln (String.ofList failure)
  if let some problem := r.problem? then
    let cause := problem.message?.getD "the document was refused".toList
    IO.eprintln ("\nCaused by:\n    " ++ String.ofList cause)

end RouteModule

open RouteModule in
def main (args : List String) : IO UInt32 := do
  let cwd := (toString (← IO.currentDir)).toList
  match ← (CommandLine.run cwd (args.map String.toList)).perform with
  | .ok report =>
    report.print
    return report.exit.toUInt32
  | .error _ => return 1
