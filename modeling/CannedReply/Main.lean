import CannedReply.Program
/-!
# The command

Runs the program for one client on the standard streams, as a service that is started for a
connection: the client's bytes come from the input and its answer goes to the output, while what a
listening server would print goes to the error output.
-/

open CannedReply

/-- The storage that holds the reply file of the working directory. -/
def currentStorage : IO ReplyFile.Storage := do
  let holding (node : FileNode) : ReplyFile.Storage :=
    { tree := { entries := [([ReplyFile.defaultPath], node)] } }
  try
    let content ← IO.FS.readBinFile ReplyFile.defaultPath
    return holding (.file content.toList)
  catch
    | .noFileOrDirectory .. => return {}
    | .inappropriateType .. => return holding .directory
    | .permissionDenied .. => return { openFault := some ⟨13, "Permission denied"⟩ }
    | e => return { openFault := some ⟨5, toString e⟩ }

/-- The client at the standard input, all of whose bytes have arrived when its visit starts. -/
def currentClient : IO Client := do
  let start ← IO.monoNanosNow
  let received ← (← IO.getStdin).readBinToEnd
  let stop ← IO.monoNanosNow
  return {
    socket := { arrivals := [.data received.toList] }
    start := start / 1000
    stop := stop / 1000 }

def currentEvents (words : List String) : IO (List Event) := do
  match CommandLine.parse words with
  | .ok (.serve _) => return [.client (← currentClient)]
  | _ => return []

def main (words : List String) : IO UInt32 := do
  let events ← currentEvents words
  let run := Program.run words { storage := ← currentStorage, listener := { events } }
  let answer := run.visits.flatMap fun visit => visit.socket.sent
  (← IO.getStdout).write ⟨answer.toArray⟩
  if events.isEmpty then IO.print run.output else IO.eprint run.output
  IO.eprint run.errors
  match run.ending with
  | .returned code | .exited code => return code.toUInt32
  | .failed message =>
    IO.eprintln message
    return 1
