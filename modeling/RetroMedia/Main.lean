import RetroMedia.CommandLine.Commands

/-! The program. It takes in the files that its arguments speak of, decides what to do with them,
and then prints and writes what came of it. -/
namespace RetroMedia.CommandLine

/-- The names that a path takes from a place in the host. -/
def placeAfter (place : List String) (path : HostPath) : List String :=
  path.steps.foldl (fun place step =>
    if HostPath.isIdle step then place
    else if step == ".." then place.dropLast
    else place ++ [step]) (if path.absolute then [] else place)

/-- Paths that the arguments speak of. The bytes of a file may go to a file of its own name. -/
def mentioned (arguments : Arguments) : List HostPath :=
  let path := HostPath.ofText arguments.path
  [path] ++ (path.fileName?.map HostPath.ofText).toList
    ++ (arguments.config.map HostPath.ofText).toList
    ++ (arguments.destination.map HostPath.ofText).toList

/-- Take in what stands at a place. -/
def takeIn (host : Host) (place : List String) : IO Host := do
  let path := (← IO.currentDir) / ("/" ++ String.intercalate "/" place)
  if ← path.isDir then return host.withDirectory place
  if !(← path.pathExists) then return host
  return host.withFile place ⟨(← IO.FS.readBinFile path).data⟩

/-- Take in what stands on the way to a place, and a directory's members at the end of it. -/
def takeInWay (host : Host) (place : List String) : IO Host := do
  let ways := (List.range (place.length + 1)).map place.take
  let host ← ways.foldlM takeIn host
  let path := (← IO.currentDir) / ("/" ++ String.intercalate "/" place)
  if !(← path.isDir) then return host
  let members ← path.readDir
  members.toList.foldlM (fun host member => takeIn host (place ++ [member.fileName])) host

/-- The part of the host that a run of the program depends on. -/
def surroundings (arguments : List String) : IO Host := do
  let here := placeAfter [] (HostPath.ofText (← IO.currentDir).toString)
  let paths := match parseArguments arguments with
    | .run arguments => mentioned arguments
    | .display _ | .refused => []
  let host : Host := { workingDirectory := here }
  (here :: paths.map (placeAfter here)).foldlM takeInWay host

end RetroMedia.CommandLine

open RetroMedia CommandLine in
def main (arguments : List String) : IO UInt32 := do
  let outcome := run arguments (← surroundings arguments)
  (← IO.getStdout).write ⟨outcome.printed.toArray⟩
  if let some (place, bytes) := outcome.written then
    IO.FS.writeBinFile ("/" ++ String.intercalate "/" place) ⟨bytes.toArray⟩
  if let some complaint := outcome.ending.complaint? then
    IO.eprintln complaint
  return UInt32.ofNat outcome.ending.exitCode
