import Cbor.Cli.Command

/-!
# The command line

Loads the files that a command reads, runs it, and writes what it leaves behind.
-/

namespace Cbor.CommandLine

def loadDirectory (store : Store) (path : Text) : IO Store := do
  match ← (IO.FS.Handle.mk (String.ofList (path ++ "/.".toList)) .read).toBaseIO with
  | .ok _ => return store.addDirectory path
  | .error _ => return store

def loadFile (store : Store) (path : Text) : IO Store := do
  match ← (IO.FS.readBinFile (String.ofList path)).toBaseIO with
  | .ok content => return store.add path content.toList
  | .error _ => loadDirectory store path

def loadSource (store : Store) : Source → IO Store
  | .stdin => return store
  | .file path => loadFile store path

def readStdin (sources : List Source) : IO Bytes := do
  if sources.contains .stdin then return (← (← IO.getStdin).readBinToEnd).toList
  else return []

def save (before after : Store) : IO Unit := do
  for directory in after.directories do
    unless before.directories.contains directory do
      IO.FS.createDirAll (String.ofList (Path.toText directory))
  for (path, content) in after.files do
    unless before.files.contains (path, content) do
      IO.FS.writeBinFile (String.ofList (Path.toText path)) ⟨content.toArray⟩

def report (event : Event) : IO Unit :=
  IO.eprintln (event.severity.name ++ " " ++ String.ofList event.message)

def run (command : Command) : IO UInt32 := do
  let stdin ← readStdin command.sources
  let store ← command.sources.foldlM loadSource {}
  let store ← match command.directory? with
    | some directory => loadDirectory store directory
    | none => pure store
  let outcome := command.run stdin store
  (eventsFrom .warn outcome.events).forM report
  save store outcome.store
  IO.print (String.ofList outcome.stdout)
  match outcome.failure with
  | none => return 0
  | some message =>
      IO.eprintln ("Error: " ++ String.ofList message)
      return 1

def usage : String :=
  "usage: cbor inspect [--format diag|json|hex] [--hex] [-s] [--max-depth N] [-o OUT] INPUT\n" ++
  "       cbor verify FILE...\n" ++
  "       cbor fixtures [-o DIR]"

end Cbor.CommandLine

open Cbor in
def main (arguments : List String) : IO UInt32 := do
  match arguments.map String.toList with
  | name :: texts =>
      match Command.parse? name texts with
      | some (.ok command) => CommandLine.run command
      | some (.error .help) =>
          IO.println CommandLine.usage
          return 0
      | _ =>
          IO.eprintln CommandLine.usage
          return 2
  | [] =>
      IO.eprintln CommandLine.usage
      return 2
