import Workflow.Directory

/-!
# The program

Runs the command on the files and the environment of the machine. It starts no other programs, so a
frontend command is reported as one that cannot be started.
-/

open Workflow

def machine : Host IO where
  env := fun name => IO.getEnv name
  readFile := fun path => do
    try return .ok (← IO.FS.readFile path)
    catch e => return .error e.toString
  writeFile := fun path text => do
    try
      IO.FS.writeFile path text
      return .ok ()
    catch e => return .error e.toString
  launch := fun _ _ => return .error Directory.notFound

def main (args : List String) : IO UInt32 := do
  let outcome ← CommandLine.run machine args
  IO.print outcome.stdout
  IO.eprint outcome.stderr
  return outcome.status.toUInt32
