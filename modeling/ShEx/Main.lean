import ShEx.CommandLine.Run

/-!
# The command

Reads the files that a command line names, and prints what the run says.
-/

set_option autoImplicit false

open ShEx.CommandLine

/-- The content of a file by its path, if it can be read. -/
def readContent (path : String) : IO (List (String × List UInt8)) := do
  try
    let bytes ← IO.FS.readBinFile path
    pure [(path, bytes.toList)]
  catch _ => pure []

/-- Validates nodes of RDF data against a schema of shape expressions. -/
def main (arguments : List String) : IO UInt32 := do
  let request := Request.ofArguments arguments
  let paths :=
    match request with
    | .validate o => o.paths
    | _ => []
  let directory ← IO.currentDir
  let contents ← paths.mapM readContent
  let ending := run ⟨toString directory, contents.flatten⟩ request
  for line in ending.output do
    IO.println line
  for line in ending.errors do
    IO.eprintln line
  pure ending.code.toUInt32
