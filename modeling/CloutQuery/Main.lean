import CloutQuery.CommandLine.Run

namespace CloutQuery.CommandLine

def textIfReadable (path : String) : IO (Option (String × String)) :=
  try
    let text ← IO.FS.readFile path
    pure (some (path, text))
  catch _ => pure none

def variableIfSet (name : String) : IO (Option (String × String)) := do
  pure ((← IO.getEnv name).map (name, ·))

end CloutQuery.CommandLine

open CloutQuery.CommandLine

def main (args : List String) : IO UInt32 := do
  let paths := match Invocation.parse args with
    | .ok i => i.clout :: i.config.toList
    | .error _ => []
  let files ← paths.filterMapM textIfReadable
  let settings ← variableNames.filterMapM variableIfSet
  let outcome := run args ⟨(List.lookup · files), (List.lookup · settings)⟩
  IO.print outcome.stdout
  IO.eprint outcome.stderr
  pure outcome.code.toUInt32
