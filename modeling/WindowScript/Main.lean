import WindowScript.CommandLine.Respond

/-!
# The program

Reads and writes real files and prints. Commands of the system are not available to
scripts run from here.
-/

set_option autoImplicit false

namespace WindowScript.CommandLine

/-- The host of scripts that are run from the command line. -/
def console : Host where
  refusal? := fun _ _ => none
  reply := fun _ _ => .error "commands are not available"

def announce (response : Response) : IO UInt32 := do
  IO.print response.printed
  IO.eprint response.reported
  return UInt32.ofNat response.status

def loadScript (options : Options) : IO (Option String) := do
  if options.fromFile then
    try
      let script ← IO.FS.readFile options.contents
      return some script
    catch _ => return none
  else return some options.contents

def carryOut : Action → IO UInt32
  | .respond response => announce response
  | .writeFile path content => do
      try
        IO.FS.writeFile path content
        return 0
      catch failure => announce (.unwritable path (toString failure))

end WindowScript.CommandLine

open WindowScript.CommandLine in
def main (arguments : List String) : IO UInt32 := do
  match request arguments with
  | .misuse => announce .misuse
  | .version => announce .version
  | .help => announce .help
  | .script options =>
      match ← loadScript options with
      | none => announce (.unreadable options.contents)
      | some script => carryOut (act console options script)
