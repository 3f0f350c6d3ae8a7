import WindowScript.CommandLine.Directory
import WindowScript.CommandLine.Options
import WindowScript.Script

/-!
# What a command line does

A request is answered in two steps: the script is found, and then run or compiled.
What is printed and what is written to a file is returned as data.
-/

set_option autoImplicit false

namespace WindowScript.CommandLine

structure Response where
  status : Nat
  printed : String
  reported : String
deriving DecidableEq, Repr

namespace Response

def success (printed : String) : Response := ⟨0, printed, ""⟩

def failure (printed reported : String) : Response := ⟨1, printed, reported ++ "\n"⟩

def misuse : Response := ⟨2, "", "Usage: nixi [OPTIONS] <CONTENTS>\n"⟩

def version : Response := success "nixi 0.1.0\n"

def help : Response := success "Usage: nixi [OPTIONS] <CONTENTS>\n"

def unreadable (path : String) : Response :=
  failure "" s!"Failed to read the input file '{path}'. Perhaps this file does not exist?"

def unwritable (path reason : String) : Response :=
  failure "" s!"Failed to write '{path}': {reason}"

end Response

/-- What is left to do for a request once its script is known. -/
inductive Action where
  | respond (response : Response)
  | writeFile (path content : String)
deriving DecidableEq, Repr

def runScript (host : Host) (showResult : Bool) (script : String) : Response :=
  match Script.run host script with
  | (.ok value, history) =>
      .success (history.output ++ if showResult then Script.shownResult value else "")
  | (.error failure, history) => .failure history.output failure.message

def compileScript (output : Option String) (script : String) : Action :=
  match Script.compile script, output with
  | .error failure, _ => .respond (.failure "" failure.message)
  | .ok python, some path => .writeFile path python
  | .ok python, none => .respond (.success python)

def act (host : Host) (options : Options) (script : String) : Action :=
  if options.compile then compileScript options.output script
  else .respond (runScript host options.showResult script)

/-- The script of a request, which may have to be read from a file. -/
def scriptOf (directory : Directory) (options : Options) : Option String :=
  if options.fromFile then directory.read? options.contents else some options.contents

/-- Carries out a script request in a working directory. -/
def perform (host : Host) (directory : Directory) (options : Options) : Response × Directory :=
  match scriptOf directory options with
  | none => (.unreadable options.contents, directory)
  | some script =>
      match act host options script with
      | .respond response => (response, directory)
      | .writeFile path content =>
          match directory.write path content with
          | .ok after => (.success "", after)
          | .error failure => (.unwritable path failure.message, directory)

def respond (host : Host) (directory : Directory) (arguments : List String) :
    Response × Directory :=
  match request arguments with
  | .misuse => (.misuse, directory)
  | .version => (.version, directory)
  | .help => (.help, directory)
  | .script options => perform host directory options

end WindowScript.CommandLine
