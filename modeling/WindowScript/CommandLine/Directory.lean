import WindowScript.Value.Bindings

/-!
# A working directory

The part of a file system that the command line touches: text files by their path from
the working directory. A directory exists when it holds a file.
-/

set_option autoImplicit false

namespace WindowScript.CommandLine

structure Directory where
  files : List (String × String)
deriving DecidableEq, Repr

inductive WriteFailure where
  | missingParent
  | parentIsFile
  | isDirectory
deriving DecidableEq, Repr

def WriteFailure.message : WriteFailure → String
  | .missingParent => "No such file or directory (os error 2)"
  | .parentIsFile => "Not a directory (os error 20)"
  | .isDirectory => "Is a directory (os error 21)"

namespace Directory

def steps (path : String) : List String := (path.splitOn "/").filter (· ≠ "")

/-- The place behind one more step, with the names on the way there in reverse. A point
leads nowhere else, and two points lead back where there is a way back. -/
def follow (place : List String) (step : String) : List String :=
  match step, place with
  | ".", _ => place
  | "..", name :: above => if name = ".." then step :: place else above
  | _, _ => step :: place

def path (place : List String) : String := "/".intercalate place.reverse

def fileAt (directory : Directory) (place : List String) : Option String :=
  Bindings.find? (path place) directory.files

def isDirectory (directory : Directory) (place : List String) : Bool :=
  place.all (· = "..") ||
    directory.files.any fun file => ((path place) ++ "/").isPrefixOf file.1

/-- Follows steps through directories. The last step may lead anywhere. -/
def resolve (directory : Directory) (place : List String) :
    List String → Except WriteFailure (List String)
  | [] => .ok place
  | [last] => .ok (follow place last)
  | step :: next :: rest =>
      let here := follow place step
      if directory.isDirectory here then directory.resolve here (next :: rest)
      else if (directory.fileAt here).isSome then .error .parentIsFile
      else .error .missingParent

def namesDirectory (path : String) : Bool := path.endsWith "/" || path.endsWith "/."

/-- The place that a path leads to. Nothing outside the working directory is known. -/
def locate (directory : Directory) (path : String) : Except WriteFailure (List String) :=
  if path.startsWith "/" then .error .missingParent else directory.resolve [] (steps path)

def read? (directory : Directory) (path : String) : Option String :=
  if namesDirectory path then none
  else
    match directory.locate path with
    | .ok place => directory.fileAt place
    | .error _ => none

def write (directory : Directory) (path content : String) : Except WriteFailure Directory := do
  let place ← directory.locate path
  if namesDirectory path || directory.isDirectory place then .error .isDirectory
  else .ok ⟨Bindings.insert (Directory.path place) content directory.files⟩

end Directory

end WindowScript.CommandLine
