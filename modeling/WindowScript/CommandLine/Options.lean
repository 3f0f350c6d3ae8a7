/-!
# Command line arguments

Arguments are read from left to right. A word that begins with a hyphen holds flags,
unless it is a hyphen alone or stands behind a double hyphen. The first fault, or the
first request for the version or for help, decides.
-/

set_option autoImplicit false

namespace WindowScript.CommandLine

structure Options where
  /-- The contents name a file that holds the script. -/
  fromFile : Bool
  /-- The result of the script is shown. -/
  showResult : Bool
  /-- The script is compiled and not run. -/
  compile : Bool
  /-- The file for the compiled script. -/
  output : Option String
  /-- The script, or the name of its file. -/
  contents : String
deriving DecidableEq, Repr

inductive Request where
  | script (options : Options)
  | version
  | help
  | misuse
deriving DecidableEq, Repr

structure Draft where
  fromFile : Bool
  showResult : Bool
  compile : Bool
  output : Option String
  contents : Option String
deriving DecidableEq, Repr

namespace Draft

def empty : Draft := ⟨false, false, false, none, none⟩

/-- The request of a complete command line: a script must be given, and an output file
only along with compilation. -/
def finish (draft : Draft) : Request :=
  match draft.contents with
  | none => .misuse
  | some contents =>
      if draft.output.isSome && !draft.compile then .misuse
      else .script
        ⟨draft.fromFile, draft.showResult, draft.compile, draft.output, contents⟩

def takeContents (draft : Draft) (contents : String) : Option Draft :=
  if draft.contents.isSome then none else some { draft with contents := some contents }

def takeOutput (draft : Draft) (path : String) : Option Draft :=
  if draft.output.isSome || path.isEmpty then none else some { draft with output := some path }

end Draft

inductive Flag where
  | file | pipeMode | compile | output | version | help
deriving DecidableEq, Repr

namespace Flag

def ofLetter? : Char → Option Flag
  | 'f' => some .file
  | 'p' => some .pipeMode
  | 'c' => some .compile
  | 'o' => some .output
  | 'V' => some .version
  | 'h' => some .help
  | _ => none

def ofName? : String → Option Flag
  | "file" => some .file
  | "pipe-mode" => some .pipeMode
  | "compile" => some .compile
  | "output" => some .output
  | "version" => some .version
  | "help" => some .help
  | _ => none

end Flag

inductive Progress where
  | next (draft : Draft)
  | awaitOutput (draft : Draft)
  | done (request : Request)
deriving DecidableEq, Repr

namespace Progress

/-- Goes on with a draft, or reports misuse. -/
def ofDraft? : Option Draft → Progress
  | some draft => .next draft
  | none => .done .misuse

end Progress

namespace Draft

/-- Takes a flag that stands without a value. A flag can be given once. -/
def takeFlag (draft : Draft) : Flag → Progress
  | .file => if draft.fromFile then .done .misuse else .next { draft with fromFile := true }
  | .pipeMode =>
      if draft.showResult then .done .misuse else .next { draft with showResult := true }
  | .compile => if draft.compile then .done .misuse else .next { draft with compile := true }
  | .output => .awaitOutput draft
  | .version => .done .version
  | .help => .done .help

/-- Takes a full flag name, with a value behind an equals sign if there is one. -/
def takeLong (draft : Draft) (characters : List Char) : Progress :=
  let name := String.ofList (characters.takeWhile (· ≠ '='))
  match Flag.ofName? name, characters.dropWhile (· ≠ '=') with
  | none, _ => .done .misuse
  | some .output, _ :: value => .ofDraft? (draft.takeOutput (String.ofList value))
  | some _, _ :: _ => .done .misuse
  | some flag, [] => draft.takeFlag flag

/-- Takes flags of one letter each. What stands behind the letter of the output flag is
its value. -/
def takeShort (draft : Draft) : List Char → Progress
  | [] => .next draft
  | letter :: rest =>
      match Flag.ofLetter? letter with
      | none => .done .misuse
      | some .output =>
          match rest with
          | [] => .awaitOutput draft
          | '=' :: value => .ofDraft? (draft.takeOutput (String.ofList value))
          | value => .ofDraft? (draft.takeOutput (String.ofList value))
      | some flag =>
          match draft.takeFlag flag with
          | .next following => following.takeShort rest
          | other => other

def takeWord (draft : Draft) (argument : String) : Progress :=
  match argument.toList with
  | '-' :: '-' :: name => draft.takeLong name
  | '-' :: letter :: letters => draft.takeShort (letter :: letters)
  | _ => .ofDraft? (draft.takeContents argument)

def holdsFlags (argument : String) : Bool :=
  match argument.toList with
  | '-' :: _ :: _ => true
  | _ => false

def readPlain (draft : Draft) : List String → Request
  | [] => draft.finish
  | argument :: rest =>
      match draft.takeContents argument with
      | some following => following.readPlain rest
      | none => .misuse

/-- Reads the words of a command line; `awaiting` says whether the output flag still
lacks its value. -/
def readWords (awaiting : Bool) (draft : Draft) : List String → Request
  | [] => if awaiting then .misuse else draft.finish
  | argument :: rest =>
      if awaiting then
        if holdsFlags argument then .misuse
        else
          match draft.takeOutput argument with
          | some following => following.readWords false rest
          | none => .misuse
      else if argument = "--" then draft.readPlain rest
      else
        match draft.takeWord argument with
        | .next following => following.readWords false rest
        | .awaitOutput following => following.readWords true rest
        | .done request => request

end Draft

def request (arguments : List String) : Request := Draft.empty.readWords false arguments

end WindowScript.CommandLine
