import Workflow.CommandLine

/-!
# Directories in memory

A flat directory of text files that stands for the surroundings of a command: variables are looked
up in a list, files are read and written in the directory, and no program can be started. So a whole
run of the command is a function from a directory to an outcome and a directory.
-/

namespace Workflow

/-- The files of a directory by name, each name once. -/
structure Directory where
  files : List (String × String) := []
deriving DecidableEq, Repr, Inhabited

namespace Directory

def notFound : String := "No such file or directory (os error 2)"

def isDirectory : String := "Is a directory (os error 21)"

def notDirectory : String := "Not a directory (os error 20)"

def get? (d : Directory) (name : String) : Option String :=
  (d.files.find? (·.1 == name)).map (·.2)

/-- Sets the text of a file: in place if it is there, else at the end. -/
def put (d : Directory) (name text : String) : Directory :=
  if d.files.any (·.1 == name) then
    ⟨d.files.map fun f => if f.1 == name then (name, text) else f⟩
  else ⟨d.files ++ [(name, text)]⟩

/-- What a path names. -/
inductive Target where
  /-- A file of the directory, which may be missing. -/
  | file (name : String)
  /-- The directory itself. -/
  | self
  /-- A place below a file of the directory. -/
  | belowFile
  /-- A place in a directory that does not exist. -/
  | nowhere
deriving DecidableEq, Repr, Inhabited

/-- What the parts of a path name. Empty parts and dots are passed over. -/
def target (d : Directory) (path : String) : Target :=
  if path.isEmpty then .nowhere
  else if path.startsWith "/" then .nowhere
  else
    match (Text.splitAt '/' path).filter fun part => !part.isEmpty && part != "." with
    | [] => .self
    | [name] =>
      if !path.endsWith "/" then .file name
      else if (d.get? name).isSome then .belowFile
      else .nowhere
    | name :: _ => if (d.get? name).isSome then .belowFile else .nowhere

def read (d : Directory) (path : String) : Except String String :=
  match d.target path with
  | .file name =>
    match d.get? name with
    | some text => .ok text
    | none => .error notFound
  | .self => .error isDirectory
  | .belowFile => .error notDirectory
  | .nowhere => .error notFound

def write (d : Directory) (path text : String) : Except String Directory :=
  match d.target path with
  | .file name => .ok (d.put name text)
  | .self => .error isDirectory
  | .belowFile => .error notDirectory
  | .nowhere => .error notFound

/-- The surroundings of a command that a directory and variables make. -/
def host (settings : List (String × String)) : Host (StateM Directory) where
  env name := return (settings.find? (·.1 == name)).map (·.2)
  readFile path := return (← get).read path
  writeFile path text := do
    match (← get).write path text with
    | .ok d =>
      set d
      return .ok ()
    | .error reason => return .error reason
  launch _ _ := return .error notFound

end Directory

end Workflow
