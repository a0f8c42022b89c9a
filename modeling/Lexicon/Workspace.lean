import Lexicon.Report.Listing

/-!
# Workspaces

A workspace is a directory whose files are held in memory.  Paths are looked
up component by component, each within the directory reached so far.  Of what
lies outside the workspace only the directories on the way to it are known.
-/

namespace Lexicon

/-- The components of a path inside a workspace, outermost first. -/
abbrev InnerPath := List String

/-- Files and directories in memory.  Of two files with one path the first counts. -/
structure Workspace where
  files : List (InnerPath × Bytes)
  directories : List InnerPath

/-- Where a path leads. -/
inductive Place
  | inside (path : InnerPath)
  /-- A directory that contains the workspace. -/
  | outside
deriving DecidableEq

namespace Workspace

/-- The workspace without files. -/
def empty : Workspace :=
  ⟨[], []⟩

/-- The parts of a path between slashes.  They are empty next to a further slash or an end. -/
def components (path : String) : List String :=
  (path.toList.splitOnP (· == '/')).map String.ofList

/-- The components that name something. -/
def innerPath (path : String) : InnerPath :=
  (components path).filter fun component => component != "" && component != "."

/-- Write a file, along with the directories above it. -/
def addFile (workspace : Workspace) (path : String) (contents : Bytes) : Workspace :=
  { workspace with files := (innerPath path, contents) :: workspace.files }

/-- Make a directory, along with those above it. -/
def addDirectory (workspace : Workspace) (path : String) : Workspace :=
  { workspace with directories := innerPath path :: workspace.directories }

/-- The contents of the file with a path. -/
def contents? (workspace : Workspace) (path : InnerPath) : Option Bytes :=
  workspace.files.lookup path

/-- There is a directory with the path. -/
def hasDirectory (workspace : Workspace) (path : InnerPath) : Bool :=
  path.isEmpty ||
    workspace.directories.any (fun directory => path.isPrefixOf directory) ||
    workspace.files.any fun file => path.isPrefixOf file.1 && path != file.1

/-- The place is a directory. -/
def isDirectory (workspace : Workspace) : Place → Bool
  | .inside path => workspace.hasDirectory path
  | .outside => true

/-- The greatest number of bytes in a name. -/
def maxNameLength : Nat := 255

/-- The greatest number of bytes in a path. -/
def maxPathLength : Nat := 4095

/-- The place that a name leads to from a directory. -/
def child (workspace : Workspace) (place : Place) (name : String) : Except ReadError Place :=
  if maxNameLength < (Utf8.ofString name).length then .error .nameTooLong
  else match place with
    | .outside => .error .missing
    | .inside path =>
      let inner := path ++ [name]
      if workspace.hasDirectory inner || (workspace.contents? inner).isSome then .ok (.inside inner)
      else .error .missing

/-- The directory above a directory. -/
def parent : Place → Place
  | .outside => .outside
  | .inside [] => .outside
  | .inside (first :: rest) => .inside (first :: rest).dropLast

/-- The place that a component leads to.  It has to be looked up in a directory. -/
def follow (workspace : Workspace) (place : Place) (component : String) :
    Except ReadError Place :=
  if !workspace.isDirectory place then .error .notDirectory
  else if component == "" || component == "." then .ok place
  else if component == ".." then .ok (parent place)
  else workspace.child place component

/-- The place that components lead to one after the other. -/
def locate (workspace : Workspace) : Place → List String → Except ReadError Place
  | place, [] => .ok place
  | place, component :: rest =>
      match workspace.follow place component with
      | .error error => .error error
      | .ok next => workspace.locate next rest

/-- The place that a path leads to.  A path that begins with a slash starts outside. -/
def resolve (workspace : Workspace) (path : String) : Except ReadError Place :=
  if path.toList.contains '\x00' then .error .nulInPath
  else if maxPathLength < (Utf8.ofString path).length then .error .nameTooLong
  else match path.toList with
    | [] => .error .missing
    | '/' :: _ => workspace.locate .outside (components path)
    | _ => workspace.locate (.inside []) (components path)

/-- The contents of the file that a path leads to. -/
def read (workspace : Workspace) (path : String) : Except ReadError Bytes :=
  match workspace.resolve path with
  | .error error => .error error
  | .ok .outside => .error .isDirectory
  | .ok (.inside inner) =>
      match workspace.contents? inner with
      | some contents => .ok contents
      | none => .error .isDirectory

end Workspace

end Lexicon
