import FormulaSheet.Text.Quoted
/-!
A tree of files as a value. Relative paths begin where the tree begins, absolute ones at a root of
their own; empty and single-dot parts do not count, and two dots lead to the directory above. Files
hold bytes. Nothing here knows of links, rights or a file system that changes on its own.
-/

namespace FormulaSheet

/-- A path as its parts. -/
structure Path where
  isAbsolute : Bool
  parts : List String
deriving DecidableEq, Repr

namespace Path

def ofText (text : String) : Path :=
  ⟨text.toList.head? = some '/', (text.splitOn "/").filter fun part => part ≠ "" ∧ part ≠ "."⟩

/-- Whether the parts lead to a directory that needs no entry: the root, where relative paths begin,
and what is above it. -/
def isBase (parts : List String) : Bool := parts = ["/"] || parts.all (· = "..")

/-- The parts of the directory above. -/
def above (parts : List String) : List String :=
  if parts = ["/"] then parts else if isBase parts then parts ++ [".."] else parts.dropLast

/-- Where the path begins. -/
def base (p : Path) : List String := if p.isAbsolute then ["/"] else []

/-- The parts with two dots taken out, each with the part before it. -/
def plain (p : Path) : List String :=
  p.parts.foldl (fun made part => if part = ".." then above made else made ++ [part]) p.base

def child (p : Path) (name : String) : Path := { p with parts := p.parts ++ [name] }

def text (p : Path) : String :=
  let inner := "/".intercalate p.parts
  if p.isAbsolute then "/" ++ inner else if p.parts.isEmpty then "." else inner

end Path

inductive FileNode
  | directory
  | file (bytes : List UInt8)
deriving DecidableEq

/-- Nodes by the parts of their paths. -/
structure Files where
  nodes : List (List String × FileNode) := []

inductive FileError
  | notFound (path : Path)
  | alreadyExists (path : Path)
  | notADirectory (path : Path)
  | isADirectory (path : Path)
deriving DecidableEq, Repr

def FileError.message : FileError → String
  | notFound p => "[Errno 2] No such file or directory: " ++ Text.quoted p.text
  | alreadyExists p => "[Errno 17] File exists: " ++ Text.quoted p.text
  | notADirectory p => "[Errno 20] Not a directory: " ++ Text.quoted p.text
  | isADirectory p => "[Errno 21] Is a directory: " ++ Text.quoted p.text

namespace Files

/-- The node under exactly these parts. -/
def node? (fs : Files) (parts : List String) : Option FileNode :=
  if Path.isBase parts then some .directory else fs.nodes.lookup parts

/-- Where a path leads. -/
inductive Target
  | found (parts : List String) (node : FileNode)
  /-- Nothing is there, but its directory is. -/
  | missing (parts : List String)
  /-- A directory on the way is missing. -/
  | noDirectory
  /-- Something on the way is a file. -/
  | throughFile

/-- Follows parts from a directory. -/
def follow (fs : Files) (directory : List String) : List String → Target
  | [] => .found directory .directory
  | ".." :: rest => fs.follow (Path.above directory) rest
  | part :: rest =>
    let here := directory ++ [part]
    match fs.node? here, rest with
    | some .directory, rest => fs.follow here rest
    | some (.file bytes), [] => .found here (.file bytes)
    | some (.file _), _ => .throughFile
    | none, [] => .missing here
    | none, _ => .noDirectory

theorem follow_nil (fs : Files) (d : List String) : fs.follow d [] = .found d .directory := rfl

theorem follow_up (fs : Files) (d rest : List String) :
    fs.follow d (".." :: rest) = fs.follow (Path.above d) rest := rfl

theorem follow_cons (fs : Files) (d rest : List String) {part : String} (plain : part ≠ "..") :
    fs.follow d (part :: rest) =
      match fs.node? (d ++ [part]), rest with
      | some .directory, rest => fs.follow (d ++ [part]) rest
      | some (.file bytes), [] => .found (d ++ [part]) (.file bytes)
      | some (.file _), _ => .throughFile
      | none, [] => .missing (d ++ [part])
      | none, _ => .noDirectory := by
  cases here : fs.node? (d ++ [part]) with
  | none =>
    cases rest with
    | nil => exact follow.eq_6 _ _ _ plain here
    | cons => exact follow.eq_7 _ _ _ _ plain here (by simp)
  | some node =>
    cases node with
    | directory => exact follow.eq_3 _ _ _ _ plain here
    | file bytes =>
      cases rest with
      | nil => exact follow.eq_4 _ _ _ _ plain here
      | cons => exact follow.eq_5 _ _ _ _ plain _ here (by simp)

def target (fs : Files) (p : Path) : Target := fs.follow p.base p.parts

/-- The node that a path leads to. -/
def find? (fs : Files) (p : Path) : Option FileNode :=
  match fs.target p with
  | .found _ node => some node
  | _ => none

def read (fs : Files) (p : Path) : Except FileError (List UInt8) :=
  match fs.target p with
  | .found _ (.file bytes) => .ok bytes
  | .found _ .directory => .error (.isADirectory p)
  | .throughFile => .error (.notADirectory p)
  | _ => .error (.notFound p)

def setNode (fs : Files) (parts : List String) (node : FileNode) : Files :=
  ⟨go fs.nodes⟩
where
  go : List (List String × FileNode) → List (List String × FileNode)
    | [] => [(parts, node)]
    | e :: rest => if e.1 = parts then (parts, node) :: rest else e :: go rest

/-- Makes the directories along the parts, as far as they are missing. -/
def makeAlong (fs : Files) (made : List String) : List String → Files
  | [] => fs
  | part :: rest =>
    let here := made ++ [part]
    let fs := if (fs.node? here).isSome then fs else fs.setNode here .directory
    fs.makeAlong here rest

/-- Makes a directory together with those above it. That it is there already is no error. -/
def makeDirectory (fs : Files) (p : Path) : Except FileError Files :=
  match fs.target p with
  | .found _ .directory => .ok fs
  | .found _ (.file _) => .error (.alreadyExists p)
  | .throughFile => .error (.notADirectory p)
  | _ => .ok (fs.makeAlong [] p.plain)

/-- Appends bytes to a file, which comes into being if it is missing. -/
def append (fs : Files) (p : Path) (bytes : List UInt8) : Except FileError Files :=
  match fs.target p with
  | .found parts (.file old) => .ok (fs.setNode parts (.file (old ++ bytes)))
  | .found _ .directory => .error (.isADirectory p)
  | .missing parts => .ok (fs.setNode parts (.file bytes))
  | .noDirectory => .error (.notFound p)
  | .throughFile => .error (.notADirectory p)

/-- Gives a file new contents; the directories above it are made. -/
def write (fs : Files) (p : Path) (bytes : List UInt8) : Files :=
  (fs.makeAlong [] p.plain.dropLast).setNode p.plain (.file bytes)

end Files

end FormulaSheet
