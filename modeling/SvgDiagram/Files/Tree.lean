import SvgDiagram.Files.Path

/-!
A tree of files. Every place is a directory, a file, or nothing; the root is always a directory. There
are no links, so a step upwards undoes a step downwards.
-/

namespace SvgDiagram
namespace Files

inductive Entry (α : Type) where
  | directory
  | file (content : α)

structure Tree (α : Type) where
  entries : List (Place × Entry α)

namespace Tree

variable {α : Type}

def entry? (t : Tree α) (place : Place) : Option (Entry α) :=
  if place.isEmpty then some .directory else t.entries.lookup place

def isDirectory (t : Tree α) (place : Place) : Bool :=
  match t.entry? place with
  | some .directory => true
  | _ => false

def put (t : Tree α) (place : Place) (e : Entry α) : Tree α :=
  ⟨(place, e) :: t.entries.filter fun x => x.1 != place⟩

def remove (t : Tree α) (place : Place) : Tree α := ⟨t.entries.filter fun x => x.1 != place⟩

def delete (t : Tree α) (place : Place) : Except Fault (Tree α) :=
  match t.entry? place with
  | some (.file _) => .ok (t.remove place)
  | some .directory => .error .isDirectory
  | none => .ok t

/-- A directory and the directories above it, and nothing else. -/
def withDirectory (place : Place) : Tree α :=
  ⟨(List.range place.length).map fun n => (place.take (n + 1), .directory)⟩

def needDirectory (t : Tree α) (place : Place) : Except Fault Unit :=
  match t.entry? place with
  | some .directory => .ok ()
  | some (.file _) => .error .notDirectory
  | none => .error .fileNotFound

/-- The place that names lead to. What a name is looked up in must be a directory. -/
def walk (t : Tree α) (place : Place) : List String → Except Fault Place
  | [] => .ok place
  | name :: rest => do
    t.needDirectory place
    if name == "" || name == "." then t.walk place rest else t.walk (Path.step place name) rest

def find (t : Tree α) (directory : Place) (p : Path) : Except Fault Place :=
  if p.hasNul then .error .nulInPath
  else t.walk (if p.isAbsolute then [] else directory) p.names

def contains (t : Tree α) (directory : Place) (p : Path) : Bool :=
  match t.find directory p with
  | .ok place => (t.entry? place).isSome
  | .error _ => false

def read (t : Tree α) (directory : Place) (p : Path) : Except Fault α := do
  match t.entry? (← t.find directory p) with
  | some (.file content) => return content
  | some .directory => throw .isDirectory
  | none => throw .fileNotFound

/-- Puts a file at a place, whose directory must exist. -/
def write (t : Tree α) (place : Place) (content : α) : Except Fault (Tree α) := do
  match t.entry? place with
  | some .directory => throw .isDirectory
  | some (.file _) => return t.put place (.file content)
  | none =>
    t.needDirectory place.dropLast
    return t.put place (.file content)

def makeDirectory (t : Tree α) (place : Place) (names : List String) : Except Fault (Tree α) := do
  let target ← t.walk place names
  match t.entry? target with
  | some _ => throw .alreadyExists
  | none =>
    t.needDirectory target.dropLast
    return t.put target .directory

def leadsToDirectory (t : Tree α) (place : Place) (names : List String) : Bool :=
  match t.walk place names with
  | .ok target => t.isDirectory target
  | .error _ => false

def ensureOne (t : Tree α) (place : Place) (names : List String) : Tree α × Except Fault Unit :=
  match t.makeDirectory place names with
  | .ok t => (t, .ok ())
  | .error f => if t.leadsToDirectory place names then (t, .ok ()) else (t, .error f)

/-- Makes a directory and those above it that are missing. The names are given last one first. What has
been made stays when a later one fails. -/
def ensureAll (t : Tree α) (place : Place) : List String → Tree α × Except Fault Unit
  | [] => t.ensureOne place []
  | name :: above =>
    let names := (name :: above).reverse
    match t.makeDirectory place names with
    | .ok t => (t, .ok ())
    | .error .fileNotFound =>
      match t.ensureAll place above with
      | (t, .ok ()) => t.ensureOne place names
      | (t, .error f) => (t, .error f)
    | .error _ => t.ensureOne place names

def ensure (t : Tree α) (directory : Place) (p : Path) : Tree α × Except Fault Unit :=
  if p.hasNul then (t, .error .nulInPath)
  else t.ensureAll (if p.isAbsolute then [] else directory) p.names.reverse

def joined (path name : String) : String :=
  if path.toList.getLast? == some '/' then path ++ name else path ++ "/" ++ name

/-- Where a file of some name comes to be when it is moved to a path, taken to the letter: a slash at its
end asks for a directory. In a directory the file keeps its name, and takes no place that is taken. -/
def destination (t : Tree α) (directory : Place) (path name : String) : Except Fault Place := do
  if path.isEmpty then throw .fileNotFound
  if path.toList.contains (Char.ofNat 0) then throw .nulInPath
  let place ← t.walk (if path.toList.head? == some '/' then [] else directory) (betweenSlashes path)
  if t.isDirectory place then
    let inside := place ++ [name]
    if (t.entry? inside).isSome then throw (.destinationTaken (joined path name))
    return inside
  return place

end Tree
end Files
end SvgDiagram
