import SvgDiagram.Fault
import SvgDiagram.Value.Basic

/-!
File paths as text. A path is a root and the names after it; names that say nothing are dropped when a
path is read, and steps upwards are kept until the path is resolved.
-/

namespace SvgDiagram

namespace Files

/-- What a path starts from. Exactly two leading slashes are a root of their own. -/
inductive Root where
  | relative
  | slash
  | doubleSlash
  deriving DecidableEq, Repr

def Root.text : Root → String
  | .relative => ""
  | .slash => "/"
  | .doubleSlash => "//"

structure Path where
  root : Root
  names : List String
  deriving DecidableEq, Repr

/-- A resolved path: the names that lead to it from the root. -/
abbrev Place := List String

def betweenSlashes (s : String) : List String := (s.toList.splitOn '/').map String.ofList

namespace Path

def rootOf (s : String) : Root :=
  match (s.toList.takeWhile (· == '/')).length with
  | 0 => .relative
  | 2 => .doubleSlash
  | _ => .slash

def ofString (s : String) : Path :=
  ⟨rootOf s, (betweenSlashes s).filter fun n => n != "" && n != "."⟩

/-- A path must be given as a text. -/
def ofValue : Value → Except Fault Path
  | .string s => .ok (ofString s)
  | _ => .error .wrongShape

def isAbsolute (p : Path) : Bool := p.root != .relative

def text (p : Path) : String :=
  if p.root == .relative && p.names.isEmpty then "."
  else p.root.text ++ String.intercalate "/" p.names

/-- The names of the path, the root counting as the first of them. -/
def components (p : Path) : List String :=
  if p.isAbsolute then p.root.text :: p.names else p.names

/-- The directory that holds the path. A root holds itself. -/
def parent (p : Path) : Path := ⟨p.root, p.names.dropLast⟩

/-- One step from a place. A step upwards from the root stays there. -/
def step (place : Place) (name : String) : Place :=
  if name == ".." then place.dropLast else place ++ [name]

/-- Whether a name has the character that no file name can have. -/
def hasNul (p : Path) : Bool := p.names.any fun n => n.toList.contains (Char.ofNat 0)

def resolve (directory : Place) (p : Path) : Except Fault Place :=
  if p.hasNul then .error .nulInPath
  else .ok (p.names.foldl step (if p.isAbsolute then [] else directory))

def ofPlace (place : Place) : Path := ⟨.slash, place⟩

end Path

structure Host where
  directory : Place
  home : String
  users : List (String × String)

/-- The path with a leading `~`, or `~user`, replaced by a home directory. -/
def Host.expandHome (host : Host) (p : Path) : Except Fault Path :=
  match p.root, p.names with
  | .relative, first :: rest =>
    match first.toList with
    | '~' :: user =>
      let known := if user.isEmpty then some host.home else host.users.lookup (String.ofList user)
      match known with
      | some home =>
        let base := Path.ofString home
        .ok ⟨base.root, base.names ++ rest⟩
      | none => .error .homeUnknown
    | _ => .ok p
  | _, _ => .ok p

def Host.settingsPath (host : Host) : Path :=
  let base := Path.ofString host.home
  ⟨base.root, base.names ++ [".config", "mcp-svg-animator", "config.yaml"]⟩

end Files
end SvgDiagram
