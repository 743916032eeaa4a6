import SvgDiagram.Access.Wildcard
import SvgDiagram.Files.Path

/-!
Patterns of directories. A pattern without `*` is a directory and admits everything below it. In a
pattern with `*`, a component `**` stands for any number of components, and everything below a directory
that the whole pattern matches is admitted too.
-/

namespace SvgDiagram
namespace Access

def isWildcard (part : String) : Bool := part.toList.any fun c => c == '*' || c == '?'

/-- Whether a component of a pattern, other than `**`, fits a component of a directory. -/
def fits (accepts : String → String → Bool) (part component : String) : Bool :=
  if isWildcard part then accepts part component else component == part

/-- Whether a pattern matches some leading components of a directory. -/
def matchParts (accepts : String → String → Bool) : List String → List String → Bool
  | [], _ => true
  | part :: rest, directory =>
    if part == "**" then (suffixes directory).any (matchParts accepts rest)
    else
      match directory with
      | [] => false
      | component :: below => fits accepts part component && matchParts accepts rest below

def matchFrom (accepts : String → String → Bool) (directory pattern : List String) (i j : Nat) :
    Bool :=
  matchParts accepts (pattern.drop j) (directory.drop i)

/-- Whether a pattern admits a file, with a rule for the wildcards of one component. A pattern without `*`
is resolved from the working directory. -/
def admitsBy (accepts : String → String → Bool) (directory : Files.Place) (file : Files.Path)
    (pattern : String) : Except Fault Bool := do
  let holder := file.parent.components
  let path := Files.Path.ofString pattern
  if pattern.toList.contains '*' then return matchParts accepts path.components holder
  else
    let place ← path.resolve directory
    return (Files.Path.ofPlace place).components.isPrefixOf holder

def admits (directory : Files.Place) (file : Files.Path) (pattern : String) : Except Fault Bool :=
  admitsBy accepts directory file pattern

end Access
end SvgDiagram
