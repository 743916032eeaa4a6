import SvgDiagram.Yaml.Timestamp

/-!
What a plain scalar is, told by its spelling: a null, a truth value, an integer, a real, a timestamp, one
of the two special keys, or else a text.
-/

namespace SvgDiagram
namespace Yaml

inductive Kind where
  | null
  | bool
  | int
  | real
  | timestamp
  | binary
  | text
  | merge
  | equals
  | sequence
  /-- A list of tables with one entry each, which stand for pairs. -/
  | pairs
  | mapping
  | set
  /-- A tag that stands for nothing known. -/
  | unknown
  deriving DecidableEq, Repr

namespace Kind

def nulls : List String := ["", "~", "null", "Null", "NULL"]

def trues : List String := ["yes", "Yes", "YES", "true", "True", "TRUE", "on", "On", "ON"]

def falses : List String := ["no", "No", "NO", "false", "False", "FALSE", "off", "Off", "OFF"]

def dropSign : List Char → List Char
  | c :: cs => if c == '-' || c == '+' then cs else c :: cs
  | [] => []

def isFiller (c : Char) : Bool := c.isDigit || c == '_'

def isHexFiller (c : Char) : Bool :=
  isFiller c || ('a' ≤ c && c ≤ 'f') || ('A' ≤ c && c ≤ 'F')

/-- One or more groups of a colon and a number below sixty, up to the end. -/
def isSixties : List Char → Bool
  | [':', b] => b.isDigit
  | [':', a, b] => '0' ≤ a && a ≤ '5' && b.isDigit
  | ':' :: b :: ':' :: rest => b.isDigit && isSixties (':' :: rest)
  | ':' :: a :: b :: ':' :: rest => '0' ≤ a && a ≤ '5' && b.isDigit && isSixties (':' :: rest)
  | _ => false

def isInt (cs : List Char) : Bool :=
  match dropSign cs with
  | ['0'] => true
  | '0' :: 'b' :: rest => !rest.isEmpty && rest.all fun c => c == '0' || c == '1' || c == '_'
  | '0' :: 'x' :: rest => !rest.isEmpty && rest.all isHexFiller
  | '0' :: rest => rest.all fun c => ('0' ≤ c && c ≤ '7') || c == '_'
  | c :: rest =>
    let after := rest.dropWhile isFiller
    c.isDigit && (after.isEmpty || isSixties after)
  | [] => false

/-- The exponent of a real needs a sign. -/
def isExponent : List Char → Bool
  | [] => true
  | e :: sign :: digits =>
    (e == 'e' || e == 'E') && (sign == '-' || sign == '+') && !digits.isEmpty &&
      digits.all Char.isDigit
  | _ => false

def isFraction : List Char → Bool
  | '.' :: rest => isExponent (rest.dropWhile isFiller)
  | _ => false

/-- Groups of sixty, then a point and digits. -/
def isSixtiesReal (cs : List Char) : Bool :=
  let groups := cs.takeWhile (· != '.')
  match cs.dropWhile (· != '.') with
  | _ :: digits => isSixties groups && digits.all isFiller
  | [] => false

def isReal (cs : List Char) : Bool :=
  match dropSign cs with
  | '.' :: rest =>
    ["inf", "Inf", "INF"].contains (String.ofList rest) ||
      (cs.head? == some '.' &&
        (["nan", "NaN", "NAN"].contains (String.ofList rest) ||
          (rest.head?.any Char.isDigit && isExponent (rest.dropWhile isFiller))))
  | c :: rest =>
    let after := rest.dropWhile isFiller
    c.isDigit && (isFraction after || isSixtiesReal after)
  | [] => false

def ofPlain (text : String) : Kind :=
  if nulls.contains text then .null
  else if trues.contains text || falses.contains text then .bool
  else if isReal text.toList then .real
  else if isInt text.toList then .int
  else if Timestamp.isTimestamp text.toList then .timestamp
  else if text == "<<" then .merge
  else if text == "=" then .equals
  else .text

def tagBase : String := "tag:yaml.org,2002:"

def ofTag (tag : String) : Kind :=
  if tag == tagBase ++ "null" then .null
  else if tag == tagBase ++ "bool" then .bool
  else if tag == tagBase ++ "int" then .int
  else if tag == tagBase ++ "float" then .real
  else if tag == tagBase ++ "timestamp" then .timestamp
  else if tag == tagBase ++ "binary" then .binary
  else if tag == tagBase ++ "str" then .text
  else if tag == tagBase ++ "merge" then .merge
  else if tag == tagBase ++ "value" then .equals
  else if tag == tagBase ++ "seq" then .sequence
  else if tag == tagBase ++ "omap" || tag == tagBase ++ "pairs" then .pairs
  else if tag == tagBase ++ "map" then .mapping
  else if tag == tagBase ++ "set" then .set
  else .unknown

end Kind
end Yaml
end SvgDiagram
