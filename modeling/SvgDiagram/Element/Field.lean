import SvgDiagram.Value.Shape

/-!
Fields of an element. A field has one or two spellings, and a table gives it under either of them. What
a table holds besides its fields is ignored. A value is converted to what its field needs, where it can be.
-/

namespace SvgDiagram
namespace Field

/-- The value of a field under the first of its spellings that the table has. -/
def find? (t : Table) : List String → Option Value
  | [] => none
  | name :: rest =>
    match Table.field? t name with
    | some v => some v
    | none => find? t rest

/-- Data counts as the text that it encodes. -/
def asText? : Value → Option String
  | .string s => some s
  | .bytes data => String.fromUTF8? ⟨data.toArray⟩
  | _ => none

def asReal? : Value → Option Float
  | .bool b => some (if b then 1.0 else 0.0)
  | .int n => (Value.intToFloat n).toOption
  | .float x => some x
  | .string s => Number.readPlainFloat? s
  | .bytes data => (Value.asciiText? data).bind Number.readPlainFloat?
  | _ => none

def trueWords : List String := ["1", "on", "t", "true", "y", "yes"]

def falseWords : List String := ["0", "off", "f", "false", "n", "no"]

/-- The truth value of a word, whatever the case of its letters. -/
def flagOfWord? (s : String) : Option Bool :=
  let word := String.ofList (s.toList.map Char.toLower)
  if trueWords.contains word then some true
  else if falseWords.contains word then some false
  else none

def asFlag? : Value → Option Bool
  | .bool b => some b
  | .string s => flagOfWord? s
  | .bytes data => (Value.asciiText? data).bind flagOfWord?
  | v =>
    match v.integer? with
    | some 0 => some false
    | some 1 => some true
    | _ => none

/-- The items of a list, a pair or a set. -/
def asItems? : Value → Option (List Value)
  | .list vs | .set vs => some vs
  | .pair a b => some [a, b]
  | _ => none

def asTable? : Value → Option Table
  | .table t => some t
  | _ => none

section
variable {α : Type} (convert : Value → Option α) (t : Table) (names : List String)

def accepted : Option α → Except Fault α
  | some a => .ok a
  | none => .error .invalidField

/-- A field that has a default. -/
def getOr (default : α) : Except Fault α :=
  match find? t names with
  | none => .ok default
  | some v => accepted (convert v)

/-- A field that must be given. -/
def need : Except Fault α := accepted ((find? t names).bind convert)

/-- A field that may be left out, or be null. -/
def get? : Except Fault (Option α) :=
  match find? t names with
  | none | some .null => .ok none
  | some v => accepted ((convert v).map some)

end

def textOr : Table → List String → String → Except Fault String := getOr asText?

def text : Table → List String → Except Fault String := need asText?

def text? : Table → List String → Except Fault (Option String) := get? asText?

/-- A text that counts only if it is not empty. -/
def words? (t : Table) (names : List String) : Except Fault (Option String) := do
  return (← text? t names).filter fun s => !s.isEmpty

def realOr : Table → List String → Float → Except Fault Float := getOr asReal?

def real : Table → List String → Except Fault Float := need asReal?

def real? : Table → List String → Except Fault (Option Float) := get? asReal?

def flagOr : Table → List String → Bool → Except Fault Bool := getOr asFlag?

/-- A list of tables, each read in its turn; empty if left out. -/
def tables {α : Type} (t : Table) (names : List String) (read : Table → Except Fault α) :
    Except Fault (List α) := do
  (← getOr asItems? t names []).mapM fun v => do read (← accepted (asTable? v))

end Field
end SvgDiagram
