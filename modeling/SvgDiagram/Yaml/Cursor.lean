/-!
A position in a document: what is left of the text, and where that is.
-/

namespace SvgDiagram
namespace Yaml

def isBreak (c : Char) : Bool :=
  c == '\n' || c == '\r' || c == '\x85' || c == '\u2028' || c == '\u2029'

def endsLine : Option Char → Bool
  | none => true
  | some c => isBreak c

/-- Whether a space stands here, or the line ends. -/
def endsWord : Option Char → Bool
  | some ' ' => true
  | c => endsLine c

/-- Whether a space or a tab stands here, or the line ends. -/
def endsToken : Option Char → Bool
  | some '\t' => true
  | c => endsWord c

/-- The mark that may open a text. It takes no place on its line. -/
def byteOrderMark : Char := '\ufeff'

def isAllowed (c : Char) : Bool :=
  let n := c.toNat
  n == 0x9 || n == 0xA || n == 0xD || (0x20 ≤ n && n ≤ 0x7E) || n == 0x85 ||
    (0xA0 ≤ n && n ≤ 0xD7FF) || (0xE000 ≤ n && n ≤ 0xFFFD) || 0x10000 ≤ n

structure Cursor where
  rest : List Char
  index : Nat
  line : Nat
  column : Nat

namespace Cursor

def start (text : List Char) : Cursor := ⟨text, 0, 0, 0⟩

def peek (c : Cursor) : Option Char := c.rest.head?

def peekAt (c : Cursor) (k : Nat) : Option Char := c.rest[k]?

/-- The cursor after one character. A carriage return ends a line unless a line feed follows. -/
def next (c : Cursor) : Cursor :=
  match c.rest with
  | [] => c
  | ch :: rest =>
    if isBreak ch && !(ch == '\r' && rest.head? == some '\n') then ⟨rest, c.index + 1, c.line + 1, 0⟩
    else if ch == byteOrderMark then ⟨rest, c.index + 1, c.line, c.column⟩
    else ⟨rest, c.index + 1, c.line, c.column + 1⟩

def forward (c : Cursor) : Nat → Cursor
  | 0 => c
  | n + 1 => c.next.forward n

def run (p : Char → Bool) (c : Cursor) : List Char := c.rest.takeWhile p

def skip (p : Char → Bool) (c : Cursor) : Cursor := c.forward (c.run p).length

def skipSpaces (c : Cursor) : Cursor := c.skip (· == ' ')

/-- The line break that stands here, as it counts in a scalar, and the cursor after it. -/
def takeBreak (c : Cursor) : List Char × Cursor :=
  match c.rest with
  | '\r' :: '\n' :: _ => (['\n'], c.forward 2)
  | ch :: _ =>
    if ch == '\u2028' || ch == '\u2029' then ([ch], c.next)
    else if isBreak ch then (['\n'], c.next)
    else ([], c)
  | [] => ([], c)

def atSeparator (c : Cursor) : Bool :=
  match c.rest with
  | '-' :: '-' :: '-' :: rest => endsToken rest.head?
  | '.' :: '.' :: '.' :: rest => endsToken rest.head?
  | _ => false

def skipComment (c : Cursor) : Cursor :=
  if c.peek == some '#' then c.skip (fun ch => !isBreak ch) else c

end Cursor
end Yaml
end SvgDiagram
