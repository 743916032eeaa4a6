import SvgDiagram.Drawing.Listing
import SvgDiagram.Tool.Call

/-!
The server: it opens its transport, answers requests in order until there are no more, and closes the
transport whatever happened. A request that fails gets its fault as the reply.
-/

namespace SvgDiagram
namespace Server

def name : String := "mcp-svg-animator"

inductive Request where
  | list
  | call (name : String) (arguments : Value)

inductive Reply where
  | tools (tools : List Tool.Description)
  | tool (reply : Tool.Reply)

inductive Event where
  | opened
  | ran (name : String)
  | closed

/-- What a run of the server leaves behind. `ended` is the fault that ended it, if one did. -/
structure Run where
  replies : List (Except Fault Reply)
  events : List Event
  ended : Option Fault

/-- The request that a value spells. One without a method lists the tools. -/
def Request.ofValue (v : Value) : Except Fault Request := do
  let method := (← v.part? "method").getD (.string "list")
  if method.isText "list" then return .list
  let name ← v.part "name"
  return .call name.text ((← v.part? "arguments").getD (.table []))

def Reply.lines : Reply → List String
  | .tools offered => offered.map fun t => t.name
  | .tool (.text s) => [s]
  | .tool (.drawing d) => d.listing

def answer : Request → Action Reply
  | .list => return .tools Tool.catalogue
  | .call name arguments => do return .tool (← Tool.call name arguments)

def answerAll (w : Workspace) : List Request → List (Except Fault Reply) × Workspace
  | [] => ([], w)
  | r :: rest =>
    let (reply, w) := Workspace.outcome (answer r) w
    let (replies, w) := answerAll w rest
    (reply :: replies, w)

/-- Serves requests over a transport that may break after the last of them. -/
def serve (requests : List Request) (breaks : Bool) (w : Workspace) : Run × Workspace :=
  let (replies, w) := answerAll w requests
  ({ replies, events := [.opened, .ran name, .closed],
     ended := if breaks then some .transportFailed else none }, w)

end Server
end SvgDiagram
