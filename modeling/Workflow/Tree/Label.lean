import Workflow.Text.Blank
import Workflow.Json.Basic

/-!
# Statement labels

The labels that name statements in a parse tree, with the members each one reads; `?` marks a member
that may be absent.
-/

namespace Workflow

def languageVersion : String := "1.0.0"

/-- What is known about a statement label. -/
structure Label where
  label : String
  category : String
  /-- The members, separated by spaces. -/
  members : String
  description : String
deriving DecidableEq, Repr

namespace Label

def all : List Label :=
  [ ⟨"sequence", "control", "variables?", "Runs items in order"⟩,
    ⟨"var", "control", "type? init?", "Declares a workflow variable on the enclosing scope"⟩,
    ⟨"code", "control", "", "Embedded statements"⟩,
    ⟨"empty", "control", "", "Does nothing"⟩,
    ⟨"if", "control", "condition then else?", "Two-way branch"⟩,
    ⟨"while", "control", "condition body", "Loop testing before each iteration"⟩,
    ⟨"do-while", "control", "condition body", "Loop testing after each iteration"⟩,
    ⟨"switch", "control", "value default?", "Multi-way branch over case items"⟩,
    ⟨"foreach", "control", "type? values body", "Iterates a collection"⟩,
    ⟨"parallel-foreach", "concurrency", "type? values body until?",
      "Iterates a collection concurrently"⟩,
    ⟨"parallel", "concurrency", "until?", "Runs item branches concurrently"⟩,
    ⟨"pick", "concurrency", "", "Runs the branch whose trigger completes first"⟩,
    ⟨"delay", "timing", "duration", "Waits for a duration"⟩,
    ⟨"throw", "errors", "exception?", "Throws, or rethrows inside a catch"⟩,
    ⟨"try", "errors", "body finally?", "Handles exceptions with catch items"⟩,
    ⟨"terminate", "errors", "reason? exception?", "Ends the workflow instance"⟩,
    ⟨"statemachine", "graphs", "start? variables?", "State machine over state items"⟩,
    ⟨"flow", "graphs", "variables?", "Flowchart over flow-step, flow-if and flow-switch items"⟩,
    ⟨"transacted", "scopes", "body timeout?", "Runs the body in a transaction"⟩,
    ⟨"cancellable", "scopes", "body handler?", "Runs the body with a cancellation handler"⟩,
    ⟨"compensable", "scopes", "body compensation? confirmation? cancellation?",
      "Runs the body with compensation logic"⟩,
    ⟨"confirm", "scopes", "target?", "Confirms a compensable activity"⟩,
    ⟨"compensate", "scopes", "target?", "Compensates a compensable activity"⟩,
    ⟨"persist", "scopes", "", "Persists the workflow instance"⟩,
    ⟨"nopersist", "scopes", "body", "Runs the body without persistence points"⟩,
    ⟨"receive", "services", "contract operation content? correlates-with? create-instance?",
      "Receives a request message"⟩,
    ⟨"send", "services", "contract operation content? correlates-with? endpoint?",
      "Sends a request message"⟩,
    ⟨"send-reply", "services", "request? content?", "Replies to a received request"⟩,
    ⟨"receive-reply", "services", "request? content?", "Receives the reply to a sent request"⟩,
    ⟨"content-correlation", "services", "handle",
      "Initializes a correlation handle from parameter items"⟩,
    ⟨"transacted-receive", "services", "request body variables?",
      "Receives a request inside a transaction"⟩ ]

def find? (label : String) : Option Label := all.find? (·.label == label)

def sorted : List Label := all.mergeSort fun a b => a.label ≤ b.label

/-- The JSON form of a label, with its members as a list. -/
def toJson (l : Label) : Json :=
  .obj [("label", .str l.label), ("category", .str l.category),
    ("members", .strings (Text.words l.members)), ("description", .str l.description)]

end Label

end Workflow
