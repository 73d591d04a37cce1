import Workflow.Json.Basic

/-!
# Support declarations

Graphs rely on a few global declarations, which are emitted once for a program.
-/

namespace Workflow

inductive SupportKind where
  | attribute
  | extensions
deriving DecidableEq, Repr, Inhabited

def SupportKind.word : SupportKind → String
  | .attribute => "attribute"
  | .extensions => "extensions"

structure SupportDecl where
  name : String
  kind : SupportKind
  members : List String
deriving DecidableEq, Repr, Inhabited

namespace SupportDecl

def toJson (d : SupportDecl) : Json :=
  .obj [("name", .str d.name), ("kind", .str d.kind.word), ("members", .strings d.members)]

def all : List SupportDecl :=
  [{ name := "ScheduledAttribute"
     kind := .attribute
     members := ["string NodeType", "string[] Directions", "string Result"] },
   { name := "LocationAccessors"
     kind := .extensions
     members :=
       ["T Get<T>(this Location<T> location, ActivityContext context)",
         "T Set<T>(this Location<T> location, ActivityContext context, T value)"] }]

end SupportDecl

end Workflow
