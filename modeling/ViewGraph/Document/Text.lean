import ViewGraph.Document
import ViewGraph.Json.Reader
import ViewGraph.Log

/-!
# The text of a template document

A document is read from a text file. Whatever ends a line there counts as a line feed.

* `unifyLineEnds`: a text with line feeds only.
* `Document.ofText`: the data of a text.
* `Document.loadText`: the graph and the root of a document that is read from a file.
-/

namespace ViewGraph

/-- A text in which a carriage return, alone or before a line feed, is a line feed. -/
def unifyLineEnds : List Char → List Char
  | [] => []
  | '\r' :: '\n' :: rest => '\n' :: unifyLineEnds rest
  | '\r' :: rest => '\n' :: unifyLineEnds rest
  | c :: rest => c :: unifyLineEnds rest

/-- Why a text has no data. -/
inductive TextFailure
  /-- It is no JSON text; the fault in words. -/
  | malformed (message : String)
  /-- A whole number has too many digits. -/
  | tooManyDigits
deriving DecidableEq

/-- Why a file has no template. -/
inductive LoadFailure
  | text (e : TextFailure)
  | document (e : LoadError)
deriving DecidableEq

namespace Document

/-- The data of the text of a file. -/
def ofText (text : List Char) : Except TextFailure Value :=
  let text := unifyLineEnds text
  match Json.read text with
  | .ok v => .ok v
  | .error e =>
    if e.fault = .tooManyDigits then .error .tooManyDigits else .error (.malformed (e.message text))

/-- The graph of a document, as an addition to a graph, and its root. -/
def loadInto (g : Graph) (v : Value) : Loading (Graph × Value) := do
  let tree ← load v
  return tree.plant g

/-- The logger of this module. -/
def loaderLogger : String := "core.template.loader"

/-- The graph and the root of a document that is read from a file of this name. -/
def loadText (fileName : String) (text : List Char) : Logged LoadFailure (Graph × Value) := do
  Logged.log .debug loaderLogger ("Loading template from " ++ fileName)
  let v ← Logged.ofExcept ((ofText text).mapError .text)
  Logged.ofExcept ((loadInto .empty v).mapError .document)

end Document

end ViewGraph
