import ViewGraph.Log
import ViewGraph.Normalization.Failure
import ViewGraph.Record.Check
import ViewGraph.Value.Typed

/-!
# Attributes

Each attribute of an element becomes one record. The kind of its value decides the kind of the
record: a typed value has a kind of its own, then come texts, numbers and truth values, and whatever
is left is kept as JSON data.

* `propId`: the id of an attribute, made of its instance and its name.
* `classify`: the kind of the record of a value, with its content.
* `createProp`: the record.
-/

namespace ViewGraph

/-- The id of an attribute. -/
def propId (instanceId name : String) : String := instanceId ++ ":" ++ name

/-- The kind of the record of a value, with its content. -/
def classify : Value → Except Failure (PropKind × Value)
  | .wrapped .expression payload => .ok (.expression, payload)
  | .wrapped .parameter payload => .ok (.parameter, payload)
  | .wrapped .resource payload => .ok (.resource, payload)
  | .action args code =>
    match args.items? with
    | some items => .ok (.action, .list [.actionPayload items code])
    | none => .error .notIterable
  | .wrapped .asset payload => .ok (.asset, payload)
  | .page target anchor => .ok (.page, Value.pagePayload target anchor)
  | .str s => .ok (.string, .str s)
  | .int n => .ok (.number, .int n)
  | .float x => .ok (.number, .float x)
  | .bool b => .ok (.boolean, .bool b)
  | .wrapped .placeholder payload => .ok (.json, payload)
  | v => .ok (.json, v)

/-- The logger of this module. -/
def dispatchLogger : String := "core.template.dispatch"

/-- The entry for a value that is kept as JSON data. -/
def jsonEntry (instanceId name : String) (content : Value) : LogEntry :=
  ⟨.debug, dispatchLogger,
    "Prop '" ++ name ++ "' on instance " ++ instanceId ++ " stored as json (" ++
      content.typeName ++ ")"⟩

/-- The record of an attribute, given the texts of values. The id and the name are checked like the
content. -/
def createProp (text : Value → Shown String) (instanceId name value : Value) :
    Logged Failure PropRecord := do
  let owner ← Logged.ofExcept (ofShown (text instanceId))
  let title ← Logged.ofExcept (ofShown (text name))
  let (kind, content) ← Logged.ofExcept (classify value)
  Logged.tell (if kind = .json then [jsonEntry owner title content] else [])
  Logged.ofExcept <| ofChecked kind.className <| checkPropOf kind
    [("id", .str (propId owner title)), ("instance_id", instanceId), ("name", name),
     ("value", content)]

end ViewGraph
