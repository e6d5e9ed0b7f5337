import ViewGraph.Json.Writer
import ViewGraph.Normalization
import ViewGraph.Record.Dump

/-!
# Reports

The records of a template as data and as text: as they are, keyed by their ids, or with a summary.

* `Maps.ofFragment`: instances and attributes by id.
* `summary`, `report`: the counts of the records, and the records with their counts.
* `jsonText`: strict JSON text under an indentation.
-/

namespace ViewGraph

/-- Instances and attributes by id. -/
structure Maps where
  instances : List (String × Instance)
  props : List (String × PropRecord)

namespace Maps

/-- Of records with one id the last is kept, at the place of the first. -/
def ofFragment (f : DocumentFragment) : Maps :=
  { instances := Table.ofList (f.instances.map fun i => (i.id, i))
    props := Table.ofList (f.props.map fun p => (p.id, p)) }

/-- The maps as data. -/
def dump (g : Graph) (m : Maps) : Except DumpError Value := do
  let props ← m.props.mapM fun (id, p) => do return (id, ← dumpProp g {} p)
  return .dict
    [("instances", .dict (m.instances.map fun (id, i) => (id, dumpInstance {} i))),
     ("props", .dict props)]

end Maps

/-- A count as data. -/
def ofCount (n : Nat) : Value := .int n

/-- The counts of the records. -/
def summary (f : DocumentFragment) : Value :=
  .dict
    [("total_instances", ofCount f.instances.length), ("total_props", ofCount f.props.length),
     ("total_style_sources", ofCount f.styleSources.length),
     ("total_styles", ofCount f.styles.length),
     ("total_breakpoints", ofCount f.breakpoints.length),
     ("top_level_children", ofCount f.children.length)]

/-- The records with their counts and the time of the report. -/
def report (g : Graph) (time : String) (f : DocumentFragment) : Except DumpError Value := do
  let data ← dumpFragment g {} f
  return .dict
    [("success", .bool true), ("timestamp", .str time), ("stage", .str "normalization"),
     ("fragment", data), ("summary", summary f)]

/-! ### Text -/

/-- Why data have no text. -/
inductive TextError
  /-- A number that is not finite. -/
  | notFinite (number : Binary64) (indented : Bool)
  /-- A whole number with too many digits. -/
  | tooManyDigits
  /-- The indentation is no indentation. -/
  | indentUnusable
  /-- The indentation is a number beyond all bounds. -/
  | indentTooLarge
deriving DecidableEq

/-- The failure to write a number, in words. The number is named where a text is indented. -/
def notFiniteMessage (number : Binary64) (indented : Bool) : String :=
  "Output is not valid JSON: Out of range float values are not JSON compliant" ++
    if indented then ": " ++ String.ofList number.text else ""

/-- The failure to write a whole number, in words. -/
def tooManyDigitsMessage : String :=
  "Output is not valid JSON: Exceeds the limit (" ++ numeral maxDigits ++
    " digits) for integer string conversion; use sys.set_int_max_str_digits() to increase the limit"

namespace Json.Layout

/-- So many blanks for each level; a negative number stands for none. -/
def ofWidth (width : Int) : Layout := .indented (List.replicate width.toNat ' ')

/-- The layout that an indentation asks for: null for one line, a number of blanks, or a text. -/
def ofValue : Value → Except TextError Layout
  | .null => .ok .oneLine
  | .bool b => .ok (ofWidth (if b then 1 else 0))
  | .int n =>
    if -wordBound ≤ n && n < wordBound then .ok (ofWidth n) else .error .indentTooLarge
  | .str s => .ok (.indented s.toList)
  | _ => .error .indentUnusable

def isIndented : Layout → Bool
  | .oneLine => false
  | .indented _ => true

end Json.Layout

/-- The text of data under a layout. -/
def layoutText (display : Value → Shown (List Char)) (layout : Json.Layout) (v : Value) :
    Except TextError String :=
  match Json.write display layout v with
  | .ok text => .ok (String.ofList text)
  | .error (.notFinite x) => .error (.notFinite x layout.isIndented)
  | .error .tooManyDigits => .error .tooManyDigits

/-- The text of data under an indentation. A text on its own needs none. -/
def jsonText (display : Value → Shown (List Char)) (indent : Value) (v : Value) :
    Except TextError String :=
  match v with
  | .str s => .ok (String.ofList (Json.string s))
  | v => do
    let layout ← Json.Layout.ofValue indent
    layoutText display layout v

end ViewGraph
