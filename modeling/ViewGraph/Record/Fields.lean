import ViewGraph.Record
import ViewGraph.Record.Checked

/-!
# Classes and fields of the records

A field whose two names differ has a constant here; any other field is named by a text. A record
that comes in several classes carries a tag.

* `ChildKind`, `PropKind`: the classes of the two unions, with their tags and names.
-/

namespace ViewGraph

instance : Coe String Field := ⟨Field.plain⟩

namespace Field

def instanceId : Field := ⟨"instanceId", "instance_id"⟩
def breakpointId : Field := ⟨"breakpointId", "breakpoint_id"⟩
def styleSourceId : Field := ⟨"styleSourceId", "style_source_id"⟩
def styleSources : Field := ⟨"styleSources", "style_sources"⟩
def styleSourceSelections : Field := ⟨"styleSourceSelections", "style_source_selections"⟩
def dataSources : Field := ⟨"dataSources", "data_sources"⟩

end Field

/-- The kinds of children. -/
inductive ChildKind
  | text
  | expression
  | id
deriving DecidableEq

namespace ChildKind

def tag : ChildKind → String
  | text => "text"
  | expression => "expression"
  | id => "id"

def className : ChildKind → String
  | text => "TextChild"
  | expression => "ExpressionChild"
  | id => "IdChild"

def all : List ChildKind := [text, expression, id]

end ChildKind

/-- The kinds of attributes. -/
inductive PropKind
  | expression
  | parameter
  | resource
  | action
  | asset
  | page
  | string
  | number
  | boolean
  | json
deriving DecidableEq

namespace PropKind

def tag : PropKind → String
  | expression => "expression"
  | parameter => "parameter"
  | resource => "resource"
  | action => "action"
  | asset => "asset"
  | page => "page"
  | string => "string"
  | number => "number"
  | boolean => "boolean"
  | json => "json"

def className : PropKind → String
  | expression => "ExpressionProp"
  | parameter => "ParameterProp"
  | resource => "ResourceProp"
  | action => "ActionProp"
  | asset => "AssetProp"
  | page => "PageProp"
  | string => "StringProp"
  | number => "NumberProp"
  | boolean => "BooleanProp"
  | json => "JsonProp"

def all : List PropKind :=
  [expression, parameter, resource, action, asset, page, string, number, boolean, json]

end PropKind

def Child.kind : Child → ChildKind
  | .text .. => .text
  | .expression _ => .expression
  | .id _ => .id

def PropContent.kind : PropContent → PropKind
  | .expression _ => .expression
  | .parameter _ => .parameter
  | .resource _ => .resource
  | .action _ => .action
  | .asset _ => .asset
  | .page _ => .page
  | .string _ => .string
  | .number _ => .number
  | .boolean _ => .boolean
  | .json _ => .json

end ViewGraph
