/-
Plans as values. A structure is written as an object; it is read from an object that has its fields, others being
passed over, or from the list of exactly its fields in their order. A path may be missing in an object.
-/
import ShapePlan.Plan.Basic

namespace ShapePlan

/-! ## Choices -/

/-- A choice is written as its name, or as an object whose only key is the name and whose value is null. -/
def Value.choice? : Value → Option String
  | .string s => some s
  | .object ⟨[(s, .null)]⟩ => some s
  | _ => none

def Kind.ofValue? (v : Value) : Option Kind := v.choice? >>= Kind.ofName?

namespace Scope

def name : Scope → String
  | .global => "global"
  | .touched => "touched"

def ofValue? (v : Value) : Option Scope := v.choice? >>= fun s => [Scope.global, .touched].find? (·.name = s)

end Scope

/-! ## Fields -/

/-- The values of the named fields of a structure, as an object or a list gives them. A missing field of an object
is `none`. -/
def Value.fields? (keys : List String) : Value → Option (List (Option Value))
  | .object b => some (keys.map b.get?)
  | .list vs => if vs.length = keys.length then some (vs.map some) else none
  | _ => none

/-- A string that may be absent. -/
def Value.stringOrNull? : Value → Option (Option String)
  | .null => some none
  | .string s => some (some s)
  | _ => none

/-! ## Entries -/

namespace Entry

def toValue (e : Entry) : Value :=
  .object (Dict.ofList
    [("id", .string e.id), ("global", .string e.global), ("scoped", .string e.touched),
      ("triggers", .strings e.triggers), ("kind", .string e.kind.localName),
      ("focusLabel", .string e.focusLabel), ("path", .ofOption .string e.path)])

def keys : List String := ["id", "global", "scoped", "triggers", "kind", "focusLabel", "path"]

def ofValue? (v : Value) : Option Entry := do
  match ← v.fields? keys with
  | [some id, some global, some touched, some triggers, some kind, some focusLabel, path] =>
    return {
      id := ← id.string?
      global := ← global.string?
      touched := ← touched.string?
      triggers := ← triggers.strings?
      kind := ← Kind.ofValue? kind
      focusLabel := ← focusLabel.string?
      path := ← (path.getD .null).stringOrNull? }
  | _ => none

end Entry

namespace Component

def toValue (c : Component) : Value :=
  .object (Dict.ofList
    [("focusLabel", .string c.focusLabel), ("path", .ofOption .string c.path), ("kind", .string c.kind),
      ("value", c.value)])

def keys : List String := ["focusLabel", "path", "kind", "value"]

def ofValue? (v : Value) : Option Component := do
  match ← v.fields? keys with
  | [some focusLabel, path, some kind, some value] =>
    return {
      focusLabel := ← focusLabel.string?
      path := ← (path.getD .null).stringOrNull?
      kind := ← kind.string?
      value }
  | _ => none

end Component

namespace Plan

def paramsValue (p : Plan) : Value := .object (p.params.map fun set => .object set.toDict)

def toValue (p : Plan) : Value :=
  .object (Dict.ofList
    [("entries", .list (p.entries.map Entry.toValue)), ("params", p.paramsValue),
      ("inventory", .list (p.inventory.map Component.toValue))])

/-- Parameter sets are objects. -/
def paramsOf? (b : Bag) : Option ParamSets :=
  return .ofList (← b.entries.mapM fun e => e.2.object?.map fun set => (e.1, .ofList set.entries))

def keys : List String := ["entries", "params", "inventory"]

def ofValue? (v : Value) : Option Plan := do
  match ← v.fields? keys with
  | [some entries, some params, some inventory] =>
    return {
      entries := ← (← entries.list?).mapM Entry.ofValue?
      params := ← paramsOf? (← params.object?)
      inventory := ← (← inventory.list?).mapM Component.ofValue? }
  | _ => none

end Plan

end ShapePlan
