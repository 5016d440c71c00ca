/-
A host graph that keeps a configuration beside its resources, and the procedures that create, update, view and
remove it. Every call on the host may fail before it does anything. A procedure runs on a host and leaves a host
behind also when it fails, so that what a failure changes is a question about the state it leaves.
-/
import ShapePlan.Config.Stored

namespace ShapePlan

/-! ## The host -/

/-- The calls by which the procedures reach the host. -/
inductive Call where
  | hasResources
  | loadConfig
  | saveConfig
  | deleteConfig
deriving DecidableEq, Repr

def Call.name : Call → String
  | .hasResources => "has_resources"
  | .loadConfig => "load_config"
  | .saveConfig => "save_config"
  | .deleteConfig => "delete_config"

/-- What the host holds: the configuration entity, the entity of the forced node properties, and the number of
resources. -/
structure Store where
  config : Option Bag := none
  nodeProperties : Option Bag := none
  resources : UInt64 := 0
deriving DecidableEq, Repr

/-- A number of resources is shown as an integer. -/
instance coeUInt64Int : Coe UInt64 Int := ⟨fun n => n.toNat⟩

structure Host where
  store : Store := {}
  /-- The calls that fail. -/
  failing : List Call := []
deriving DecidableEq, Repr

abbrev Procedure (α : Type) := ExceptT ConfigError (StateM Host) α

namespace Host

/-- The state of the store, unless the call fails. -/
def reach (c : Call) : Procedure Store := do
  let h ← get
  if c ∈ h.failing then throw (.host (c.name ++ " failed")) else return h.store

def put (s : Store) : Procedure Unit := modify fun h => { h with store := s }

def hasResources : Procedure Bool := do
  return 0 < (← reach .hasResources).resources

/-- The stored mapping, with the node properties nested in it. -/
def loadConfig : Procedure (Option Bag) := do
  let s ← reach .loadConfig
  return s.config.map fun b =>
    match s.nodeProperties with
    | some p => b.insert Key.forced.stored (.object p)
    | none => b

/-- Replaces both entities. The configuration entity never holds the node properties. -/
def saveConfig (config nodeProperties : Bag) : Procedure Unit := do
  let s ← reach .saveConfig
  put { s with config := some (config.erase Key.forced.stored), nodeProperties := some nodeProperties }

def deleteConfig : Procedure Unit := do
  let s ← reach .deleteConfig
  put { s with config := none, nodeProperties := none }

end Host

namespace Store

/-- The number of resources wraps around. -/
def addResources (s : Store) (n : Nat) : Store := { s with resources := s.resources + UInt64.ofNat n }

def clearResources (s : Store) : Store := { s with resources := 0 }

end Store

/-! ## Procedures -/

namespace GraphConfig

/-- The key by which a bag asks for an update of a graph that holds resources. -/
def forceKey : String := "force"

def requireEmpty : Procedure Unit := do
  if ← Host.hasResources then throw .notEmpty

/-- Writes the two entities of a configuration. -/
def save (c : GraphConfig) : Procedure Unit :=
  let stored := c.toStored
  let nodeProperties := (stored.get? Key.forced.stored >>= Value.object?).getD Dict.empty
  Host.saveConfig (stored.erase Key.forced.stored) nodeProperties

/-- Gives an empty graph a configuration, in place of any other. -/
def create (b : Bag) : Procedure (List Item) := do
  requireEmpty
  let c ← ofBag b
  c.save
  return c.items

/-- Merges a bag into the stored configuration. The graph is empty or the bag asks for force. -/
def update (b : Bag) : Procedure (List Item) := do
  if !b.isTrue forceKey then requireEmpty
  let some stored ← Host.loadConfig | throw .missing
  let c ← ofStored stored
  let c ← c.add b
  c.save
  return c.items

/-- The stored configuration, if there is one. -/
def load : Procedure (Option GraphConfig) := do
  match ← Host.loadConfig with
  | some stored => return some (← ofStored stored)
  | none => return none

/-- The external view of the stored configuration. -/
def view : Procedure (List Item) := do
  match ← load with
  | some c => return c.items
  | none => return []

/-- Takes the configuration away from an empty graph. -/
def remove : Procedure (List Item) := do
  requireEmpty
  Host.deleteConfig
  return []

end GraphConfig

end ShapePlan
