/-
The closed sets of policies by which vocabulary terms are put into a property graph. Each value has a
name, used in property bags, and an integer code, used in storage.
-/
import ShapePlan.Value.Printer

namespace ShapePlan

/-! ## Errors -/

inductive ConfigError where
  /-- A policy value outside of its closed set. -/
  | invalidParam (param value : String)
  /-- An update without a stored configuration. -/
  | missing
  /-- A change of a graph that holds resources. -/
  | notEmpty
  /-- A failure of the host. -/
  | host (text : String)
deriving DecidableEq, Repr

def ConfigError.message : ConfigError → String
  | .invalidParam param value => value ++ " is not a valid option for param '" ++ param ++ "'"
  | .missing => "Graph config not found. Call 'init' method first."
  | .notEmpty => "The graph is non-empty. Config cannot be changed."
  | .host text => text

/-! ## Policies -/

class Policy (α : Type) where
  param : String
  /-- In the order of their codes. -/
  all : List α
  default : α
  name : α → String
  code : α → Int

namespace Policy

variable {α : Type} [Policy α]

def invalid (α : Type) [Policy α] (value : String) : ConfigError := .invalidParam (param α) value

def ofName (s : String) : Except ConfigError α :=
  match (all : List α).find? (name · = s) with
  | some p => .ok p
  | none => .error (invalid α s)

def ofCode? (n : Int) : Option α := (all : List α).find? (code · = n)

/-- A bag names a policy by a string. -/
def ofValue : Value → Except ConfigError α
  | .string s => ofName s
  | v => .error (invalid α v.text)

/-- Storage holds a code; no code at all is the default. -/
def ofStored : Option Value → Except ConfigError α
  | none => .ok default
  | some .null => .ok default
  | some v =>
    match v.int64? >>= fun n => ofCode? n.toInt with
    | some p => .ok p
    | none => .error (invalid α v.text)

end Policy

/-- Whether nodes are resources with an IRI or plain nodes of a labelled property graph. -/
inductive GraphMode where
  | rdf
  | lpg
deriving DecidableEq, Repr

/-- How the IRI of a vocabulary term is stored. -/
inductive VocabPolicy where
  /-- A registered prefix and the local name. -/
  | shorten
  /-- The same, and unknown namespaces are refused on import. -/
  | shortenStrict
  /-- The local name alone. -/
  | ignore
  /-- The name given by an explicit mapping. -/
  | map
  /-- The whole IRI. -/
  | keep
deriving DecidableEq, Repr

/-- What a second value of a property does. -/
inductive MultivalPolicy where
  | overwrite
  | array
deriving DecidableEq, Repr

/-- How the type of a resource is stored. -/
inductive TypesPolicy where
  | labels
  | nodes
  | labelsAndNodes
deriving DecidableEq, Repr

instance : Policy VocabPolicy where
  param := "handleVocabUris"
  all := [.shorten, .shortenStrict, .ignore, .map, .keep]
  default := .shorten
  name
    | .shorten => "SHORTEN"
    | .shortenStrict => "SHORTEN_STRICT"
    | .ignore => "IGNORE"
    | .map => "MAP"
    | .keep => "KEEP"
  code
    | .shorten => 0
    | .shortenStrict => 1
    | .ignore => 2
    | .map => 3
    | .keep => 4

instance : Policy MultivalPolicy where
  param := "handleMultival"
  all := [.overwrite, .array]
  default := .overwrite
  name
    | .overwrite => "OVERWRITE"
    | .array => "ARRAY"
  code
    | .overwrite => 0
    | .array => 1

instance : Policy TypesPolicy where
  param := "handleRDFTypes"
  all := [.labels, .nodes, .labelsAndNodes]
  default := .labels
  name
    | .labels => "LABELS"
    | .nodes => "NODES"
    | .labelsAndNodes => "LABELS_AND_NODES"
  code
    | .labels => 0
    | .nodes => 1
    | .labelsAndNodes => 2

def VocabPolicy.graphMode : VocabPolicy → GraphMode
  | .shorten => .rdf
  | .shortenStrict => .rdf
  | .keep => .rdf
  | .ignore => .lpg
  | .map => .lpg

def TypesPolicy.asLabels : TypesPolicy → Bool
  | .nodes => false
  | _ => true

def TypesPolicy.asNodes : TypesPolicy → Bool
  | .labels => false
  | _ => true

end ShapePlan
