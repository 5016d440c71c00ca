/-
The names that IRIs have in a property graph. Without a configuration, and when vocabularies are ignored, it is
the local name; shortened names are a registered prefix and the local name, so an IRI whose namespace has no
usable prefix has no name.
-/
import ShapePlan.Config.Basic

namespace ShapePlan

inductive NamingError where
  /-- No prefix is registered for the namespace of an IRI. -/
  | unknownNamespace (iri ns : String)
  /-- The prefix registered for a namespace, or the namespace itself, is ill-formed. -/
  | invalidPrefix (label ns : String)
deriving DecidableEq, Repr

def NamingError.message : NamingError → String
  | .unknownNamespace iri ns =>
    "No prefix has been defined for namespace <" ++ ns ++ "> (used in <" ++ iri ++ ">)"
  | .invalidPrefix label ns =>
    "The prefix definition '" ++ label ++ "' for namespace <" ++ ns ++ "> is invalid"

/-- What is registered about names: prefixes by namespace, and names by IRI. -/
structure Resolver where
  prefixFor : String → Except NamingError (Option String)
  mappingFor : String → Option String := fun _ => none

/-! ## Tables -/

/-- Definitions are kept as they are given and only checked when they are looked up. -/
structure PrefixTable where
  byNamespace : SortedDict String := .empty
  mappings : SortedDict String := .empty
deriving DecidableEq, Repr

namespace PrefixTable

def insert (t : PrefixTable) (label ns : String) : PrefixTable :=
  { t with byNamespace := t.byNamespace.insert ns label }

def insertMapping (t : PrefixTable) (iri name : String) : PrefixTable :=
  { t with mappings := t.mappings.insert iri name }

/-- Prefixes with their namespaces, in the order of the namespaces. -/
def toList (t : PrefixTable) : List (String × String) := t.byNamespace.toList.map fun e => (e.2, e.1)

def size (t : PrefixTable) : Nat := t.byNamespace.size

def lookup (t : PrefixTable) (ns : String) : Except NamingError (Option String) :=
  match t.byNamespace.get? ns with
  | none => .ok none
  | some label =>
    if Iri.isPrefixName label && Iri.isAbsolute ns then .ok (some label)
    else .error (.invalidPrefix label ns)

def resolver (t : PrefixTable) : Resolver where
  prefixFor := t.lookup
  mappingFor := t.mappings.get?

/-- The same prefixes, and no mapping. -/
def prefixResolver (t : PrefixTable) : Resolver where
  prefixFor := t.lookup

end PrefixTable

/-! ## Names -/

/-- What stands between a prefix and a local name. -/
def separator : String := "__"

/-- What the name of an IRI depends on. -/
structure Naming where
  config : Option GraphConfig
  resolver : Resolver

namespace Naming

def shortName (r : Resolver) (iri : String) : Except NamingError String := do
  let ns := Iri.namespaceOf iri
  match ← r.prefixFor ns with
  | some label => return label ++ separator ++ Iri.localNameOf iri
  | none => throw (.unknownNamespace iri ns)

def nameBy (p : VocabPolicy) (r : Resolver) (iri : String) : Except NamingError String :=
  match p with
  | .ignore => .ok (Iri.localNameOf iri)
  | .keep => .ok iri
  | .map => .ok ((r.mappingFor iri).getD (Iri.localNameOf iri))
  | .shorten => shortName r iri
  | .shortenStrict => shortName r iri

def name (n : Naming) (iri : String) : Except NamingError String :=
  match n.config with
  | none => .ok (Iri.localNameOf iri)
  | some c => nameBy c.vocab n.resolver iri

/-- The names of several IRIs, or the error of the first that has none. -/
def names (n : Naming) (iris : List String) : Except NamingError (List String) := iris.mapM n.name

/-- A graph without a configuration is a plain property graph. -/
def graphMode (n : Naming) : GraphMode := (n.config.map GraphConfig.graphMode).getD .lpg

def typesAsLabels (n : Naming) : Bool := n.config.all (·.types.asLabels)

def typesAsNodes (n : Naming) : Bool := n.config.any (·.types.asNodes)

end Naming

end ShapePlan
