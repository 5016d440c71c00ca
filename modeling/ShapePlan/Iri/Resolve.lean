/-
Resolution of an IRI reference against a base. A reference with a scheme or an authority stays as it is written. A
relative path is followed segment by segment from the folder of the base: a dot stays there, and two dots go up. The
segments of the base are names only, whatever dots they are made of.
-/
import ShapePlan.Iri.Basic

namespace ShapePlan.Iri

/-! ## Paths -/

/-- The parts of a path between its slashes. -/
def segments : List Char → List (List Char)
  | [] => [[]]
  | c :: r =>
    if c = '/' then [] :: segments r
    else
      match segments r with
      | s :: ss => (c :: s) :: ss
      | [] => [[c]]

/-- The path up to its last slash, that slash included. -/
def folder (path : List Char) : List Char := (path.reverse.dropWhile (· ≠ '/')).reverse

/-- The folder above a folder. The root has none above it: a rooted path stays there, any other one ends up empty. -/
def above (rooted : Bool) (path : List Char) : List Char :=
  let up := folder path.dropLast
  if rooted && up.isEmpty then ['/'] else up

/-- Where a segment leads from a folder. All but the last segment have a slash behind them. -/
def step (rooted : Bool) (path s : List Char) (last : Bool) : List Char :=
  if s = ['.', '.'] then above rooted path
  else if s = ['.'] then path
  else path ++ s ++ if last then [] else ['/']

/-- Follows segments from a folder. -/
def follow (rooted : Bool) (path : List Char) : List (List Char) → List Char
  | [] => path
  | s :: ss => follow rooted (step rooted path s ss.isEmpty) ss

/-- Whether segments can be followed without an authority. A path that starts with two slashes would be taken for one,
so that only two dots may lead on from there. -/
def isPassable (path : List Char) : List (List Char) → Bool
  | [] => true
  | s :: ss => (s = ['.', '.'] || path.take 2 ≠ ['/', '/']) && isPassable (step false path s ss.isEmpty) ss

/-! ## References -/

namespace Parts

/-- The folder from which a path is followed, and its segments. Paths are rooted behind an authority. -/
def way (base : Parts) (path : List Char) : List Char × List (List Char) :=
  match path with
  | '/' :: r => (['/'], segments r)
  | r => (if base.authority.isSome && base.path.isEmpty then ['/'] else folder base.path, segments r)

def resolve (base ref : Parts) : Parts :=
  if ref.scheme.isSome then ref
  else if ref.authority.isSome then { ref with scheme := base.scheme }
  else if ref.path = [] then { base with query := ref.query.or base.query, fragment := ref.fragment }
  else
    let (start, ss) := base.way ref.path
    ⟨base.scheme, base.authority, follow base.authority.isSome start ss, ref.query, ref.fragment⟩

/-- The path of a reference never turns into an authority. -/
def unambiguous (base ref : Parts) : Bool :=
  let (start, ss) := base.way ref.path
  ref.scheme.isSome || ref.authority.isSome || base.authority.isSome || isPassable start ss

/-- Without a scheme, a colon in the first segment would be taken for the end of one. -/
def plainStart (p : Parts) : Bool := p.scheme.isSome || !(p.path.takeWhile (· ≠ '/')).contains ':'

end Parts

/-- Resolves a reference that may be ill-formed. -/
def resolveAny (base : String) (ref : List Char) : String :=
  String.ofList ((split base.toList).resolve (split ref)).join

/-- Resolves a well-formed reference against a well-formed base. -/
def resolve? (base : String) (ref : List Char) : Option String :=
  let b := split base.toList
  let r := split ref
  if r.wellFormed && r.plainStart && b.unambiguous r then some (String.ofList (b.resolve r).join) else none

end ShapePlan.Iri
