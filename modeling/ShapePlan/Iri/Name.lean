/-
The namespace and the local name of an IRI, and the check that a namespace and a local name put together come
apart at the same place.
-/
import ShapePlan.Iri.Basic
import ShapePlan.Text.Word

namespace ShapePlan.Iri

/-- Cuts after the last `c`. -/
def cutAfterLast (c : Char) (cs : List Char) : List Char × List Char :=
  ((cs.reverse.dropWhile (· ≠ c)).reverse, (cs.reverse.takeWhile (· ≠ c)).reverse)

/-- Cuts after the first `c`, which occurs. -/
def cutAfterFirst (c : Char) (cs : List Char) : List Char × List Char :=
  (cs.takeWhile (· ≠ c) ++ (cs.dropWhile (· ≠ c)).take 1, (cs.dropWhile (· ≠ c)).drop 1)

/-- Cuts after the first hash, or else after the last slash, or else after the last colon. -/
def cutName (cs : List Char) : List Char × List Char :=
  if '#' ∈ cs then cutAfterFirst '#' cs
  else if '/' ∈ cs then cutAfterLast '/' cs
  else if ':' ∈ cs then cutAfterLast ':' cs
  else ([], cs)

def namespaceOf (iri : String) : String := String.ofList (cutName iri.toList).1

def localNameOf (iri : String) : String := String.ofList (cutName iri.toList).2

/-- The byte offset of the first `c`. -/
def firstOffset? (c : Char) : List Char → Option Nat
  | [] => none
  | d :: r => if d = c then some 0 else (firstOffset? c r).map (d.utf8Size + ·)

/-- The byte offset of the last `c`. -/
def lastOffset? (c : Char) : List Char → Option Nat
  | [] => none
  | d :: r => ((lastOffset? c r).map (d.utf8Size + ·)).or (if d = c then some 0 else none)

/-- The byte offset at which the local name starts: after the first hash, or else after the last slash, or else after
the last colon. -/
def localNameIndex (iri : String) : Nat :=
  ((firstOffset? '#' iri.toList).or ((lastOffset? '/' iri.toList).or (lastOffset? ':' iri.toList))).elim 0 (· + 1)

/-- Nothing is lost where an IRI is cut. -/
theorem cutName_append (cs : List Char) : (cutName cs).1 ++ (cutName cs).2 = cs := by
  unfold cutName cutAfterFirst cutAfterLast
  split
  · rw [List.append_assoc, List.take_append_drop, List.takeWhile_append_dropWhile]
  · split
    · simp [← List.reverse_append, List.takeWhile_append_dropWhile]
    · split
      · simp [← List.reverse_append, List.takeWhile_append_dropWhile]
      · simp

/-- The last character of the namespace decides what may stand before and after it. -/
def splitsAt (ns loc : List Char) : Bool :=
  match ns.getLast? with
  | some '#' => !ns.dropLast.contains '#'
  | some '/' => !ns.contains '#' && !loc.contains '/' && !loc.contains '#'
  | some ':' =>
    !ns.contains '#' && !ns.contains '/' && !loc.contains ':' && !loc.contains '/' && !loc.contains '#'
  | _ => false

/-- The two parts make up an absolute IRI that is cut between them. -/
def isCorrectSplit (ns loc : String) : Bool :=
  splitsAt ns.toList loc.toList && isAbsolute (ns ++ loc)

/-- An ASCII letter, then word characters and hyphens. -/
def isPrefixName (s : String) : Bool :=
  match s.toList with
  | c :: r => c.isAlpha && r.all (fun c => Text.isWord c || c = '-')
  | [] => false

end ShapePlan.Iri
