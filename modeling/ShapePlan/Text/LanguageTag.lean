/-
Well-formed language tags: a language of two to eight letters, then up to three extended languages if it is short, a
script, a region, variants, extensions and a private part, each in its place. A tag may also be private from its start,
and some older tags are well-formed as a whole.
-/
namespace ShapePlan.LanguageTag

/-- The registered tags that do not follow the grammar, in lower case. -/
def registered : List String :=
  ["art-lojban", "cel-gaulish", "en-gb-oed", "i-ami", "i-bnn", "i-default", "i-enochian", "i-hak", "i-klingon", "i-lux",
    "i-mingo", "i-navajo", "i-pwn", "i-tao", "i-tay", "i-tsu", "no-bok", "no-nyn", "sgn-be-fr", "sgn-be-nl",
    "sgn-ch-de", "zh-guoyu", "zh-hakka", "zh-min", "zh-min-nan", "zh-xiang"]

/-- How far a tag has been read. -/
inductive Stage where
  | start
  /-- After a short language and some extended languages. -/
  | language (extended : Nat)
  | beforeScript
  | afterScript
  /-- After a region or a variant. -/
  | afterRegion
  /-- In an extension, which may still be empty. -/
  | extension (empty : Bool)
  | privatePart (empty : Bool)
deriving DecidableEq, Repr

namespace Stage

def takesScript : Stage → Bool
  | .language _ => true
  | .beforeScript => true
  | _ => false

def takesRegion (s : Stage) : Bool := s.takesScript || s = .afterScript

def takesVariant (s : Stage) : Bool := s.takesRegion || s = .afterRegion

end Stage

def isRegion (sub : List Char) : Bool :=
  (sub.length = 2 && sub.all Char.isAlpha) || (sub.length = 3 && sub.all Char.isDigit)

def isVariant (sub : List Char) : Bool :=
  (5 ≤ sub.length && sub.head?.any Char.isAlpha) || (4 ≤ sub.length && sub.head?.any Char.isDigit)

/-- A subtag after the language. -/
def follow (s : Stage) (sub : List Char) : Option Stage :=
  match s with
  | .privatePart _ => some (.privatePart false)
  | _ =>
    if sub = ['x'] then if s = .extension true then none else some (.privatePart true)
    else if sub.length = 1 then if s = .extension true then none else some (.extension true)
    else
      match s with
      | .extension _ => some (.extension false)
      | _ =>
        match s, sub.length = 3 && sub.all Char.isAlpha with
        | .language n, true => if n < 3 then some (.language (n + 1)) else none
        | _, _ =>
          if s.takesScript && sub.length = 4 && sub.all Char.isAlpha then some .afterScript
          else if s.takesRegion && isRegion sub then some .afterRegion
          else if s.takesVariant && isVariant sub then some .afterRegion
          else none

/-- Subtags have one to eight letters and digits. -/
def step (s : Stage) (sub : List Char) : Option Stage :=
  if sub.length < 1 ∨ 8 < sub.length ∨ ¬ sub.all Char.isAlphanum then none
  else if s = .start then
    if sub = ['x'] then some (.privatePart true)
    else if sub.length < 2 ∨ ¬ sub.all Char.isAlpha then none
    else if sub.length < 4 then some (.language 0) else some .beforeScript
  else follow s sub

/-- Whether a tag may end here. -/
def isFinal : Stage → Bool
  | .start => false
  | .extension empty => !empty
  | .privatePart empty => !empty
  | _ => true

/-- The subtags, cut at the hyphens. -/
def subtags (s : String) : List (List Char) := (s.splitOn "-").map String.toList

/-- A tag in lower case. -/
def isWellFormed (s : String) : Bool :=
  registered.contains s || ((subtags s).foldlM step .start).any isFinal

end ShapePlan.LanguageTag
