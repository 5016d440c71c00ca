/-
The quoting of query text. Outside of quotes every character stands for itself; a single quote opens a string, in which
a backslash hands the next character over as it is, and a backtick opens a name, in which two backticks are one.
What `escapeString` and `escapeName` write is read back as the value that was written, whatever it holds, and a text
that leaves no quote open can be followed by any text that does not start with a backtick.
-/
import ShapePlan.Query.Render

namespace ShapePlan.Query

inductive Lexeme where
  | plain (c : Char)
  /-- A string with its escapes undone. -/
  | string (text : List Char)
  /-- A quoted name with its doubled backticks undone. -/
  | name (text : List Char)
deriving DecidableEq, Repr

/-- Where the reader of a text stands, with what it has read of an open string or name. -/
inductive Mode where
  | outside
  | inString (read : List Char)
  | inName (read : List Char)
deriving DecidableEq, Repr

/-- The lexemes of a text. A text that ends inside of quotes has none. -/
def scan : Mode → List Char → Option (List Lexeme)
  | .outside, [] => some []
  | .outside, '\'' :: r => scan (.inString []) r
  | .outside, '`' :: r => scan (.inName []) r
  | .outside, c :: r => (scan .outside r).map (.plain c :: ·)
  | .inString _, [] => none
  | .inString read, '\\' :: c :: r => scan (.inString (read ++ [c])) r
  | .inString read, '\'' :: r => (scan .outside r).map (.string read :: ·)
  | .inString read, c :: r => scan (.inString (read ++ [c])) r
  | .inName _, [] => none
  | .inName read, '`' :: '`' :: r => scan (.inName (read ++ ['`'])) r
  | .inName read, '`' :: r => (scan .outside r).map (.name read :: ·)
  | .inName read, c :: r => scan (.inName (read ++ [c])) r

def lex (text : String) : Option (List Lexeme) := scan .outside text.toList

/-! ## Single steps -/

theorem scan_quote (r : List Char) : scan .outside ('\'' :: r) = scan (.inString []) r := rfl

theorem scan_backtick (r : List Char) : scan .outside ('`' :: r) = scan (.inName []) r := rfl

theorem scan_escaped (c : Char) (read r : List Char) :
    scan (.inString read) ('\\' :: c :: r) = scan (.inString (read ++ [c])) r := rfl

theorem scan_string_end (read r : List Char) :
    scan (.inString read) ('\'' :: r) = (scan .outside r).map (.string read :: ·) := rfl

theorem scan_doubled (read r : List Char) :
    scan (.inName read) ('`' :: '`' :: r) = scan (.inName (read ++ ['`'])) r := rfl

theorem scan_plain {c : Char} (h₁ : c ≠ '\'') (h₂ : c ≠ '`') (r : List Char) :
    scan .outside (c :: r) = (scan .outside r).map (.plain c :: ·) := by
  rw [scan]
  · exact h₁
  · exact h₂

theorem scan_inString {c : Char} (h₁ : c ≠ '\\') (h₂ : c ≠ '\'') (read r : List Char) :
    scan (.inString read) (c :: r) = scan (.inString (read ++ [c])) r := by
  rw [scan]
  · intro _ _ h
    exact absurd h h₁
  · exact h₂

theorem scan_inName {c : Char} (h : c ≠ '`') (read r : List Char) :
    scan (.inName read) (c :: r) = scan (.inName (read ++ [c])) r := by
  rw [scan]
  · intro _ h' _
    exact h h'
  · exact h

/-- A backtick ends a name unless another one follows. -/
theorem scan_name_end {r : List Char} (h : r.head? ≠ some '`') (read : List Char) :
    scan (.inName read) ('`' :: r) = (scan .outside r).map (.name read :: ·) := by
  rw [scan]
  intro r' h'
  exact h (by rw [h']; rfl)

/-! ## Constant text -/

theorem scan_code {cs : List Char} (h : ∀ c ∈ cs, c ≠ '\'' ∧ c ≠ '`') (r : List Char) :
    scan .outside (cs ++ r) = (scan .outside r).map (cs.map .plain ++ ·) := by
  induction cs with
  | nil => simp
  | cons c cs ih =>
    obtain ⟨hc, hcs⟩ := List.forall_mem_cons.1 h
    rw [List.cons_append, scan_plain hc.1 hc.2, ih hcs, Option.map_map]
    rfl

theorem scan_inString_append {cs : List Char} (h : ∀ c ∈ cs, c ≠ '\\' ∧ c ≠ '\'') (read r : List Char) :
    scan (.inString read) (cs ++ r) = scan (.inString (read ++ cs)) r := by
  induction cs generalizing read with
  | nil => simp
  | cons c cs ih =>
    obtain ⟨hc, hcs⟩ := List.forall_mem_cons.1 h
    rw [List.cons_append, scan_inString hc.1 hc.2, ih hcs, List.append_assoc, List.singleton_append]

/-! ## Written values -/

/-- What is written inside a string is read back, whatever it is. -/
theorem scan_escapeString (cs read r : List Char) :
    scan (.inString read) (escapeString cs ++ r) = scan (.inString (read ++ cs)) r := by
  induction cs generalizing read with
  | nil => simp [escapeString]
  | cons c cs ih =>
    have hcons : escapeString (c :: cs) = (if c = '\\' ∨ c = '\'' then ['\\', c] else [c]) ++ escapeString cs := rfl
    rw [hcons, List.append_assoc]
    split
    · rw [List.cons_append, List.cons_append, List.nil_append, scan_escaped, ih, List.append_assoc,
        List.singleton_append]
    · rename_i h
      rw [List.singleton_append, scan_inString (fun e => h (.inl e)) (fun e => h (.inr e)), ih, List.append_assoc,
        List.singleton_append]

/-- What is written inside a quoted name is read back, whatever it is. -/
theorem scan_escapeName (cs read r : List Char) :
    scan (.inName read) (escapeName cs ++ r) = scan (.inName (read ++ cs)) r := by
  induction cs generalizing read with
  | nil => simp [escapeName]
  | cons c cs ih =>
    have hcons : escapeName (c :: cs) = (if c = '`' then ['`', '`'] else [c]) ++ escapeName cs := rfl
    rw [hcons, List.append_assoc]
    split
    · rename_i h
      subst h
      rw [List.cons_append, List.cons_append, List.nil_append, scan_doubled, ih, List.append_assoc,
        List.singleton_append]
    · rename_i h
      rw [List.singleton_append, scan_inName h, ih, List.append_assoc, List.singleton_append]

/-- A string that starts with a value and goes on with constant text. -/
theorem scan_string {tail : List Char} (h : ∀ c ∈ tail, c ≠ '\\' ∧ c ≠ '\'') (value r : List Char) :
    scan .outside ('\'' :: (escapeString value ++ (tail ++ '\'' :: r))) =
      (scan .outside r).map (.string (value ++ tail) :: ·) := by
  rw [scan_quote, scan_escapeString, scan_inString_append h, List.nil_append, scan_string_end]

theorem scan_name {r : List Char} (h : r.head? ≠ some '`') (value : List Char) :
    scan .outside ('`' :: (escapeName value ++ '`' :: r)) = (scan .outside r).map (.name value :: ·) := by
  rw [scan_backtick, scan_escapeName, scan_name_end h, List.nil_append]

/-! ## Texts in sequence -/

/-- A text without an open quote is read on its own, whatever follows it. Only a backtick at its end could become
part of a longer name. -/
theorem scan_append {m : Mode} {a b : List Char} {ts : List Lexeme} (ha : scan m a = some ts)
    (hb : b.head? ≠ some '`') : scan m (a ++ b) = (scan .outside b).map (ts ++ ·) := by
  fun_induction scan m a generalizing ts with
  | case1 => cases ha; simp
  | case2 r ih => rw [List.cons_append, scan_quote, ih ha]
  | case3 r ih => rw [List.cons_append, scan_backtick, ih ha]
  | case4 c r h₁ h₂ ih =>
    obtain ⟨us, hus, rfl⟩ := Option.map_eq_some_iff.1 ha
    rw [List.cons_append, scan_plain h₁ h₂, ih hus, Option.map_map]
    rfl
  | case5 => cases ha
  | case6 read c r ih => rw [List.cons_append, List.cons_append, scan_escaped, ih ha]
  | case7 read r ih =>
    obtain ⟨us, hus, rfl⟩ := Option.map_eq_some_iff.1 ha
    rw [List.cons_append, scan_string_end, ih hus, Option.map_map]
    rfl
  | case8 read c r h₁ h₂ ih =>
    -- a backslash that comes last leaves the string open, so `c` is none
    by_cases hc : c = '\\'
    · cases r with
      | nil => subst hc; cases ha
      | cons d r => exact (h₁ d r hc rfl).elim
    · rw [List.cons_append, scan_inString hc h₂, ih ha]
  | case9 => cases ha
  | case10 read r ih => rw [List.cons_append, List.cons_append, scan_doubled, ih ha]
  | case11 read r h ih =>
    obtain ⟨us, hus, rfl⟩ := Option.map_eq_some_iff.1 ha
    have hr : (r ++ b).head? ≠ some '`' := by
      cases r with
      | nil => exact hb
      | cons d r =>
        intro hd
        exact h r (by rw [Option.some.inj hd])
    rw [List.cons_append, scan_name_end hr, ih hus, Option.map_map]
    rfl
  | case12 read c r h₁ h₂ ih => rw [List.cons_append, scan_inName h₂, ih ha]

end ShapePlan.Query
