/-
Filling query texts piece by piece. `fill` sees characters only and goes by the last one written; on a text whose
pieces are well-formed it writes every piece on its own (`fill_text`), so that the rendering of texts put together is
the rendering of the parts put together. Read with quotes, the result has the lexemes of the text before it was
filled, each site holding its value (`filled_lexemes`).
-/
import ShapePlan.Proofs.Query.Lexeme
import ShapePlan.Query.Template
import Mathlib.Data.List.Forall2

namespace ShapePlan

open Query

/-! ## Constant text -/

/-- A character that neither opens nor ends quotes and is no part of the mark of a site. -/
def isConstantChar (c : Char) : Bool := c ≠ '%' && c ≠ '\'' && c ≠ '`' && c ≠ '\\'

theorem isConstantChar_iff {c : Char} : isConstantChar c = true ↔ c ≠ '%' ∧ c ≠ '\'' ∧ c ≠ '`' ∧ c ≠ '\\' := by
  simp [isConstantChar, and_assoc]

/-- Constant text of at least so many characters. -/
structure IsConstant (least : Nat) (s : String) : Prop where
  length : least ≤ s.toList.length
  chars : ∀ c ∈ s.toList, isConstantChar c = true

/-- Literals are checked as lists of characters. -/
theorem isConstant_ofList {n : Nat} {l : List Char} (h : (decide (n ≤ l.length) && l.all isConstantChar) = true) :
    IsConstant n (String.ofList l) := by
  obtain ⟨hn, hl⟩ := Bool.and_eq_true_iff.1 h
  constructor
  · rw [String.toList_ofList]; exact of_decide_eq_true hn
  · rw [String.toList_ofList]; exact List.all_eq_true.1 hl

theorem IsConstant.append {n : Nat} {s t : String} (hs : IsConstant n s) (ht : IsConstant 0 t) :
    IsConstant n (s ++ t) := by
  constructor
  · rw [String.toList_append, List.length_append]; exact Nat.le_add_right_of_le hs.length
  · rw [String.toList_append]; exact List.forall_mem_append.2 ⟨hs.chars, ht.chars⟩

/-! ## Well-formed texts -/

namespace Piece

/-- The constant text of a piece. -/
def fixed : Piece → String
  | .code s => s
  | .quoted s => s
  | .string tail => tail
  | .name => ""
  | .snippet => ""

/-- Code is not empty. -/
def least : Piece → Nat
  | .code _ => 1
  | _ => 0

end Piece

namespace QueryText

def Constant (t : QueryText) : Prop := ∀ p ∈ t, IsConstant p.least p.fixed

@[simp] theorem constant_nil : Constant [] := nofun

@[simp] theorem constant_cons {p : Piece} {t : QueryText} :
    Constant (p :: t) ↔ IsConstant p.least p.fixed ∧ Constant t :=
  List.forall_mem_cons

@[simp] theorem constant_append {t u : QueryText} : Constant (t ++ u) ↔ Constant t ∧ Constant u :=
  List.forall_mem_append

/-- Every piece other than code follows code and is followed by code, if anything. -/
def spaced (afterCode : Bool) : QueryText → Bool
  | [] => true
  | .code _ :: r => spaced true r
  | _ :: r => afterCode && spaced false r

theorem spaced_nil (b : Bool) : spaced b [] = true := rfl
theorem spaced_code (b : Bool) (s : String) (r : QueryText) : spaced b (.code s :: r) = spaced true r := rfl
theorem spaced_quoted (b : Bool) (s : String) (r : QueryText) :
    spaced b (.quoted s :: r) = (b && spaced false r) := rfl
theorem spaced_string (b : Bool) (s : String) (r : QueryText) :
    spaced b (.string s :: r) = (b && spaced false r) := rfl
theorem spaced_name (b : Bool) (r : QueryText) : spaced b (.name :: r) = (b && spaced false r) := rfl
theorem spaced_snippet (b : Bool) (r : QueryText) : spaced b (.snippet :: r) = (b && spaced false r) := rfl

structure WellFormed (t : QueryText) : Prop where
  constant : t.Constant
  spaced : t.spaced false = true

end QueryText

/-! ## Sites -/

/-- What the value of a site becomes. -/
inductive Site where
  | string
  | name
  | snippet
deriving DecidableEq, Repr

def Piece.site? : Piece → Option Site
  | .code _ => none
  | .quoted _ => none
  | .string _ => some .string
  | .name => some .name
  | .snippet => some .snippet

def QueryText.sites (t : QueryText) : List Site := t.filterMap Piece.site?

namespace QueryText

@[simp] theorem sites_nil : sites [] = [] := rfl
@[simp] theorem sites_code (s : String) (r : QueryText) : sites (.code s :: r) = sites r := rfl
@[simp] theorem sites_quoted (s : String) (r : QueryText) : sites (.quoted s :: r) = sites r := rfl
@[simp] theorem sites_string (s : String) (r : QueryText) : sites (.string s :: r) = .string :: sites r := rfl
@[simp] theorem sites_name (r : QueryText) : sites (.name :: r) = .name :: sites r := rfl
@[simp] theorem sites_snippet (r : QueryText) : sites (.snippet :: r) = .snippet :: sites r := rfl

@[simp] theorem sites_append (t u : QueryText) : sites (t ++ u) = sites t ++ sites u := List.filterMap_append

end QueryText

/-! ## Writing piece by piece -/

namespace QueryText

/-- The rendering of a text, each piece on its own. -/
def write : QueryText → List String → List Char
  | [], _ => []
  | .code s :: r, vs => s.toList ++ write r vs
  | .quoted s :: r, vs => '\'' :: (s.toList ++ '\'' :: write r vs)
  | .string tail :: r, vs =>
    '\'' :: (escapeString (vs.headD "").toList ++ (tail.toList ++ '\'' :: write r vs.tail))
  | .name :: r, vs => '`' :: (escapeName (vs.headD "").toList ++ '`' :: write r vs.tail)
  | .snippet :: r, vs => (vs.headD "").toList ++ write r vs.tail

section

variable (s : String) (r : QueryText) (vs : List String)

@[simp] theorem write_nil : write [] vs = [] := rfl
@[simp] theorem write_code : write (.code s :: r) vs = s.toList ++ write r vs := rfl
@[simp] theorem write_quoted : write (.quoted s :: r) vs = '\'' :: (s.toList ++ '\'' :: write r vs) := rfl
@[simp] theorem write_string : write (.string s :: r) vs =
    '\'' :: (escapeString (vs.headD "").toList ++ (s.toList ++ '\'' :: write r vs.tail)) := rfl
@[simp] theorem write_name :
    write (.name :: r) vs = '`' :: (escapeName (vs.headD "").toList ++ '`' :: write r vs.tail) := rfl
@[simp] theorem write_snippet : write (.snippet :: r) vs = (vs.headD "").toList ++ write r vs.tail := rfl

end

/-- What stands before does not change how a text is written, apart from the values that it takes. -/
theorem write_append (t u : QueryText) (vs : List String) :
    write (t ++ u) vs = write t vs ++ write u (vs.drop t.sites.length) := by
  induction t generalizing vs with
  | nil => simp
  | cons p r ih => cases p <;> simp [ih]

/-- A text takes no more values than it has sites. -/
theorem write_take (t : QueryText) (vs : List String) : write t (vs.take t.sites.length) = write t vs := by
  induction t generalizing vs with
  | nil => rfl
  | cons p r ih =>
    cases p with
    | code s => rw [sites_code, write_code, write_code, ih]
    | quoted s => rw [sites_quoted, write_quoted, write_quoted, ih]
    | _ =>
      cases vs with
      | nil => rfl
      | cons v vs => simp [ih]

theorem toList_text (t : QueryText) : t.text.toList = t.flatMap fun p => p.text.toList := by
  rw [text, String.toList_join, List.flatMap_map]

end QueryText

namespace Query

theorem fillAfter_append {cs : List Char} (h : ∀ c ∈ cs, c ≠ '%') (last : Option Char) (r : List Char)
    (vs : List String) : fillAfter last (cs ++ r) vs = cs ++ fillAfter (cs.getLast?.or last) r vs := by
  induction cs generalizing last with
  | nil => simp
  | cons c cs ih =>
    obtain ⟨hc, hcs⟩ := List.forall_mem_cons.1 h
    have hlast : (c :: cs).getLast?.or last = cs.getLast?.or (some c) := by
      cases cs <;> simp [List.getLast?_cons]
    rw [List.cons_append, fillAfter, ih hcs, hlast, List.cons_append]
    intro r' h'
    exact absurd h' hc

theorem fillAfter_site (last : Option Char) (r : List Char) (vs : List String) :
    fillAfter last ('%' :: 's' :: r) vs =
      escapeAfter last (vs.headD "").toList ++
        fillAfter ((escapeAfter last (vs.headD "").toList).getLast?.or last) r vs.tail := by
  rw [fillAfter]

theorem sites_append {cs : List Char} (h : ∀ c ∈ cs, c ≠ '%') (r : List Char) :
    sites (cs ++ r) = sites r := by
  induction cs with
  | nil => rfl
  | cons c cs ih =>
    obtain ⟨hc, hcs⟩ := List.forall_mem_cons.1 h
    rw [List.cons_append, sites, ih hcs]
    intro r' h'
    exact absurd h' hc

/-- The last character written opens or ends no quotes. -/
def Outside (last : Option Char) : Prop := last ≠ some '\'' ∧ last ≠ some '`'

theorem escapeAfter_outside {last : Option Char} (h : Outside last) (cs : List Char) : escapeAfter last cs = cs := by
  unfold escapeAfter
  split
  · exact absurd rfl h.1
  · exact absurd rfl h.2
  · rfl

end Query

namespace QueryText

theorem ne_percent {n : Nat} {s : String} (h : IsConstant n s) : ∀ c ∈ s.toList, c ≠ '%' :=
  fun c hc => (isConstantChar_iff.1 (h.chars c hc)).1

theorem quoted_ne_percent {n : Nat} {s : String} (h : IsConstant n s) :
    ∀ c ∈ (Piece.quoted s).text.toList, c ≠ '%' := by
  simpa [Piece.text, or_imp, forall_and] using ne_percent h

theorem tail_ne_percent {n : Nat} {s : String} (h : IsConstant n s) : ∀ c ∈ s.toList ++ ['\''], c ≠ '%' := by
  simpa [or_imp, forall_and] using ne_percent h

theorem string_text (tail : String) :
    (Piece.string tail).text.toList = '\'' :: '%' :: 's' :: (tail.toList ++ ['\'']) := by
  simp [Piece.text]

theorem name_text : Piece.name.text.toList = '`' :: '%' :: 's' :: ['`'] := by simp [Piece.text]

theorem snippet_text : Piece.snippet.text.toList = ['%', 's'] := by simp [Piece.text]

/-- The marks that a text holds are its sites. -/
theorem sites_text {t : QueryText} (hc : t.Constant) :
    Query.sites (t.flatMap fun p => p.text.toList) = t.sites.length := by
  induction t with
  | nil => rfl
  | cons p r ih =>
    rw [List.flatMap_cons]
    cases p with
    | code s =>
      obtain ⟨hs, hr⟩ : IsConstant 1 s ∧ Constant r := constant_cons.1 hc
      rw [Piece.text, Query.sites_append (ne_percent hs), ih hr, sites_code]
    | quoted s =>
      obtain ⟨hs, hr⟩ : IsConstant 0 s ∧ Constant r := constant_cons.1 hc
      rw [Query.sites_append (quoted_ne_percent hs), ih hr, sites_quoted]
    | string tail =>
      obtain ⟨ht, hr⟩ : IsConstant 0 tail ∧ Constant r := constant_cons.1 hc
      rw [string_text, List.cons_append, Query.sites, List.cons_append, List.cons_append, Query.sites,
        Query.sites_append (tail_ne_percent ht), ih hr, sites_string, List.length_cons]
      nofun
    | name =>
      rw [name_text, List.cons_append, Query.sites, List.cons_append, List.cons_append, Query.sites,
        List.singleton_append, Query.sites, ih (constant_cons.1 hc).2, sites_name, List.length_cons]
      · nofun
      · nofun
    | snippet =>
      rw [snippet_text, List.cons_append, List.cons_append, List.nil_append, Query.sites, ih (constant_cons.1 hc).2,
        sites_snippet, List.length_cons]

theorem code_ne_nil {s : String} (h : IsConstant 1 s) : s.toList ≠ [] := by
  intro e
  have := h.length
  rw [e] at this
  cases this

/-- The last character of code is outside of quotes. -/
theorem outside_code {s : String} (h : IsConstant 1 s) (last : Option Char) :
    Outside (s.toList.getLast?.or last) := by
  rcases hc : s.toList.getLast? with _ | c
  · exact absurd (List.getLast?_eq_none_iff.1 hc) (code_ne_nil h)
  · have hcon := isConstantChar_iff.1 (h.chars c (List.mem_of_getLast? hc))
    exact ⟨fun e => hcon.2.1 (Option.some.inj e), fun e => hcon.2.2.1 (Option.some.inj e)⟩

/-- On well-formed pieces filling by the last character writes every piece on its own. -/
theorem fillAfter_pieces {b : Bool} {last : Option Char} {t : QueryText} (hc : t.Constant)
    (hs : t.spaced b = true) (hlast : b = true → Outside last) (vs : List String) :
    fillAfter last (t.flatMap fun p => p.text.toList) vs = write t vs := by
  induction t generalizing b last vs with
  | nil => rfl
  | cons p r ih =>
    rw [List.flatMap_cons]
    cases p with
    | code s =>
      obtain ⟨hcs, hr⟩ : IsConstant 1 s ∧ Constant r := constant_cons.1 hc
      rw [spaced_code] at hs
      rw [Piece.text, fillAfter_append (ne_percent hcs), write_code, ih hr hs fun _ => outside_code hcs last]
    | quoted s =>
      obtain ⟨hcs, hr⟩ : IsConstant 0 s ∧ Constant r := constant_cons.1 hc
      obtain ⟨-, hs⟩ := Bool.and_eq_true_iff.1 hs
      rw [fillAfter_append (quoted_ne_percent hcs), write_quoted, ih hr hs nofun]
      simp [Piece.text]
    | string tail =>
      obtain ⟨hct, hr⟩ : IsConstant 0 tail ∧ Constant r := constant_cons.1 hc
      obtain ⟨-, hs⟩ := Bool.and_eq_true_iff.1 hs
      rw [string_text, List.cons_append, fillAfter, List.cons_append, List.cons_append, fillAfter_site,
        fillAfter_append (tail_ne_percent hct), ih hr hs nofun, write_string]
      · simp [escapeAfter]
      · nofun
    | name =>
      obtain ⟨-, hs⟩ := Bool.and_eq_true_iff.1 hs
      have hq : ∀ c ∈ ['`'], c ≠ '%' := by simp
      rw [name_text, List.cons_append, fillAfter, List.cons_append, List.cons_append, fillAfter_site,
        fillAfter_append hq, ih (constant_cons.1 hc).2 hs nofun, write_name]
      · simp [escapeAfter]
      · nofun
    | snippet =>
      -- the piece before a snippet is code, so its value is written as it is
      obtain ⟨hb, hs⟩ := Bool.and_eq_true_iff.1 hs
      rw [snippet_text, List.cons_append, List.cons_append, List.nil_append, fillAfter_site,
        escapeAfter_outside (hlast hb), ih (constant_cons.1 hc).2 hs nofun, write_snippet]

theorem fill_text {t : QueryText} (h : t.WellFormed) (vs : List String) :
    fill t.text vs = String.ofList (write t vs) := by
  rw [fill, toList_text, fillAfter_pieces h.constant h.spaced nofun]

/-- A text is its own rendering with the mark of a site as every value. -/
theorem toList_text_eq_write (t : QueryText) : t.text.toList = write t (t.sites.map fun _ => "%s") := by
  rw [toList_text]
  induction t with
  | nil => rfl
  | cons p r ih =>
    rw [List.flatMap_cons, ih]
    cases p <;> simp [Piece.text, escapeString, escapeName]

end QueryText

/-! ## Lexemes -/

namespace QueryText

/-- The lexemes of a rendering. -/
def lexemes : QueryText → List String → List Lexeme
  | [], _ => []
  | .code s :: r, vs => s.toList.map .plain ++ lexemes r vs
  | .quoted s :: r, vs => .string s.toList :: lexemes r vs
  | .string tail :: r, vs => .string ((vs.headD "").toList ++ tail.toList) :: lexemes r vs.tail
  | .name :: r, vs => .name (vs.headD "").toList :: lexemes r vs.tail
  | .snippet :: r, vs => (lex (vs.headD "")).getD [] ++ lexemes r vs.tail

theorem lexemes_string (s : String) (r : QueryText) (vs : List String) :
    lexemes (.string s :: r) vs = .string ((vs.headD "").toList ++ s.toList) :: lexemes r vs.tail := rfl
theorem lexemes_name (r : QueryText) (vs : List String) :
    lexemes (.name :: r) vs = .name (vs.headD "").toList :: lexemes r vs.tail := rfl
theorem lexemes_snippet (r : QueryText) (vs : List String) :
    lexemes (.snippet :: r) vs = (lex (vs.headD "")).getD [] ++ lexemes r vs.tail := rfl

/-- A value for a site. A snippet leaves no quotes open. -/
def Balanced (k : Site) (v : String) : Prop := k = .snippet → ∃ ts, lex v = some ts

/-- After a name or a snippet no rendering goes on with a backtick. -/
theorem head_write_ne {r : QueryText} (hc : r.Constant) (hs : r.spaced false = true) (vs : List String) :
    (write r vs).head? ≠ some '`' := by
  cases r with
  | nil => nofun
  | cons p r =>
    cases p with
    | code s =>
      obtain ⟨hcs, -⟩ : IsConstant 1 s ∧ Constant r := constant_cons.1 hc
      rw [write_code]
      rcases hl : s.toList with _ | ⟨c, cs⟩
      · exact absurd hl (code_ne_nil hcs)
      · have hcon := isConstantChar_iff.1 (hcs.chars c (by rw [hl]; exact List.mem_cons_self ..))
        exact fun e => hcon.2.2.1 (Option.some.inj e)
    | _ => cases hs

theorem no_quotes {n : Nat} {s : String} (h : IsConstant n s) : ∀ c ∈ s.toList, c ≠ '\'' ∧ c ≠ '`' := fun c hc =>
  have h := isConstantChar_iff.1 (h.chars c hc)
  ⟨h.2.1, h.2.2.1⟩

theorem no_escape {n : Nat} {s : String} (h : IsConstant n s) : ∀ c ∈ s.toList, c ≠ '\\' ∧ c ≠ '\'' := fun c hc =>
  have h := isConstantChar_iff.1 (h.chars c hc)
  ⟨h.2.2.2, h.2.1⟩

theorem scan_pieces {b : Bool} {t : QueryText} (hc : t.Constant) (hs : t.spaced b = true)
    {vs : List String} (hv : List.Forall₂ Balanced t.sites vs) :
    scan .outside (write t vs) = some (lexemes t vs) := by
  induction t generalizing b vs with
  | nil => rfl
  | cons p r ih =>
    cases p with
    | code s =>
      obtain ⟨hcs, hr⟩ : IsConstant 1 s ∧ Constant r := constant_cons.1 hc
      rw [spaced_code] at hs
      rw [write_code, scan_code (no_quotes hcs), ih hr hs hv]
      rfl
    | quoted s =>
      obtain ⟨hcs, hr⟩ : IsConstant 0 s ∧ Constant r := constant_cons.1 hc
      obtain ⟨-, hs⟩ := Bool.and_eq_true_iff.1 hs
      rw [write_quoted, scan_quote, scan_inString_append (no_escape hcs), scan_string_end, ih hr hs hv]
      rfl
    | string tail =>
      obtain ⟨hct, hr⟩ : IsConstant 0 tail ∧ Constant r := constant_cons.1 hc
      obtain ⟨-, hs⟩ := Bool.and_eq_true_iff.1 hs
      cases hv with
      | cons _ hv =>
        rw [write_string, scan_string (no_escape hct), List.tail_cons, ih hr hs hv]
        rfl
    | name =>
      have hr := (constant_cons.1 hc).2
      obtain ⟨-, hs⟩ := Bool.and_eq_true_iff.1 hs
      cases hv with
      | cons _ hv =>
        rw [write_name, List.tail_cons, scan_name (head_write_ne hr hs _), ih hr hs hv]
        rfl
    | snippet =>
      have hr := (constant_cons.1 hc).2
      obtain ⟨-, hs⟩ := Bool.and_eq_true_iff.1 hs
      cases hv with
      | cons h hv =>
        obtain ⟨ts, hts⟩ := h rfl
        rw [write_snippet, List.tail_cons, List.headD_cons, scan_append hts (head_write_ne hr hs _), ih hr hs hv,
          lexemes_snippet, List.headD_cons, hts]
        rfl

end QueryText

/-! ## Filled lexemes -/

/-- A lexeme in which the mark of a site starts. -/
def Query.Lexeme.Marked : Lexeme → Prop
  | .plain c => c = '%'
  | .string cs => '%' ∈ cs
  | .name cs => '%' ∈ cs

/-- `Filled allowed ts vs us`: the lexemes `us` are the lexemes `ts` with the values in their sites, in order and each
in one site. A site that starts a string or a name becomes the value itself, whatever it is; in a site outside of
quotes stands one of the allowed texts, which leaves no quotes open; all else is as it was. -/
inductive Filled (allowed : List String) : List Lexeme → List String → List Lexeme → Prop where
  | nil : Filled allowed [] [] []
  | keep {x : Lexeme} {ts us : List Lexeme} {vs : List String} :
      ¬ x.Marked → Filled allowed ts vs us → Filled allowed (x :: ts) vs (x :: us)
  | string {tail : List Char} {v : String} {ts us : List Lexeme} {vs : List String} :
      '%' ∉ tail → Filled allowed ts vs us →
      Filled allowed (.string ('%' :: 's' :: tail) :: ts) (v :: vs) (.string (v.toList ++ tail) :: us)
  | name {v : String} {ts us : List Lexeme} {vs : List String} :
      Filled allowed ts vs us → Filled allowed (.name ['%', 's'] :: ts) (v :: vs) (.name v.toList :: us)
  | snippet {v : String} {ts us ws : List Lexeme} {vs : List String} :
      v ∈ allowed → lex v = some ws → Filled allowed ts vs us →
      Filled allowed (.plain '%' :: .plain 's' :: ts) (v :: vs) (ws ++ us)

theorem Filled.code {allowed : List String} {cs : List Char} {ts us : List Lexeme} {vs : List String}
    (hc : ∀ c ∈ cs, c ≠ '%') (h : Filled allowed ts vs us) :
    Filled allowed (cs.map .plain ++ ts) vs (cs.map .plain ++ us) := by
  induction cs with
  | nil => exact h
  | cons c cs ih =>
    obtain ⟨hc, hcs⟩ := List.forall_mem_cons.1 hc
    exact .keep hc (ih hcs)

/-- Only a site outside of quotes asks for something of its value. -/
def Admitted (allowed : List String) (k : Site) (v : String) : Prop := k = .snippet → v ∈ allowed

namespace QueryText

theorem toList_mark : "%s".toList = ['%', 's'] := by decide

theorem lex_mark : lex "%s" = some [.plain '%', .plain 's'] := by decide

theorem filled_lexemes {allowed : List String} {t : QueryText} (hc : t.Constant) {vs : List String}
    (hb : ∀ v ∈ allowed, ∃ ts, lex v = some ts) (hv : List.Forall₂ (Admitted allowed) t.sites vs) :
    Filled allowed (t.lexemes (t.sites.map fun _ => "%s")) vs (t.lexemes vs) := by
  induction t generalizing vs with
  | nil => cases hv; exact .nil
  | cons p r ih =>
    obtain ⟨hp, hr⟩ := constant_cons.1 hc
    cases p with
    | code s => exact (ih hr hv).code (ne_percent hp)
    | quoted s => exact .keep (fun h => ne_percent hp _ h rfl) (ih hr hv)
    | string tail =>
      cases hv with
      | cons _ hv =>
        simp only [sites_string, List.map_cons, lexemes_string, List.headD_cons, List.tail_cons, toList_mark]
        exact .string (fun h => ne_percent hp _ h rfl) (ih hr hv)
    | name =>
      cases hv with
      | cons _ hv =>
        simp only [sites_name, List.map_cons, lexemes_name, List.headD_cons, List.tail_cons, toList_mark]
        exact .name (ih hr hv)
    | snippet =>
      cases hv with
      | cons h hv =>
        obtain ⟨ts, hts⟩ := hb _ (h rfl)
        simp only [sites_snippet, List.map_cons, lexemes_snippet, List.headD_cons, List.tail_cons, lex_mark, hts,
          Option.getD_some]
        exact .snippet (h rfl) hts (ih hr hv)

/-- A well-formed text and its rendering can both be read, and the lexemes of the rendering are those of the text with
the values in their sites. -/
theorem WellFormed.lex_fill {allowed : List String} {t : QueryText} (h : t.WellFormed) {vs : List String}
    (hb : ∀ v ∈ allowed, ∃ ts, lex v = some ts) (hv : List.Forall₂ (Admitted allowed) t.sites vs) :
    ∃ ts us, lex t.text = some ts ∧ lex (fill t.text vs) = some us ∧ Filled allowed ts vs us := by
  refine ⟨_, _, ?_, ?_, filled_lexemes h.constant hb hv⟩
  · have hmarks : List.Forall₂ Balanced t.sites (t.sites.map fun _ => "%s") := by
      rw [List.forall₂_map_right_iff]
      exact List.forall₂_same.2 fun _ _ _ => ⟨_, lex_mark⟩
    rw [lex, toList_text_eq_write, scan_pieces h.constant h.spaced hmarks]
  · rw [fill_text h, lex, String.toList_ofList]
    exact scan_pieces h.constant h.spaced (hv.imp fun _ _ hk e => hb _ (hk e))

end QueryText

end ShapePlan
