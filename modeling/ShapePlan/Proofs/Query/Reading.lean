/-
The parameters that a query reads. Outside of quotes `params.` and a name read the parameter of that name. Where a text
is cut next to a character that belongs to no name, nothing is read across the cut, so that what a query reads is read
by its pieces (`ReadsOnly.lexemes`); the pieces of each template read its keys and nothing else.
-/
import ShapePlan.Proofs.Query.Template

namespace ShapePlan

namespace Query

/-! ## Reading parameters -/

def isNameChar (c : Char) : Bool := c.isAlphanum || c = '_' || 127 < c.toNat

/-- The name at the start of lexemes. -/
def nameAt : List Lexeme → List Char
  | .plain c :: r => if isNameChar c then c :: nameAt r else []
  | _ => []

/-- What follows a constant text at the start of lexemes. -/
def after? : List Char → List Lexeme → Option (List Lexeme)
  | [], ts => some ts
  | m :: ms, .plain c :: ts => if c = m then after? ms ts else none
  | _ :: _, _ => none

def paramsMark : List Char := ['p', 'a', 'r', 'a', 'm', 's', '.']

/-- The names of the parameters that are read, in the order in which they stand outside of quotes. -/
def paramsRead : List Lexeme → List String
  | [] => []
  | x :: r => ((after? paramsMark (x :: r)).map fun ts => String.ofList (nameAt ts)).toList ++ paramsRead r

/-! ## Cuts -/

/-- A lexeme that is no part of the reading of a parameter. -/
def Lexeme.isApart : Lexeme → Bool
  | .plain c => !isNameChar c && c ≠ '.'
  | _ => true

theorem nameAt_apart {x : Lexeme} (hx : x.isApart = true) (a b : List Lexeme) :
    nameAt (a ++ x :: b) = nameAt a := by
  induction a with
  | nil =>
    cases x with
    | plain c =>
      have hc : isNameChar c = false := by simpa using (Bool.and_eq_true_iff.1 hx).1
      simp [nameAt, hc]
    | string _ => rfl
    | name _ => rfl
  | cons y a ih =>
    cases y with
    | plain c => simp [nameAt, ih]
    | string _ => rfl
    | name _ => rfl

theorem after?_apart {x : Lexeme} {ms : List Char} (hx : ∀ m ∈ ms, x ≠ .plain m) (a b : List Lexeme) :
    after? ms (a ++ x :: b) = (after? ms a).map (· ++ x :: b) := by
  induction ms generalizing a with
  | nil => rfl
  | cons m ms ih =>
    obtain ⟨hm, hms⟩ := List.forall_mem_cons.1 hx
    cases a with
    | nil =>
      cases x with
      | plain c => exact if_neg fun h => hm (congrArg _ h)
      | string _ => rfl
      | name _ => rfl
    | cons y a =>
      cases y with
      | plain c =>
        simp only [List.cons_append, after?, ih hms]
        split <;> rfl
      | string _ => rfl
      | name _ => rfl

theorem ne_paramsMark {x : Lexeme} (hx : x.isApart = true) : ∀ m ∈ paramsMark, x ≠ .plain m := by
  have hmark : (paramsMark.all fun m => !(Lexeme.plain m).isApart) = true := by decide
  rintro m hm rfl
  have hm' := List.all_eq_true.1 hmark m hm
  rw [hx] at hm'
  cases hm'

theorem paramsRead_apart {x : Lexeme} (hx : x.isApart = true) (a b : List Lexeme) :
    paramsRead (a ++ x :: b) = paramsRead a ++ paramsRead b := by
  induction a with
  | nil =>
    have hnone : after? paramsMark (x :: b) = none := after?_apart (ne_paramsMark hx) [] b
    simp [paramsRead, hnone]
  | cons y a ih =>
    have hafter := after?_apart (ne_paramsMark hx) (y :: a) b
    rw [List.cons_append] at hafter
    simp only [List.cons_append, paramsRead, hafter, ih, Option.map_map, List.append_assoc]
    congr 3
    funext ts
    exact congrArg String.ofList (nameAt_apart hx ts b)

/-- Lexemes are read on their own if a lexeme next to the cut is apart. -/
theorem paramsRead_append {a b : List Lexeme}
    (h : a.getLast?.all Lexeme.isApart = true ∨ b.head?.all Lexeme.isApart = true) :
    paramsRead (a ++ b) = paramsRead a ++ paramsRead b := by
  rcases h with h | h
  · rcases List.eq_nil_or_concat a with rfl | ⟨a, x, rfl⟩
    · rfl
    · rw [List.concat_eq_append, List.getLast?_concat] at h
      rw [List.concat_eq_append, List.append_assoc, List.singleton_append, paramsRead_apart h, paramsRead_apart h,
        paramsRead, List.append_nil]
  · cases b with
    | nil => simp [paramsRead]
    | cons x b =>
      have hx := paramsRead_apart h [] b
      rw [List.nil_append, paramsRead, List.nil_append] at hx
      rw [paramsRead_apart h, hx]

end Query

open Query

/-! ## Texts -/

def EndsApart (s : String) : Prop := (s.toList.map Lexeme.plain).getLast?.all Lexeme.isApart = true

/-- Code that reads only the keys. -/
def CodeReads (keys : List String) (s : String) : Prop := ∀ k ∈ paramsRead (s.toList.map .plain), k ∈ keys

/-- The same of characters: wherever `params.` stands, one of the names follows. -/
def readsAmong (names : List (List Char)) : List Char → Bool
  | [] => true
  | c :: r =>
    (!paramsMark.isPrefixOf (c :: r) || names.contains ((r.drop 6).takeWhile isNameChar)) && readsAmong names r

theorem nameAt_plain (l : List Char) : nameAt (l.map .plain) = l.takeWhile isNameChar := by
  induction l with
  | nil => rfl
  | cons c r ih => rw [List.map_cons, nameAt, List.takeWhile_cons, ih]

theorem after?_plain (ms l : List Char) :
    after? ms (l.map .plain) = if ms.isPrefixOf l then some ((l.drop ms.length).map .plain) else none := by
  induction ms generalizing l with
  | nil => rfl
  | cons m ms ih =>
    cases l with
    | nil => rfl
    | cons c r =>
      by_cases hc : c = m
      · simp [after?, hc, ih]
      · simp [after?, hc, Ne.symm hc]

/-- Literals are checked as lists of characters. -/
theorem codeReads_ofList {keys : List String} {names : List (List Char)} (hk : ∀ k ∈ names, String.ofList k ∈ keys)
    {l : List Char} (h : readsAmong names l = true) : CodeReads keys (String.ofList l) := by
  rw [CodeReads, String.toList_ofList]
  induction l with
  | nil => exact List.forall_mem_nil _
  | cons c r ih =>
    obtain ⟨hc, hr⟩ := Bool.and_eq_true_iff.1 h
    rw [List.map_cons, paramsRead, ← List.map_cons, after?_plain, List.forall_mem_append]
    refine ⟨?_, ih hr⟩
    split
    · next hmark =>
      rw [hmark, Bool.not_true, Bool.false_or, List.contains_iff_mem] at hc
      rw [Option.map_some, nameAt_plain, Option.toList_some, List.forall_mem_singleton]
      exact hk _ hc
    · exact List.forall_mem_nil _

theorem codeReads_none {keys : List String} {l : List Char} (h : readsAmong [] l = true) :
    CodeReads keys (String.ofList l) :=
  codeReads_ofList (List.forall_mem_nil _) h

theorem codeReads_key {keys : List String} {k : List Char} (hk : String.ofList k ∈ keys) {l : List Char}
    (h : readsAmong [k] l = true) : CodeReads keys (String.ofList l) :=
  codeReads_ofList (List.forall_mem_singleton.2 hk) h

theorem CodeReads.append {keys : List String} {s t : String} (hs : CodeReads keys s) (ht : CodeReads keys t)
    (hcut : EndsApart s) : CodeReads keys (s ++ t) := by
  rw [CodeReads, String.toList_append, List.map_append, paramsRead_append (.inl hcut)]
  exact List.forall_mem_append.2 ⟨hs, ht⟩

theorem endsApart_ofList {l : List Char} (h : (l.map Lexeme.plain).getLast?.all Lexeme.isApart = true) :
    EndsApart (String.ofList l) := by
  rw [EndsApart, String.toList_ofList]
  exact h

theorem EndsApart.append {s t : String} (hs : EndsApart s) (ht : EndsApart t) : EndsApart (s ++ t) := by
  unfold EndsApart at *
  rw [String.toList_append, List.map_append, List.getLast?_append]
  cases h : (t.toList.map Lexeme.plain).getLast? with
  | none => exact hs
  | some x => rw [h] at ht; exact ht

namespace QueryText

/-- A text whose renderings start apart. -/
def StartsApart : QueryText → Prop
  | .code s :: _ => (s.toList.map Lexeme.plain).head?.any Lexeme.isApart = true
  | .snippet :: _ => False
  | _ => True

theorem startsApart_nil : StartsApart [] = True := rfl
theorem startsApart_quoted (s : String) (r : QueryText) : StartsApart (.quoted s :: r) = True := rfl
theorem startsApart_string (s : String) (r : QueryText) : StartsApart (.string s :: r) = True := rfl
theorem startsApart_name (r : QueryText) : StartsApart (.name :: r) = True := rfl

theorem startsApart_ofList {l : List Char} (h : (l.map Lexeme.plain).head?.any Lexeme.isApart = true) (r : QueryText) :
    StartsApart (.code (String.ofList l) :: r) := by
  rw [StartsApart, String.toList_ofList]
  exact h

theorem StartsApart.lexemes {t : QueryText} (h : StartsApart t) (vs : List String) :
    (t.lexemes vs).head?.all Lexeme.isApart = true := by
  cases t with
  | nil => rfl
  | cons p r =>
    cases p with
    | code s =>
      rw [StartsApart] at h
      rw [QueryText.lexemes, List.head?_append]
      cases hs : (s.toList.map Lexeme.plain).head? with
      | none => rw [hs] at h; cases h
      | some x => rw [hs] at h; exact h
    | snippet => exact h.elim
    | _ => rfl

/-- The code of a text reads only the keys, and wherever two pieces meet one of them is apart. -/
def ReadsOnly (keys : List String) : QueryText → Prop
  | [] => True
  | .code s :: r => CodeReads keys s ∧ (EndsApart s ∨ StartsApart r) ∧ ReadsOnly keys r
  | .snippet :: r => StartsApart r ∧ ReadsOnly keys r
  | _ :: r => ReadsOnly keys r

section

variable (keys : List String) (s : String) (r : QueryText)

theorem readsOnly_nil : ReadsOnly keys [] = True := rfl
theorem readsOnly_code : ReadsOnly keys (.code s :: r) =
    (CodeReads keys s ∧ (EndsApart s ∨ StartsApart r) ∧ ReadsOnly keys r) := rfl
theorem readsOnly_quoted : ReadsOnly keys (.quoted s :: r) = ReadsOnly keys r := rfl
theorem readsOnly_string : ReadsOnly keys (.string s :: r) = ReadsOnly keys r := rfl
theorem readsOnly_name : ReadsOnly keys (.name :: r) = ReadsOnly keys r := rfl
theorem readsOnly_snippet : ReadsOnly keys (.snippet :: r) = (StartsApart r ∧ ReadsOnly keys r) := rfl

end

/-- A value that is put outside of quotes and reads only the keys. -/
def SnippetReads (keys : List String) (v : String) : Prop := ∃ ts, lex v = some ts ∧ ∀ key ∈ paramsRead ts, key ∈ keys

/-- Only a site outside of quotes asks for something of its value. -/
def SiteReads (keys : List String) (k : Site) (v : String) : Prop := k = .snippet → SnippetReads keys v

/-- What a rendering reads is read by its pieces. -/
theorem ReadsOnly.lexemes {keys : List String} {t : QueryText} (h : ReadsOnly keys t) {vs : List String}
    (hv : List.Forall₂ (SiteReads keys) t.sites vs) : ∀ key ∈ paramsRead (t.lexemes vs), key ∈ keys := by
  induction t generalizing vs with
  | nil => exact List.forall_mem_nil _
  | cons p r ih =>
    cases p with
    | code s =>
      obtain ⟨hs, hcut, hr⟩ := h
      have hcut := hcut.imp_right fun hr => hr.lexemes vs
      rw [QueryText.lexemes, paramsRead_append hcut, List.forall_mem_append]
      exact ⟨hs, ih hr hv⟩
    | quoted s =>
      rw [QueryText.lexemes, ← List.nil_append (_ :: _), paramsRead_apart rfl]
      exact ih h hv
    | string tail =>
      cases hv with
      | cons _ hv =>
        rw [QueryText.lexemes, ← List.nil_append (_ :: _), paramsRead_apart rfl]
        exact ih h hv
    | name =>
      cases hv with
      | cons _ hv =>
        rw [QueryText.lexemes, ← List.nil_append (_ :: _), paramsRead_apart rfl]
        exact ih h hv
    | snippet =>
      cases hv with
      | cons hs hv =>
        obtain ⟨ts, hts, hreads⟩ := hs rfl
        rw [lexemes_snippet, List.headD_cons, List.tail_cons, hts, Option.getD_some,
          paramsRead_append (.inr (h.1.lexemes _)), List.forall_mem_append]
        exact ⟨hreads, ih h.2 hv⟩

end QueryText

open QueryText

/-! ## Templates -/

namespace QueryText

/-- Code that reads nothing and ends apart can stand before anything. -/
theorem readsOnly_quiet {l : List Char}
    (h : (readsAmong [] l && (l.map Lexeme.plain).getLast?.all Lexeme.isApart) = true)
    (keys : List String) (r : QueryText) : ReadsOnly keys (.code (String.ofList l) :: r) ↔ ReadsOnly keys r := by
  obtain ⟨hreads, hend⟩ := Bool.and_eq_true_iff.1 h
  rw [readsOnly_code, and_iff_right (codeReads_none hreads),
    and_iff_right (.inl (endsApart_ofList hend))]

/-- Code that reads nothing can stand before what is apart. -/
theorem readsOnly_before {l : List Char} (h : readsAmong [] l = true) {r : QueryText} (hr : StartsApart r)
    (keys : List String) : ReadsOnly keys (.code (String.ofList l) :: r) ↔ ReadsOnly keys r := by
  rw [readsOnly_code, and_iff_right (codeReads_none h), and_iff_right (.inr hr)]

theorem readsOnly_ite {p : Prop} [Decidable p] (keys : List String) (t u r : QueryText) :
    ReadsOnly keys ((if p then t else u) ++ r) = if p then ReadsOnly keys (t ++ r) else ReadsOnly keys (u ++ r) := by
  split <;> rfl

end QueryText

namespace Context

variable (c : Context) (keys : List String) (r : QueryText)

theorem readsOnly_nodeId : ReadsOnly keys (c.nodeId ++ r) ↔ ReadsOnly keys r := by
  unfold nodeId
  split <;> exact readsOnly_quiet (by decide) keys r

theorem readsOnly_target : ReadsOnly keys (c.target ++ r) ↔ ReadsOnly keys r := by
  unfold target
  split <;> exact readsOnly_quiet (by decide) keys r

theorem readsOnly_shown : ReadsOnly keys (c.shown ++ r) ↔ ReadsOnly keys r := by
  unfold shown
  split <;> exact (readsOnly_quiet (by decide) keys _).trans (readsOnly_quiet (by decide) keys r)

theorem readsOnly_shownInMessage : ReadsOnly keys (c.shownInMessage ++ r) ↔ ReadsOnly keys r := by
  unfold shownInMessage
  split <;> exact (readsOnly_quiet (by decide) keys _).trans (readsOnly_quiet (by decide) keys r)

theorem readsOnly_typeName : ReadsOnly keys (c.typeName ++ r) ↔ ReadsOnly keys r :=
  (readsOnly_quiet (by decide) keys _).trans (readsOnly_quiet (by decide) keys r)

theorem readsOnly_labels : ReadsOnly keys (c.labels ++ r) ↔ ReadsOnly keys r := by
  unfold labels
  split
  · exact (readsOnly_quiet (by decide) keys _).trans (readsOnly_quiet (by decide) keys r)
  · exact readsOnly_quiet (by decide) keys r

/-- The identity of a value ends with a name, so it needs what follows to be apart. -/
theorem readsOnly_value : ReadsOnly keys (c.value ++ .code " as offendingValue, " :: r) ↔
    ReadsOnly keys (.code " as offendingValue, " :: r) := by
  unfold value
  split <;> exact readsOnly_before (by decide) (startsApart_ofList (by decide) r) keys

theorem readsOnly_returnsOf {node : QueryText}
    (h : ∀ r, ReadsOnly keys (node ++ .code " as nodeId, " :: r) ↔ ReadsOnly keys r) (s : String) :
    ReadsOnly keys (c.returnsOf node s ++ r) ↔ ReadsOnly keys r := by
  rw [returnsOf]
  simp only [List.append_assoc, List.cons_append, List.nil_append]
  refine (readsOnly_quiet (by decide) keys _).trans ((h _).trans ((c.readsOnly_shown keys _).trans ?_))
  refine (readsOnly_quiet (by decide) keys _).trans ((readsOnly_quiet (by decide) keys _).trans ?_)
  exact readsOnly_quiet (by decide) keys r

theorem readsOnly_returns (s : String) : ReadsOnly keys (c.returns s ++ r) ↔ ReadsOnly keys r :=
  c.readsOnly_returnsOf keys r
    (fun _ => (c.readsOnly_nodeId keys _).trans (readsOnly_quiet (by decide) keys _)) s

theorem readsOnly_returnsOfIri (s : String) :
    ReadsOnly keys (c.returnsOf [.code " focus.uri"] s ++ r) ↔ ReadsOnly keys r := by
  refine c.readsOnly_returnsOf keys r (fun r => ?_) s
  exact (readsOnly_before (by decide) (startsApart_ofList (by decide) _) keys).trans
    (readsOnly_quiet (by decide) keys r)

theorem startsApart_returns (s : String) : StartsApart (c.returns s ++ r) := startsApart_ofList (by decide) _

end Context

namespace Template

/-- The parameters that a template reads, itself or in the bounds that are put into it. -/
def keys : Template → List String
  | .pattern => ["theRegex"]
  | .hasValueTypeLabel => ["theHasTypeTranslatedUris"]
  | .hasValueTypeEdge => ["theHasTypeUris"]
  | .hasValueIri => ["theHasValueUri"]
  | .hasValueLiteral => ["theHasValueLiteral"]
  | .inLiterals => ["theInLiterals"]
  | .inIris => ["theInUris"]
  | .inTypeLabel => ["theInTypeTranslatedUris"]
  | .inTypeEdge => ["theInTypeUris"]
  | .minCount | .minCountTypeLabel | .minCountTypeEdge | .minCountInverse => ["minCount"]
  | .maxCount | .maxCountTypeLabel | .maxCountTypeEdge | .maxCountInverse => ["maxCount"]
  | .length => ["minStrLen", "maxStrLen"]
  | .valueRange => ["min", "max"]
  | .closed => ["allAllowedProps"]
  | _ => []

theorem readsOnly_body (t : Template) (c : Context) : ReadsOnly t.keys (t.body c) := by
  cases t <;> simp only [body, keys, property, List.append_assoc, List.cons_append, List.nil_append, readsOnly_nil,
    readsOnly_code, readsOnly_quoted, readsOnly_string, readsOnly_name, readsOnly_snippet, readsOnly_ite,
    startsApart_nil, startsApart_quoted, startsApart_string, startsApart_name, c.startsApart_returns,
    c.readsOnly_shown, c.readsOnly_shownInMessage, c.readsOnly_typeName, c.readsOnly_labels, c.readsOnly_target,
    c.readsOnly_value, c.readsOnly_nodeId, c.readsOnly_returns, c.readsOnly_returnsOfIri, or_true, and_true, true_and]
  all_goals repeat' split
  all_goals and_intros
  -- two literals are put together of two
  all_goals try with_reducible refine CodeReads.append ?_ ?_ ?_
  all_goals try with_reducible refine Or.inl (EndsApart.append ?_ ?_)
  all_goals with_reducible first
    | exact codeReads_none (by decide)
    | exact codeReads_key List.mem_cons_self (by decide)
    | exact endsApart_ofList (by decide)
    | exact Or.inl (endsApart_ofList (by decide))
    | exact startsApart_ofList (by decide) _

theorem readsOnly_head (t : Template) (keys : List String) (r : QueryText) :
    ReadsOnly keys (t.head ++ r) ↔ ReadsOnly keys r := by
  rcases t.head_cases with h | h | h <;> rw [h]
  · exact (readsOnly_quiet (by decide) keys _).trans (readsOnly_quiet (by decide) keys r)
  · exact (readsOnly_quiet (by decide) keys _).trans
      ((readsOnly_quiet (by decide) keys _).trans (readsOnly_quiet (by decide) keys r))
  · exact (readsOnly_quiet (by decide) keys _).trans
      ((readsOnly_quiet (by decide) keys _).trans (readsOnly_quiet (by decide) keys r))

theorem readsOnly_queryText (t : Template) (c : Context) (s : Scope) : ReadsOnly t.keys (t.queryText c s) := by
  cases s with
  | global =>
    rw [queryText, readsOnly_head]
    exact readsOnly_body t c
  | touched =>
    rw [queryText, List.append_assoc, readsOnly_head]
    exact (readsOnly_quiet (by decide) t.keys _).2 (readsOnly_body t c)

end Template

/-! ## Binding a parameter set -/

/-- The lexemes start by binding a parameter set. -/
def Query.Binds (set : String) (ts : List Lexeme) : Prop :=
  "WITH $".toList.map .plain ++ .name set.toList :: " as params".toList.map .plain <+: ts

theorem Query.binds_cons {set v : String} {ts : List Lexeme} :
    Binds set ("WITH $".toList.map .plain ++ .name v.toList :: (" as params".toList.map .plain ++ ts)) ↔ v = set := by
  rw [Binds, List.prefix_append_right_inj, List.cons_prefix_cons, Lexeme.name.injEq, String.toList_inj]
  exact ⟨fun h => h.1.symm, fun h => ⟨h.symm, List.prefix_append _ _⟩⟩

theorem Query.not_binds_match {set : String} {ts : List Lexeme} :
    ¬ Binds set ("MATCH (focus:".toList.map .plain ++ ts) := by
  simp [Binds]

namespace Template

theorem queryText_eq_head_append (t : Template) (c : Context) (s : Scope) : ∃ r, t.queryText c s = t.head ++ r := by
  cases s with
  | global => exact ⟨_, rfl⟩
  | touched => exact ⟨_, List.append_assoc _ _ _⟩

/-- A query binds a parameter set if its template does, and it is the first value. -/
theorem binds_iff {t : Template} {c : Context} {s : Scope} {vs : List String} {set : String} :
    Binds set ((t.queryText c s).lexemes vs) ↔ t.head = bindParams ∧ vs.headD "" = set := by
  obtain ⟨r, hr⟩ := t.queryText_eq_head_append c s
  rw [hr]
  rcases t.head_cases with h | h | h <;> rw [h]
  · exact iff_of_false not_binds_match fun h => matchFocus_ne_bindParams h.1
  · exact iff_of_false not_binds_match fun h => matchRelationship_ne_bindParams h.1
  · have htext : (bindParams ++ r).lexemes vs = "WITH $".toList.map .plain ++ .name (vs.headD "").toList ::
        (" as params".toList.map .plain ++ (" MATCH (focus:".toList.map .plain ++
          lexemes (.name :: .code ") WHERE " :: r) vs.tail)) := by
      simp [bindParams, lexemes]
    rw [htext, binds_cons, and_iff_right rfl]

end Template

end ShapePlan
