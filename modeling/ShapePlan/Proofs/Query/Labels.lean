/-
The labels that a query tests. A name right after `focus:` or `x:` is tested as the label of a node. The head of a
template tests the focus label so, and the bodies of the templates for classes one label more; no other name of a
template stands after such code (`Template.unlabelled_body`).
-/
import ShapePlan.Proofs.Query.Names

namespace ShapePlan

open Query QueryText

/-! ## Label tests -/

namespace Query

/-- The code right before a label that is tested. -/
def labelMarks : List (List Char) := ["focus:".toList, "x:".toList]

/-- A label stands in a label test. -/
def TestsLabel (label : String) (ts : List Lexeme) : Prop :=
  ∃ l r, ts = l ++ .name label.toList :: r ∧ ∃ mark ∈ labelMarks, mark.map .plain <:+ l

end Query

namespace QueryText

/-- Code that makes no label test of a name behind it: it does not end with a mark, nor a mark with it. -/
structure CodeUnlabelled (s : String) : Prop where
  apart : ∀ mark ∈ labelMarks, ¬ (mark <:+ s.toList ∨ s.toList <:+ mark)

/-- The same of characters. -/
def unlabelled (l : List Char) : Bool := labelMarks.all fun mark => !(mark.isSuffixOf l || l.isSuffixOf mark)

/-- Literals are checked as lists of characters. -/
theorem codeUnlabelled_ofList {l : List Char} (h : unlabelled l = true) : CodeUnlabelled (String.ofList l) := by
  refine ⟨fun mark hm hor => ?_⟩
  have hmark := List.all_eq_true.1 h mark hm
  rw [String.toList_ofList, ← List.isSuffixOf_iff_suffix, ← List.isSuffixOf_iff_suffix, ← Bool.or_eq_true] at hor
  rw [hor] at hmark
  cases hmark

/-- Only the end of the code counts. -/
theorem CodeUnlabelled.append {t : String} (h : CodeUnlabelled t) (s : String) : CodeUnlabelled (s ++ t) := by
  have hsuffix : t.toList <:+ (s ++ t).toList := by
    rw [String.toList_append]
    exact List.suffix_append _ _
  refine ⟨fun mark hm hor => h.apart mark hm ?_⟩
  rcases hor with hmark | hcode
  · exact List.suffix_or_suffix_of_suffix hmark hsuffix
  · exact .inr (hsuffix.trans hcode)

theorem not_codeUnlabelled_empty : ¬ CodeUnlabelled "" := fun h =>
  h.apart _ List.mem_cons_self (.inr List.nil_suffix)

theorem testsLabel_of_mention {t : QueryText} {vs : List String} {m : Mention} (hm : m ∈ t.mentions vs)
    (h : ∃ mark ∈ labelMarks, mark <:+ m.before.toList) : TestsLabel m.name (t.lexemes vs) := by
  obtain ⟨l, r, hl, hbefore, -⟩ := lexemes_of_mention hm
  obtain ⟨mark, hmark, hsuffix⟩ := h
  exact ⟨l, r, hl, mark, hmark, (hsuffix.map Lexeme.plain).trans hbefore⟩

/-- A label that is tested is mentioned after code that makes the test. -/
theorem mention_of_testsLabel {t : QueryText} {vs : List String} (hv : List.Forall₂ Nameless t.sites vs)
    {label : String} (h : TestsLabel label (t.lexemes vs)) :
    ∃ m ∈ t.mentions vs, m.name = label ∧ ¬ CodeUnlabelled m.before := by
  obtain ⟨l, r, hl, mark, hmark, hsuffix⟩ := h
  obtain ⟨m, hm, hname, hbefore, -⟩ := mention_of_lexemes "" hv hl
  refine ⟨m, hm, String.toList_inj.1 hname, fun hcode => hcode.apart mark hmark ?_⟩
  exact (List.suffix_or_suffix_of_suffix hsuffix hbefore).imp suffix_of_plain suffix_of_plain

/-! ## Texts without label tests -/

/-- No name of a text that stands after code is in a label test. -/
def UnlabelledAfter (last : String) : QueryText → Prop
  | [] => True
  | .code s :: r => UnlabelledAfter s r
  | .quoted _ :: r => UnlabelledAfter "" r
  | .string _ :: r => UnlabelledAfter "" r
  | .name :: r => CodeUnlabelled last ∧ UnlabelledAfter "" r
  | .snippet :: r => UnlabelledAfter "" r

variable {last s : String} {r t u : QueryText}

theorem unlabelledAfter_nil : UnlabelledAfter last [] := trivial

theorem unlabelledAfter_code : UnlabelledAfter last (.code s :: r) ↔ UnlabelledAfter s r := Iff.rfl

theorem unlabelledAfter_quoted : UnlabelledAfter last (.quoted s :: r) ↔ UnlabelledAfter "" r := Iff.rfl

theorem unlabelledAfter_string : UnlabelledAfter last (.string s :: r) ↔ UnlabelledAfter "" r := Iff.rfl

theorem unlabelledAfter_name :
    UnlabelledAfter last (.name :: r) ↔ CodeUnlabelled last ∧ UnlabelledAfter "" r := Iff.rfl

theorem unlabelledAfter_snippet : UnlabelledAfter last (.snippet :: r) ↔ UnlabelledAfter "" r := Iff.rfl

theorem unlabelledAfter_ite {p : Prop} [Decidable p] :
    UnlabelledAfter last (if p then t else u) ↔ if p then UnlabelledAfter last t else UnlabelledAfter last u := by
  split <;> rfl

theorem UnlabelledAfter.append (ht : UnlabelledAfter last t) (hu : UnlabelledAfter "" u) :
    UnlabelledAfter last (t ++ u) := by
  induction t generalizing last with
  | nil =>
    -- a name at the start would stand after no code at all
    cases u with
    | nil => trivial
    | cons p u =>
      cases p with
      | name => exact absurd hu.1 not_codeUnlabelled_empty
      | _ => exact hu
  | cons p t ih =>
    cases p with
    | name => exact ⟨ht.1, ih ht.2⟩
    | _ => exact ih ht

theorem UnlabelledAfter.after (h : UnlabelledAfter "" t) : UnlabelledAfter last t := unlabelledAfter_nil.append h

theorem unlabelledAfter_of_sites (h : .name ∉ t.sites) : UnlabelledAfter last t := by
  induction t generalizing last with
  | nil => trivial
  | cons p t ih =>
    cases p with
    | code s => exact ih h
    | quoted s => exact ih h
    | string s => exact ih (List.not_mem_of_not_mem_cons h)
    | name => exact absurd List.mem_cons_self h
    | snippet => exact ih (List.not_mem_of_not_mem_cons h)

theorem UnlabelledAfter.of_mention (h : UnlabelledAfter last t) {vs : List String} {m : Mention}
    (hm : m ∈ t.mentionsAfter last vs) : CodeUnlabelled m.before := by
  induction t generalizing last vs with
  | nil => exact absurd hm List.not_mem_nil
  | cons p t ih =>
    cases p with
    | name =>
      rcases List.mem_cons.1 hm with rfl | hm
      · exact h.1
      · exact ih h.2 hm
    | _ => exact ih h hm

end QueryText

/-! ## Bodies -/

namespace Context

variable (c : Context) (last : String)

theorem unlabelledAfter_shown : UnlabelledAfter last c.shown := unlabelledAfter_of_sites (by simp [c.sites_shown])

theorem unlabelledAfter_shownInMessage : UnlabelledAfter last c.shownInMessage :=
  unlabelledAfter_of_sites (by simp [c.sites_shownInMessage])

theorem unlabelledAfter_nodeId : UnlabelledAfter last c.nodeId := unlabelledAfter_of_sites (by simp [c.sites_nodeId])

theorem unlabelledAfter_typeName : UnlabelledAfter last c.typeName :=
  unlabelledAfter_of_sites (by simp [c.sites_typeName])

theorem unlabelledAfter_labels : UnlabelledAfter last c.labels := unlabelledAfter_of_sites (by simp [c.sites_labels])

theorem unlabelledAfter_target : UnlabelledAfter last c.target := unlabelledAfter_of_sites (by simp [c.sites_target])

theorem unlabelledAfter_value : UnlabelledAfter last c.value := unlabelledAfter_of_sites (by simp [c.sites_value])

end Context

namespace Template

theorem unlabelled_body {t : Template} (h : t ≠ .classOf ∧ t ≠ .disjoint) (c : Context) :
    UnlabelledAfter "" (t.body c) := by
  cases t
  case classOf => exact absurd rfl h.1
  case disjoint => exact absurd rfl h.2
  all_goals
    simp only [body]
    repeat' apply UnlabelledAfter.append
  all_goals
    simp only [unlabelledAfter_nil, unlabelledAfter_code, unlabelledAfter_quoted, unlabelledAfter_string,
      unlabelledAfter_name, unlabelledAfter_snippet, c.unlabelledAfter_shown, c.unlabelledAfter_shownInMessage,
      c.unlabelledAfter_nodeId, c.unlabelledAfter_typeName, c.unlabelledAfter_labels, c.unlabelledAfter_target,
      c.unlabelledAfter_value, unlabelledAfter_ite, ite_self, and_true]
  -- what is left is the code before names, one by one
  all_goals and_intros <;> try exact codeUnlabelled_ofList (by decide)
  all_goals exact (codeUnlabelled_ofList (by decide)).append _

theorem unlabelled_of_body {t : Template} {c : Context} {s : String} {r : QueryText}
    (hbody : t.body c = .code s :: .name :: r) (hsites : .name ∉ (t.body {}).sites.tail) : UnlabelledAfter "" r := by
  have hcons : (t.body {}).sites = .name :: r.sites := by
    rw [← t.sites_body c, hbody]
    rfl
  rw [hcons] at hsites
  exact unlabelledAfter_of_sites hsites

/-- The bodies that test a label do it at their start, and test no other. -/
theorem body_classOf (c : Context) : ∃ r, body c .classOf = .code "NOT x:" :: .name :: r ∧ UnlabelledAfter "" r :=
  ⟨_, rfl, unlabelled_of_body (t := .classOf) (c := c) rfl (by decide)⟩

theorem body_disjoint (c : Context) : ∃ r, body c .disjoint = .code " focus:" :: .name :: r ∧ UnlabelledAfter "" r :=
  ⟨_, rfl, unlabelled_of_body (t := .disjoint) (c := c) rfl (by decide)⟩

/-! ## Templates -/

/-- The sites whose values are tested as labels. -/
def labelSites : Template → List Nat
  | .classOf => [0, 2]
  | .disjoint => [0, 1]
  | .datatype | .datatypeOnRelationship | .literalNodeKind | .iriNodeKind | .classOnProperty => [0]
  | _ => [1]

theorem headD_drop (vs : List String) (k : Nat) : (vs.drop k).headD "" = vs.getD k "" := by
  rw [List.headD_eq_head?_getD, List.head?_drop, List.getD_eq_getElem?_getD]

/-- The head tests the focus label, and the other names are those of the rest. -/
theorem mention_of_head {t : Template} {r : QueryText} {vs : List String} {m : Mention}
    (hm : m ∈ mentions (t.head ++ r) vs) : CodeUnlabelled m.before ∨
      m.name = vs.getD (if t.head = bindParams then 1 else 0) "" ∨
      ∃ last, m ∈ mentionsAfter last r (vs.drop t.head.sites.length) := by
  have hdrop : vs.tail.tail = vs.drop 2 := by rw [← List.drop_one, ← List.drop_one, List.drop_drop]
  rcases t.head_cases with h | h | h <;> rw [h] at hm ⊢
  · rw [if_neg matchFocus_ne_bindParams]
    rcases List.mem_cons.1 hm with rfl | hm
    · exact .inr (.inl (headD_drop vs 0))
    · exact .inr (.inr ⟨") WHERE ", List.drop_one ▸ hm⟩)
  · rw [if_neg matchRelationship_ne_bindParams]
    rcases List.mem_cons.1 hm with rfl | hm
    · exact .inr (.inl (headD_drop vs 0))
    rcases List.mem_cons.1 hm with rfl | hm
    · exact .inl (codeUnlabelled_ofList (by decide))
    · exact .inr (.inr ⟨"]->(x) WHERE ", hdrop ▸ hm⟩)
  · rw [if_pos rfl]
    rcases List.mem_cons.1 hm with rfl | hm
    · exact .inl (codeUnlabelled_ofList (by decide))
    rcases List.mem_cons.1 hm with rfl | hm
    · exact .inr (.inl (List.drop_one ▸ headD_drop vs 1))
    · exact .inr (.inr ⟨") WHERE ", hdrop ▸ hm⟩)

/-- A body that starts with a label test has its label at the first site. -/
theorem mention_of_test {last code : String} {r : QueryText} {vs : List String} {m : Mention}
    (hr : UnlabelledAfter "" r) (hm : m ∈ mentionsAfter last (.code code :: .name :: r) vs) :
    CodeUnlabelled m.before ∨ m.name = vs.headD "" := by
  rcases List.mem_cons.1 hm with rfl | hm
  · exact .inr rfl
  · exact .inl (hr.of_mention hm)

/-- A name of a template is in a label test only at the sites for labels. -/
theorem mention_of_queryText {t : Template} {c : Context} {s : Scope} {vs : List String} {m : Mention}
    (hm : m ∈ (t.queryText c s).mentions vs) :
    CodeUnlabelled m.before ∨ ∃ i ∈ t.labelSites, m.name = vs.getD i "" := by
  have htext : ∃ rest, t.queryText c s = t.head ++ rest ∧
      ∀ last vs, ∃ last', mentionsAfter last rest vs = mentionsAfter last' (t.body c) vs := by
    cases s with
    | global => exact ⟨_, rfl, fun last vs => ⟨last, rfl⟩⟩
    | touched => exact ⟨_, List.append_assoc _ _ _, fun last vs => ⟨touchedFilter, rfl⟩⟩
  obtain ⟨rest, htext, hrest⟩ := htext
  rw [htext] at hm
  rcases mention_of_head hm with hcode | hname | ⟨last, hm⟩
  · exact .inl hcode
  · have hsite : (if t.head = bindParams then 1 else 0) ∈ t.labelSites := by cases t <;> decide
    exact .inr ⟨_, hsite, hname⟩
  · obtain ⟨last', hlast⟩ := hrest last (vs.drop t.head.sites.length)
    rw [hlast] at hm
    by_cases hclass : t = .classOf
    · subst hclass
      obtain ⟨r, hbody, hr⟩ := body_classOf c
      rw [hbody] at hm
      exact (mention_of_test hr hm).imp_right fun hname => ⟨2, by decide, hname.trans (headD_drop vs 2)⟩
    by_cases hdisjoint : t = .disjoint
    · subst hdisjoint
      obtain ⟨r, hbody, hr⟩ := body_disjoint c
      rw [hbody] at hm
      exact (mention_of_test hr hm).imp_right fun hname => ⟨1, by decide, hname.trans (headD_drop vs 1)⟩
    · exact .inl ((unlabelled_body ⟨hclass, hdisjoint⟩ c).after.of_mention hm)

/-- A rendering tests no other labels than the values of the sites for labels. -/
theorem site_of_testsLabel {t : Template} {c : Context} {s : Scope} {vs : List String}
    (hv : List.Forall₂ Nameless (t.queryText c s).sites vs) {label : String}
    (h : TestsLabel label ((t.queryText c s).lexemes vs)) : ∃ i ∈ t.labelSites, vs.getD i "" = label := by
  obtain ⟨m, hm, rfl, hcode⟩ := mention_of_testsLabel hv h
  obtain ⟨i, hi, hname⟩ := (mention_of_queryText hm).resolve_left hcode
  exact ⟨i, hi, hname.symm⟩

end Template

end ShapePlan
