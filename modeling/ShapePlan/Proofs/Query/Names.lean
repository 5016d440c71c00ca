/-
The names of a query and the arrows around them. Whether a quoted name is a label, a parameter set or a path, and in
which direction a path is followed, is told by the code right before and after it (`NameUse`). The names of a rendering
are those of the name pieces of its text, each between the code of the pieces next to it (`mentions`); and a text
without incoming arrows in its code is rendered without any.
-/
import ShapePlan.Proofs.Query.Template

namespace ShapePlan

namespace Query

/-! ## Uses of names -/

inductive NameUse where
  | parameterSet
  /-- A label of the focus node. -/
  | label
  /-- A relationship to the focus node. -/
  | incoming
  /-- A relationship from the focus node. -/
  | outgoing
  /-- A relationship from the focus node that is bound. -/
  | matched
  /-- A property of the focus node. -/
  | property
deriving DecidableEq, Repr

namespace NameUse

/-- The code before the name. -/
def before : NameUse → String
  | .parameterSet => "WITH $"
  | .label => "(focus:"
  | .incoming => "(focus)<-[:"
  | .outgoing => "(focus)-[:"
  | .matched => ")-[r:"
  | .property => "focus."

/-- The code after the name. -/
def after : NameUse → String
  | .incoming => "]-()"
  | .outgoing => "]->"
  | .matched => "]->(x)"
  | _ => ""

/-- A name between these lexemes is used so. -/
def Fits (u : NameUse) (l r : List Lexeme) : Prop :=
  u.before.toList.map .plain <:+ l ∧ u.after.toList.map .plain <+: r

end NameUse

/-! ## Arrows -/

/-- No arrow comes in: after each `<` stands something other than `-`. -/
def Unarrowed : List Lexeme → Prop
  | [] => True
  | x :: r => (x = .plain '<' → ∃ y s, r = y :: s ∧ y ≠ .plain '-') ∧ Unarrowed r

theorem Unarrowed.append {a b : List Lexeme} (ha : Unarrowed a) (hb : Unarrowed b) : Unarrowed (a ++ b) := by
  induction a with
  | nil => exact hb
  | cons x r ih =>
    obtain ⟨hx, hr⟩ := ha
    refine ⟨fun h => ?_, ih hr⟩
    obtain ⟨y, s, rfl, hy⟩ := hx h
    exact ⟨y, s ++ b, rfl, hy⟩

theorem unarrowed_string (cs : List Char) : Unarrowed [.string cs] := ⟨nofun, trivial⟩

theorem unarrowed_name (cs : List Char) : Unarrowed [.name cs] := ⟨nofun, trivial⟩

theorem Unarrowed.not_infix {ts : List Lexeme} (h : Unarrowed ts) : ¬ [.plain '<', .plain '-'] <:+: ts := by
  rintro ⟨a, b, rfl⟩
  induction a with
  | nil =>
    obtain ⟨y, s, hs, hy⟩ := h.1 rfl
    exact hy (List.cons.inj hs).1.symm
  | cons x a ih => exact ih h.2

/-- The same of characters. -/
def unarrowed : List Char → Bool
  | [] => true
  | c :: r => (c ≠ '<' || r.head?.any (· ≠ '-')) && unarrowed r

theorem unarrowed_plain {l : List Char} (h : unarrowed l = true) : Unarrowed (l.map .plain) := by
  induction l with
  | nil => trivial
  | cons c r ih =>
    obtain ⟨hc, hr⟩ := Bool.and_eq_true_iff.1 h
    refine ⟨fun hlt => ?_, ih hr⟩
    cases hlt
    cases r with
    | nil => cases hc
    | cons d r => exact ⟨.plain d, r.map .plain, rfl, fun hd => by cases hd; cases hc⟩

end Query

open Query

namespace QueryText

/-- Code without incoming arrows. -/
structure CodeUnarrowed (s : String) : Prop where
  lexemes : Unarrowed (s.toList.map .plain)

/-- Literals are checked as lists of characters. -/
theorem codeUnarrowed_ofList {l : List Char} (h : unarrowed l = true) : CodeUnarrowed (String.ofList l) := by
  constructor
  rw [String.toList_ofList]
  exact unarrowed_plain h

theorem CodeUnarrowed.append {s t : String} (hs : CodeUnarrowed s) (ht : CodeUnarrowed t) : CodeUnarrowed (s ++ t) := by
  constructor
  rw [String.toList_append, List.map_append]
  exact hs.lexemes.append ht.lexemes

/-- All code of a text is without incoming arrows. -/
def Undirected (t : QueryText) : Prop := ∀ s, .code s ∈ t → CodeUnarrowed s

@[simp] theorem undirected_nil : Undirected [] := nofun

@[simp] theorem undirected_append {t u : QueryText} : Undirected (t ++ u) ↔ Undirected t ∧ Undirected u := by
  simp only [Undirected, List.mem_append, or_imp, forall_and]

@[simp] theorem undirected_code {s : String} {r : QueryText} :
    Undirected (.code s :: r) ↔ CodeUnarrowed s ∧ Undirected r := by
  simp [Undirected]

@[simp] theorem undirected_quoted {s : String} {r : QueryText} : Undirected (.quoted s :: r) ↔ Undirected r := by
  simp [Undirected]

@[simp] theorem undirected_string {s : String} {r : QueryText} : Undirected (.string s :: r) ↔ Undirected r := by
  simp [Undirected]

@[simp] theorem undirected_name {r : QueryText} : Undirected (.name :: r) ↔ Undirected r := by
  simp [Undirected]

@[simp] theorem undirected_snippet {r : QueryText} : Undirected (.snippet :: r) ↔ Undirected r := by
  simp [Undirected]

/-- What is rendered of a text without arrows is without arrows, if the values outside of quotes are. -/
theorem Undirected.lexemes {t : QueryText} (h : t.Undirected) {vs : List String}
    (hv : List.Forall₂ (fun k v => k = Site.snippet → Unarrowed ((lex v).getD [])) t.sites vs) :
    Unarrowed (t.lexemes vs) := by
  induction t generalizing vs with
  | nil => trivial
  | cons p r ih =>
    cases p with
    | code s =>
      obtain ⟨hs, hr⟩ := undirected_code.1 h
      exact hs.lexemes.append (ih hr hv)
    | quoted s => exact (unarrowed_string _).append (ih (undirected_quoted.1 h) hv)
    | string tail =>
      cases hv with
      | cons _ hv => exact (unarrowed_string _).append (ih (undirected_string.1 h) hv)
    | name =>
      cases hv with
      | cons _ hv => exact (unarrowed_name _).append (ih (undirected_name.1 h) hv)
    | snippet =>
      cases hv with
      | cons hs hv => exact (hs rfl).append (ih (undirected_snippet.1 h) hv)

end QueryText

open QueryText

/-! ## Templates without arrows -/

namespace Context

variable (c : Context)

theorem undirected_nodeId : c.nodeId.Undirected := by
  unfold nodeId
  split <;> simp only [undirected_code, undirected_nil, and_true] <;> exact codeUnarrowed_ofList (by decide)

theorem undirected_shown : c.shown.Undirected := by
  unfold shown
  split <;> simp only [undirected_code, undirected_string, undirected_nil, and_true] <;> and_intros <;>
    exact codeUnarrowed_ofList (by decide)

theorem undirected_shownInMessage : c.shownInMessage.Undirected := by
  unfold shownInMessage
  split <;> simp only [undirected_code, undirected_string, undirected_nil, and_true] <;> and_intros <;>
    exact codeUnarrowed_ofList (by decide)

theorem undirected_typeName : c.typeName.Undirected := by
  simp only [typeName, undirected_code, undirected_quoted, undirected_nil, and_true]
  and_intros <;> exact codeUnarrowed_ofList (by decide)

theorem undirected_labels : c.labels.Undirected := by
  unfold labels
  split <;> simp only [undirected_code, undirected_quoted, undirected_nil, and_true] <;> and_intros <;>
    exact codeUnarrowed_ofList (by decide)

theorem undirected_target : c.target.Undirected := by
  unfold target
  split <;> simp only [undirected_code, undirected_nil, and_true] <;> exact codeUnarrowed_ofList (by decide)

theorem undirected_value : c.value.Undirected := by
  unfold value
  split <;> simp only [undirected_code, undirected_nil, and_true] <;> exact codeUnarrowed_ofList (by decide)

theorem undirected_returnsOf {node : QueryText} {s : String} :
    (c.returnsOf node s).Undirected ↔ node.Undirected := by
  have hreturn : Undirected [.code " RETURN "] := undirected_code.2 ⟨codeUnarrowed_ofList (by decide), undirected_nil⟩
  have hid : Undirected [.code " as nodeId, "] := undirected_code.2 ⟨codeUnarrowed_ofList (by decide), undirected_nil⟩
  have hshape : Undirected [.code " as nodeType, ", .string "", .code " as shapeId, ", .quoted (Sh.component s),
      .code " as propertyShape,"] := by
    simp only [undirected_code, undirected_string, undirected_quoted, undirected_nil, and_true]
    and_intros <;> exact codeUnarrowed_ofList (by decide)
  simp only [returnsOf, undirected_append, hreturn, hid, hshape, c.undirected_shown, true_and, and_true]

theorem undirected_returns (s : String) : (c.returns s).Undirected := c.undirected_returnsOf.2 c.undirected_nodeId

end Context

namespace Template

theorem undirected_property {t : QueryText} : (property t).Undirected ↔ t.Undirected := by
  have hname : Undirected [.code " as propertyName, ", .string "", .code " as severity,"] := by
    simp only [undirected_code, undirected_string, undirected_nil, and_true]
    and_intros <;> exact codeUnarrowed_ofList (by decide)
  rw [property, undirected_append, and_iff_left hname]

theorem undirected_head (t : Template) : t.head.Undirected := by
  rcases t.head_cases with h | h | h <;> rw [h] <;>
    simp only [matchFocus, matchRelationship, bindParams, undirected_code, undirected_name, undirected_nil,
      and_true] <;>
    and_intros <;> exact codeUnarrowed_ofList (by decide)

/-- The templates for incoming relationships. -/
def isIncoming : Template → Bool
  | .minCountInverse => true
  | .maxCountInverse => true
  | _ => false

theorem undirected_body {t : Template} (h : t.isIncoming = false) (c : Context) : (t.body c).Undirected := by
  cases t
  case minCountInverse => cases h
  case maxCountInverse => cases h
  all_goals
    simp only [body, undirected_append, undirected_property, undirected_code, undirected_quoted, undirected_string,
      undirected_name, undirected_snippet, undirected_nil, c.undirected_shown, c.undirected_shownInMessage,
      c.undirected_typeName, c.undirected_labels, c.undirected_target, c.undirected_value, c.undirected_nodeId,
      c.undirected_returns, c.undirected_returnsOf, and_true]
  all_goals and_intros <;> try exact codeUnarrowed_ofList (by decide)
  -- what is left are the literals put together of two, and the parts that depend on the context
  all_goals try exact (codeUnarrowed_ofList (by decide)).append (codeUnarrowed_ofList (by decide))
  all_goals split
  all_goals try simp only [undirected_code, undirected_quoted, undirected_string, undirected_nil, and_true]
  all_goals and_intros <;> exact codeUnarrowed_ofList (by decide)

theorem undirected_queryText {t : Template} (h : t.isIncoming = false) (c : Context) (s : Scope) :
    (t.queryText c s).Undirected := by
  have hfilter : Undirected [.code touchedFilter] :=
    undirected_code.2 ⟨codeUnarrowed_ofList (by decide), undirected_nil⟩
  cases s with
  | global => exact undirected_append.2 ⟨t.undirected_head, undirected_body h c⟩
  | touched => exact undirected_append.2 ⟨undirected_append.2 ⟨t.undirected_head, hfilter⟩, undirected_body h c⟩

end Template

/-! ## Mentions -/

/-- A name in a rendering, between the code right before and right after it. -/
structure Mention where
  before : String
  name : String
  after : String
deriving DecidableEq, Repr

/-- Where an element is not among the first ones, it is among the others. -/
theorem eq_append_of_notMem {α : Type} {xs ys l r : List α} {x : α} (hx : x ∉ xs) (h : xs ++ ys = l ++ x :: r) :
    ∃ l', l = xs ++ l' ∧ ys = l' ++ x :: r := by
  rcases List.append_eq_append_iff.1 h with ⟨l', rfl, hy⟩ | ⟨s, rfl, hs⟩
  · exact ⟨l', rfl, hy⟩
  · cases s with
    | nil => exact ⟨[], by simp, by simpa using hs.symm⟩
    | cons y s =>
      have hxy : x = y := (List.cons.inj hs).1
      exact absurd (List.mem_append_right l (hxy ▸ List.mem_cons_self)) hx

theorem suffix_append_append {α : Type} {a xs : List α} (h : a <:+ xs) (b l : List α) : a ++ l <:+ b ++ (xs ++ l) := by
  obtain ⟨ys, rfl⟩ := h
  exact ⟨b ++ ys, by simp⟩

namespace QueryText

/-- The code that a text starts with. -/
def leadingCode : QueryText → String
  | .code s :: _ => s
  | _ => ""

/-- The names of a rendering that stands after code. -/
def mentionsAfter (last : String) : QueryText → List String → List Mention
  | [], _ => []
  | .code s :: r, vs => mentionsAfter s r vs
  | .quoted _ :: r, vs => mentionsAfter "" r vs
  | .string _ :: r, vs => mentionsAfter "" r vs.tail
  | .name :: r, vs => ⟨last, vs.headD "", leadingCode r⟩ :: mentionsAfter "" r vs.tail
  | .snippet :: r, vs => mentionsAfter "" r vs.tail

/-- The names of a rendering. -/
def mentions (t : QueryText) (vs : List String) : List Mention := t.mentionsAfter "" vs

theorem leadingCode_prefix (t : QueryText) (vs : List String) :
    t.leadingCode.toList.map .plain <+: t.lexemes vs := by
  cases t with
  | nil => exact List.nil_prefix
  | cons p r =>
    cases p with
    | code s => exact List.prefix_append _ _
    | _ => exact List.nil_prefix

/-- A rendering has the names that it mentions, each after and before its code. -/
theorem lexemes_of_mention {last : String} {t : QueryText} {vs : List String} {m : Mention}
    (h : m ∈ t.mentionsAfter last vs) : ∃ l r, t.lexemes vs = l ++ .name m.name.toList :: r ∧
      m.before.toList.map .plain <:+ last.toList.map .plain ++ l ∧ m.after.toList.map .plain <+: r := by
  induction t generalizing last vs with
  | nil => exact absurd h List.not_mem_nil
  | cons p r ih =>
    -- what stands before the rest goes to the left of its names
    have shift (xs : List Lexeme) (last' : String) (ws : List String) (hlast : last'.toList.map .plain <:+ xs)
        (hm : m ∈ mentionsAfter last' r ws) : ∃ l r', xs ++ lexemes r ws = l ++ .name m.name.toList :: r' ∧
          m.before.toList.map .plain <:+ last.toList.map .plain ++ l ∧ m.after.toList.map .plain <+: r' := by
      obtain ⟨l, r', hl, hb, ha⟩ := ih hm
      exact ⟨xs ++ l, r', by rw [hl, List.append_assoc], hb.trans (suffix_append_append hlast _ l), ha⟩
    have hempty (xs : List Lexeme) : "".toList.map Lexeme.plain <:+ xs := List.nil_suffix
    cases p with
    | code s => exact shift _ s vs List.suffix_rfl h
    | quoted s => exact shift [.string s.toList] "" vs (hempty _) h
    | string tail => exact shift [.string ((vs.headD "").toList ++ tail.toList)] "" vs.tail (hempty _) h
    | name =>
      rcases List.mem_cons.1 h with rfl | h
      · exact ⟨[], lexemes r vs.tail, rfl, by simp, leadingCode_prefix r _⟩
      · exact shift [.name (vs.headD "").toList] "" vs.tail (hempty _) h
    | snippet => exact shift ((lex (vs.headD "")).getD []) "" vs.tail (hempty _) h

/-- Only sites bring names into a rendering. -/
theorem name_notMem_lexemes {t : QueryText} (h : t.sites = []) {vs : List String} {w : List Char} :
    .name w ∉ t.lexemes vs := by
  induction t with
  | nil => exact List.not_mem_nil
  | cons p r ih =>
    cases p with
    | code s => simpa [lexemes] using ih h
    | quoted s => simpa [lexemes] using ih h
    | _ => cases h

/-- Values outside of quotes have no names. -/
def Nameless (k : Site) (v : String) : Prop := k = .snippet → ∀ w, .name w ∉ (lex v).getD []

/-- A rendering has no other names than it mentions. -/
theorem mention_of_lexemes (last : String) {t : QueryText} {vs : List String} (hv : List.Forall₂ Nameless t.sites vs)
    {l r : List Lexeme} {w : List Char} (h : t.lexemes vs = l ++ .name w :: r) :
    ∃ m ∈ t.mentionsAfter last vs, m.name.toList = w ∧
      m.before.toList.map .plain <:+ last.toList.map .plain ++ l ∧ m.after.toList.map .plain <+: r := by
  induction t generalizing last vs l with
  | nil => cases l <;> cases h
  | cons p q ih =>
    -- what stands before the rest goes to the left of its names
    have shift (xs l' : List Lexeme) (last' : String) (ws : List String) (hlast : last'.toList.map .plain <:+ xs)
        (hws : List.Forall₂ Nameless (sites q) ws) (hq : lexemes q ws = l' ++ .name w :: r) :
        ∃ m ∈ mentionsAfter last' q ws, m.name.toList = w ∧
          m.before.toList.map .plain <:+ last.toList.map .plain ++ (xs ++ l') ∧ m.after.toList.map .plain <+: r := by
      obtain ⟨m, hm, hw, hb, ha⟩ := ih last' hws hq
      exact ⟨m, hm, hw, hb.trans (suffix_append_append hlast _ l'), ha⟩
    have hempty (xs : List Lexeme) : "".toList.map Lexeme.plain <:+ xs := List.nil_suffix
    cases p with
    | code s =>
      obtain ⟨l', rfl, hq⟩ := eq_append_of_notMem (by simp) h
      exact shift _ l' s vs List.suffix_rfl hv hq
    | quoted s =>
      have h : [.string s.toList] ++ lexemes q vs = l ++ .name w :: r := h
      obtain ⟨l', rfl, hq⟩ := eq_append_of_notMem (by simp) h
      exact shift _ l' "" vs (hempty _) hv hq
    | string tail =>
      cases hv with
      | @cons _ v _ vs _ hv =>
        have h : [.string (v.toList ++ tail.toList)] ++ lexemes q vs = l ++ .name w :: r := h
        obtain ⟨l', rfl, hq⟩ := eq_append_of_notMem (by simp) h
        exact shift _ l' "" _ (hempty _) hv hq
    | name =>
      cases hv with
      | @cons _ v _ vs _ hv =>
        cases l with
        | nil =>
          cases h
          exact ⟨_, List.mem_cons_self, rfl, by simp, leadingCode_prefix q _⟩
        | cons x l' =>
          obtain ⟨rfl, hq⟩ := List.cons.inj h
          obtain ⟨m, hm, hmention⟩ := shift [.name v.toList] l' "" vs (hempty _) hv hq
          exact ⟨m, List.mem_cons_of_mem _ hm, hmention⟩
    | snippet =>
      cases hv with
      | cons hs hv =>
        obtain ⟨l', rfl, hq⟩ := eq_append_of_notMem (hs rfl w) h
        exact shift _ l' "" _ (hempty _) hv hq

end QueryText

/-! ## What a mention tells -/

theorem Query.suffix_of_plain {a b : List Char} (h : a.map Lexeme.plain <:+ b.map .plain) : a <:+ b := by
  obtain ⟨c, hc, he⟩ := List.suffix_map_iff.1 h
  have hac : a = c := List.map_inj_right (fun _ _ => Lexeme.plain.inj) |>.1 he
  rw [hac]
  exact hc

def Query.NameUse.all : List NameUse := [.parameterSet, .label, .incoming, .outgoing, .matched, .property]

/-- The code around a name tells this use of it and no other. -/
structure Mention.Tells (m : Mention) (u : NameUse) : Prop where
  before : u.before.toList <:+ m.before.toList
  after : u.after.toList <+: m.after.toList
  only : ∀ v : NameUse, v.before.toList <:+ m.before.toList ∨ m.before.toList <:+ v.before.toList → v = u

namespace Mention

/-- The same of characters. -/
def tells (before after : List Char) (u : NameUse) : Bool :=
  u.before.toList.isSuffixOf before && u.after.toList.isPrefixOf after &&
  NameUse.all.all fun v => v = u || !(v.before.toList.isSuffixOf before || before.isSuffixOf v.before.toList)

/-- Literals are checked as lists of characters. -/
theorem tells_ofList {b a : List Char} {u : NameUse} (h : tells b a u = true) (name : String) :
    Tells ⟨String.ofList b, name, String.ofList a⟩ u := by
  simp only [tells, Bool.and_eq_true, List.isSuffixOf_iff_suffix, List.isPrefixOf_iff_prefix, List.all_eq_true] at h
  obtain ⟨⟨hbefore, hafter⟩, honly⟩ := h
  refine ⟨?_, ?_, fun v hv => ?_⟩
  · rw [String.toList_ofList]
    exact hbefore
  · rw [String.toList_ofList]
    exact hafter
  · rw [String.toList_ofList] at hv
    have hmem : v ∈ NameUse.all := by cases v <;> decide
    have hor := honly v hmem
    rw [← List.isSuffixOf_iff_suffix, ← List.isSuffixOf_iff_suffix, ← Bool.or_eq_true] at hv
    simpa [hv] using hor

/-- What the code before a name tells does not depend on what stands before that code. -/
theorem Tells.append {b a name : String} {u : NameUse} (h : Tells ⟨b, name, a⟩ u) (s : String) :
    Tells ⟨s ++ b, name, a⟩ u := by
  have hsuffix : b.toList <:+ (s ++ b).toList := by
    rw [String.toList_append]
    exact List.suffix_append _ _
  refine ⟨h.before.trans hsuffix, h.after, fun v hv => h.only v ?_⟩
  rcases hv with hv | hv
  · exact List.suffix_or_suffix_of_suffix hv hsuffix
  · exact .inr (hsuffix.trans hv)

variable {m : Mention} {u : NameUse} {l r : List Lexeme}

theorem Tells.fits (h : m.Tells u) (hl : m.before.toList.map .plain <:+ l) (hr : m.after.toList.map .plain <+: r) :
    u.Fits l r :=
  ⟨(h.before.map _).trans hl, (h.after.map _).trans hr⟩

theorem Tells.unique (h : m.Tells u) (hl : m.before.toList.map .plain <:+ l) {v : NameUse} (hv : v.Fits l r) :
    v = u :=
  h.only v ((List.suffix_or_suffix_of_suffix hv.1 hl).imp suffix_of_plain suffix_of_plain)

end Mention

/-! ## Incoming relationships -/

/-- A name stands somewhere in a text with this use. -/
def Query.Uses (u : NameUse) (name : List Char) (ts : List Lexeme) : Prop :=
  ∃ l r, ts = l ++ .name name :: r ∧ u.Fits l r

/-- The only path of a query is this name, and it is followed against its direction: every name has a use, and it is a
parameter set or a label, or else this name as an incoming relationship. -/
structure Query.FollowsIncoming (path : String) (ts : List Lexeme) : Prop where
  followed : Uses .incoming path.toList ts
  used : ∀ l name r, ts = l ++ .name name :: r → ∃ u : NameUse, u.Fits l r
  only : ∀ u name, Uses u name ts → u = .parameterSet ∨ u = .label ∨ u = .incoming ∧ name = path.toList

namespace QueryText

theorem uses_of_mention {t : QueryText} {vs : List String} {m : Mention} (hm : m ∈ t.mentions vs) {u : NameUse}
    (h : m.Tells u) : Uses u m.name.toList (t.lexemes vs) := by
  obtain ⟨l, r, hl, hb, ha⟩ := lexemes_of_mention hm
  exact ⟨l, r, hl, h.fits hb ha⟩

/-- Mentions tell the uses of the names of a rendering. -/
theorem followsIncoming {t : QueryText} {vs : List String} {path : String} (hv : List.Forall₂ Nameless t.sites vs)
    (hall : ∀ m ∈ t.mentions vs, m.Tells .parameterSet ∨ m.Tells .label ∨ m.Tells .incoming ∧ m.name = path)
    (hsome : ∃ m ∈ t.mentions vs, m.Tells .incoming ∧ m.name = path) : FollowsIncoming path (t.lexemes vs) where
  followed := by
    obtain ⟨m, hm, htells, rfl⟩ := hsome
    exact uses_of_mention hm htells
  used := by
    intro l name r h
    obtain ⟨m, hm, -, hb, ha⟩ := mention_of_lexemes "" hv h
    rcases hall m hm with htells | htells | ⟨htells, -⟩
    · exact ⟨_, htells.fits hb ha⟩
    · exact ⟨_, htells.fits hb ha⟩
    · exact ⟨_, htells.fits hb ha⟩
  only := by
    rintro u name ⟨l, r, h, hu⟩
    obtain ⟨m, hm, hname, hb, ha⟩ := mention_of_lexemes "" hv h
    rcases hall m hm with htells | htells | ⟨htells, hpath⟩
    · exact .inl (htells.unique hb hu)
    · exact .inr (.inl (htells.unique hb hu))
    · exact .inr (.inr ⟨htells.unique hb hu, by rw [← hname, hpath]⟩)

end QueryText

end ShapePlan
