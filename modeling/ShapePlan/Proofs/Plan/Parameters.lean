/-
Parameters of compiled queries. The code in the slots of a template reads only the keys of the template, so that a query
reads nothing but those; the rows of the two tables of a record go together (`Record.matched_choices`): the keys of a
template that is chosen are set in the set that the template binds, and every set is bound by a template that is chosen.
-/
import ShapePlan.Proofs.Plan.Quoting
import ShapePlan.Proofs.Plan.Selection
import ShapePlan.Proofs.Plan.Settings
import ShapePlan.Proofs.Query.Reading

namespace ShapePlan

open Query QueryText

/-! ## Slots of code -/

theorem snippetReads_constant {keys : List String} {s : String} (hc : IsConstant 0 s) (hr : CodeReads keys s) :
    SnippetReads keys s :=
  ⟨_, lex_constant hc, hr⟩

/-- Literals that read nothing. -/
theorem snippetReads_ofList {keys : List String} {l : List Char} (hc : l.all isConstantChar = true)
    (hr : readsAmong [] l = true) : SnippetReads keys (String.ofList l) :=
  snippetReads_constant (isConstant_ofList (by simpa using hc)) (codeReads_none hr)

theorem snippetReads_key {keys : List String} {k : List Char} (hk : String.ofList k ∈ keys) {l : List Char}
    (hc : l.all isConstantChar = true) (hr : readsAmong [k] l = true) : SnippetReads keys (String.ofList l) :=
  snippetReads_constant (isConstant_ofList (by simpa using hc)) (codeReads_key hk hr)

/-- Casts read no parameters. -/
theorem snippetReads_cast (keys : List String) (d : String) :
    SnippetReads keys ((castOf? d).getD ("", "")).1 ∧ SnippetReads keys ((castOf? d).getD ("", "")).2 := by
  unfold castOf?
  split
  · exact ⟨snippetReads_ofList (by decide) (by decide), snippetReads_ofList (by decide) (by decide)⟩
  split
  · exact ⟨snippetReads_ofList (by decide) (by decide), snippetReads_ofList (by decide) (by decide)⟩
  split
  · exact ⟨snippetReads_ofList (by decide) (by decide), snippetReads_ofList (by decide) (by decide)⟩
  split
  · exact ⟨snippetReads_ofList (by decide) (by decide), snippetReads_ofList (by decide) (by decide)⟩
  split
  · next h =>
    have hreads : ReadsOnly keys [.code "n10s.aux.dt.check(", .quoted d, .code ","] :=
      (readsOnly_quiet (by decide) keys _).2 ((readsOnly_quiet (by decide) keys []).2 trivial)
    exact ⟨⟨_, lex_check h, hreads.lexemes .nil⟩, snippetReads_ofList (by decide) (by decide)⟩
  · exact ⟨snippetReads_ofList (by decide) (by decide), snippetReads_ofList (by decide) (by decide)⟩

/-- What stands in the slot is code that reads only the keys. -/
def Slot.Reads (keys : List String) (slot : Slot) : Prop := ∀ n r x v, slot.Holds n r x v → SnippetReads keys v

namespace Slot

variable {keys : List String}

theorem reads_castStart : castStart.Reads keys := by
  rintro n r x _ rfl
  cases r.datatype with
  | none => exact snippetReads_ofList (by decide) (by decide)
  | some d => exact (snippetReads_cast keys d).1

theorem reads_castEnd : castEnd.Reads keys := by
  rintro n r x _ rfl
  cases r.datatype with
  | none => exact snippetReads_ofList (by decide) (by decide)
  | some d => exact (snippetReads_cast keys d).2

theorem reads_minCount : (code " toInteger(params.minCount) <= ").Reads ["minCount"] := by
  rintro n r x _ rfl
  exact snippetReads_key List.mem_cons_self (by decide) (by decide)

theorem reads_maxCount : (code " <= toInteger(params.maxCount) ").Reads ["maxCount"] := by
  rintro n r x _ rfl
  exact snippetReads_key List.mem_cons_self (by decide) (by decide)

theorem reads_minLength : minLength.Reads ["minStrLen", "maxStrLen"] := by
  rintro n r x _ rfl
  split
  · exact snippetReads_key List.mem_cons_self (by decide) (by decide)
  · exact snippetReads_ofList (by decide) (by decide)

theorem reads_maxLength : maxLength.Reads ["minStrLen", "maxStrLen"] := by
  rintro n r x _ rfl
  split
  · exact snippetReads_key (List.mem_cons_of_mem _ List.mem_cons_self) (by decide) (by decide)
  · exact snippetReads_ofList (by decide) (by decide)

theorem reads_lower : lower.Reads ["min", "max"] := by
  rintro n r x _ rfl
  split
  · exact snippetReads_key List.mem_cons_self (by decide) (by decide)
  split
  · exact snippetReads_key List.mem_cons_self (by decide) (by decide)
  · exact snippetReads_ofList (by decide) (by decide)

theorem reads_upper : upper.Reads ["min", "max"] := by
  rintro n r x _ rfl
  split
  · exact snippetReads_key (List.mem_cons_of_mem _ List.mem_cons_self) (by decide) (by decide)
  split
  · exact snippetReads_key (List.mem_cons_of_mem _ List.mem_cons_self) (by decide) (by decide)
  · exact snippetReads_ofList (by decide) (by decide)

end Slot

/-- The slots outside of quotes hold code that reads the keys of the template. -/
theorem Template.slots_read (t : Template) :
    List.Forall₂ (fun site slot => site = .snippet → slot.Reads t.keys) t.sites t.slots := by
  cases t
  all_goals repeat' first | exact List.Forall₂.nil | refine List.Forall₂.cons ?_ ?_
  -- only the sites of snippets are left
  all_goals rintro ⟨⟩
  · exact Slot.reads_castStart
  · exact Slot.reads_castEnd
  · exact Slot.reads_minCount
  · exact Slot.reads_minCount
  · exact Slot.reads_minCount
  · exact Slot.reads_minCount
  · exact Slot.reads_maxCount
  · exact Slot.reads_maxCount
  · exact Slot.reads_maxCount
  · exact Slot.reads_maxCount
  · exact Slot.reads_minLength
  · exact Slot.reads_maxLength
  · exact Slot.reads_lower
  · exact Slot.reads_upper

/-! ## The two tables of a record -/

/-- The parameter whose set a template binds. -/
def Template.parameter? (t : Template) : Option String :=
  match t.slots.head? with
  | some (.params parameter) => some parameter
  | _ => none

/-- Choices and settings go together: what a template reads is set in the set that it binds, and every set is bound. -/
structure Matched (xs : List Choice) (ss : List Setting) : Prop where
  keys : ∀ x ∈ xs, ∀ p, x.template.parameter? = some p → ∀ k ∈ x.template.keys, ∃ s ∈ ss, s.parameter = p ∧ s.key = k
  settings : ∀ s ∈ ss, ∃ x ∈ xs, x.template.parameter? = some s.parameter

namespace Matched

variable {xs ys : List Choice} {ss us : List Setting} {p : String}

theorem append (h : Matched xs ss) (h' : Matched ys us) : Matched (xs ++ ys) (ss ++ us) := by
  constructor
  · intro x hx q hq k hk
    rcases List.mem_append.1 hx with hx | hx
    · obtain ⟨s, hs, hsq⟩ := h.keys x hx q hq k hk
      exact ⟨s, List.mem_append_left _ hs, hsq⟩
    · obtain ⟨s, hs, hsq⟩ := h'.keys x hx q hq k hk
      exact ⟨s, List.mem_append_right _ hs, hsq⟩
  · intro s hs
    rcases List.mem_append.1 hs with hs | hs
    · obtain ⟨x, hx, hxs⟩ := h.settings s hs
      exact ⟨x, List.mem_append_left _ hx, hxs⟩
    · obtain ⟨x, hx, hxs⟩ := h'.settings s hs
      exact ⟨x, List.mem_append_right _ hx, hxs⟩

/-- Templates that bind no set. -/
theorem unbound (h : ∀ x ∈ xs, x.template.parameter? = none) : Matched xs [] := by
  refine ⟨fun x hx q hq => ?_, List.forall_mem_nil _⟩
  rw [h x hx] at hq
  cases hq

theorem skip (h : Matched xs ss) (h' : Matched ys []) : Matched (xs ++ ys) ss := by
  rw [← List.append_nil ss]
  exact h.append h'

theorem skipFirst (h : Matched xs []) (h' : Matched ys us) : Matched (xs ++ ys) us := h.append h'

/-- Templates that all bind the set of some settings and read all of them. -/
theorem of_templates (hne : xs ≠ [])
    (hx : ∀ x ∈ xs, x.template.parameter? = some p ∧ x.template.keys = ss.map (·.key))
    (hs : ∀ s ∈ ss, s.parameter = p) : Matched xs ss := by
  constructor
  · intro x h q hq k hk
    obtain ⟨hp, hkeys⟩ := hx x h
    rw [hkeys] at hk
    obtain ⟨s, hmem, rfl⟩ := List.mem_map.1 hk
    refine ⟨s, hmem, ?_, rfl⟩
    rw [hs s hmem]
    exact Option.some.inj (hp.symm.trans hq)
  · intro s hmem
    obtain ⟨x, h⟩ := List.exists_mem_of_ne_nil _ hne
    refine ⟨x, h, ?_⟩
    rw [hs s hmem]
    exact (hx x h).1

theorem row {t : Template} (b : Bool) (ht : t.parameter? = some p) (hk : t.keys = ss.map (·.key))
    (hs : ∀ s ∈ ss, s.parameter = p) : Matched (choicesIf b [t]) (rowsIf b ss) := by
  cases b with
  | false => exact unbound (List.forall_mem_nil _)
  | true => exact of_templates (List.cons_ne_nil _ _) (List.forall_mem_singleton.2 ⟨ht, hk⟩) hs

theorem unboundRow {ts : List Template} (b : Bool) (h : ∀ t ∈ ts, t.parameter? = none) :
    Matched (choicesIf b ts) [] := by
  cases b with
  | false => exact unbound (List.forall_mem_nil _)
  | true => exact unbound (List.forall_mem_map.2 h)

end Matched

namespace Record

variable (n : Naming) (r : Record)

theorem matched_iris (listed onPath : Bool) (iris : List String) {property label node : Template}
    {p kproperty klabel knode : String} (hproperty : property.parameter? = some p ∧ property.keys = [kproperty])
    (hlabel : label.parameter? = some p ∧ label.keys = [klabel])
    (hnode : node.parameter? = some p ∧ node.keys = [knode]) :
    Matched (r.iriChoices n listed onPath property label node)
      (r.iriSettings n listed onPath iris p kproperty klabel knode) := by
  refine .append (.append ?_ ?_) ?_
  · exact .row _ hlabel.1 hlabel.2 (List.forall_mem_singleton.2 rfl)
  · exact .row _ hnode.1 hnode.2 (List.forall_mem_singleton.2 rfl)
  · exact .row _ hproperty.1 hproperty.2 (List.forall_mem_singleton.2 rfl)

/-- A count is compiled wherever types are kept. -/
theorem countChoices_ne_nil {property inverse label node : Template} (hp : r.path.isSome = true) :
    r.countChoices n true property inverse label node ≠ [] := by
  obtain ⟨path, hpath⟩ := Option.isSome_iff_exists.1 hp
  cases hi : r.inverse with
  | true => simp [countChoices, choicesIf, rowsIf, hpath, hi]
  | false =>
    by_cases hty : path = Rdf.type
    · have hkept : n.keepsLabels = true ∨ n.keepsNodes = true := by
        rw [n.keepsLabels_eq, n.keepsNodes_eq]
        exact Bool.eq_false_or_eq_true _ |>.imp_right Naming.typesAsNodes_of_not_labels
      rcases hkept with h | h <;> simp [countChoices, choicesIf, rowsIf, isOnType, hpath, hi, hty, h]
    · simp [countChoices, choicesIf, rowsIf, isOnProperty, hpath, hi, hty]

theorem matched_counts (isSet : Bool) {property inverse label node : Template} {p k : String}
    {v : Except NamingError Value}
    (h : ∀ t ∈ [property, inverse, label, node], t.parameter? = some p ∧ t.keys = [k]) :
    Matched (r.countChoices n isSet property inverse label node) (rowsIf (r.path.isSome && isSet) [⟨p, k, v⟩]) := by
  have hmem : ∀ b, ∀ t ∈ [property, inverse, label, node], ∀ x ∈ choicesIf b [t],
      x.template.parameter? = some p ∧ x.template.keys = [k] := by
    intro b t ht x hx
    cases b with
    | false => exact absurd hx List.not_mem_nil
    | true => rw [List.mem_singleton.1 hx]; exact h t ht
  cases hb : r.path.isSome && isSet with
  | false =>
    have hnil : r.countChoices n isSet property inverse label node = [] := by
      rcases Bool.and_eq_false_iff.1 hb with hp | hs
      · simp [countChoices, isOnType, isOnProperty, Option.not_isSome_iff_eq_none.1 (Bool.eq_false_iff.1 hp)]
      · simp [countChoices, hs]
    rw [hnil]
    exact .unbound (List.forall_mem_nil _)
  | true =>
    obtain ⟨hp, rfl⟩ := Bool.and_eq_true_iff.1 hb
    refine .of_templates (r.countChoices_ne_nil n hp) ?_ (List.forall_mem_singleton.2 rfl)
    · unfold countChoices
      simp only [List.forall_mem_append]
      refine ⟨⟨⟨hmem _ _ ?_, hmem _ _ ?_⟩, hmem _ _ ?_⟩, hmem _ _ ?_⟩ <;> simp

theorem matched_choices : Matched (r.choices n) (r.settings n) := by
  have one : ∀ {p k : String} {v : Except NamingError Value}, ∀ s ∈ [(⟨p, k, v⟩ : Setting)], s.parameter = p :=
    List.forall_mem_singleton.2 rfl
  have two : ∀ {p k l : String} {v w : Except NamingError Value}, ∀ s ∈ [(⟨p, k, v⟩ : Setting), ⟨p, l, w⟩],
      s.parameter = p := List.forall_mem_cons.2 ⟨rfl, List.forall_mem_singleton.2 rfl⟩
  unfold choices settings
  refine .skip ?_ (.unbound (List.forall_mem_map.2 fun _ _ => rfl))
  refine .append (.append (.append ?_ (.row _ rfl rfl two)) (.row _ rfl rfl two)) (.row _ rfl rfl one)
  refine .append (.append ?_ (r.matched_counts n _ (by decide))) (r.matched_counts n _ (by decide))
  refine .append (.append (.append ?_ (.row _ rfl rfl one)) ?_) (.row _ rfl rfl one)
  · refine .skip (.skip ?_ (.skip (.unboundRow _ (by decide)) (.unboundRow _ (by decide)))) (.unboundRow _ (by decide))
    refine .append ?_ (.row _ rfl rfl one)
    exact .skipFirst (.unboundRow _ (by decide)) (r.matched_iris n _ _ _ ⟨rfl, rfl⟩ ⟨rfl, rfl⟩ ⟨rfl, rfl⟩)
  · exact r.matched_iris n _ _ _ ⟨rfl, rfl⟩ ⟨rfl, rfl⟩ ⟨rfl, rfl⟩

end Record

/-! ## Queries -/

namespace Template

/-- The templates that bind a set are those with a slot for it, and they read something of it. -/
theorem parameter?_of_head {t : Template} (h : t.head = bindParams) :
    ∃ p rest, t.parameter? = some p ∧ t.slots = .params p :: rest ∧ t.keys ≠ [] := by
  cases t <;> first
    | exact ⟨_, _, rfl, rfl, List.cons_ne_nil _ _⟩
    | exact absurd h matchFocus_ne_bindParams
    | exact absurd h matchRelationship_ne_bindParams

theorem head_of_parameter? {t : Template} {p : String} (h : t.parameter? = some p) : t.head = bindParams := by
  cases t <;> first | rfl | cases h

theorem keys_eq_nil {t : Template} (h : t.head ≠ bindParams) : t.keys = [] := by
  cases t <;> first | rfl | exact absurd rfl h

end Template

namespace Query.Fills

variable {n : Naming} {r : Record} {x : Choice} {q : Query} (h : q.Fills n r x) (c : Context) (s : Scope)

include h

/-- A query reads only the keys of its template. -/
theorem reads : lex (q.template.render c s q.values) = some ((q.template.queryText c s).lexemes q.values) ∧
    ∀ k ∈ paramsRead ((q.template.queryText c s).lexemes q.values), k ∈ x.template.keys := by
  obtain ⟨htemplate, hvalues⟩ := h
  have hw := q.template.wellFormed_queryText c s
  have hsites : List.Forall₂ (SiteReads x.template.keys) (q.template.queryText c s).sites q.values := by
    rw [Template.sites_queryText, htemplate]
    exact forall₂_comp x.template.slots_read hvalues fun _ _ v hslot hv hsite => hslot hsite n r x v hv
  constructor
  · rw [Template.render, Template.text, fill_text hw, lex, String.toList_ofList]
    refine scan_pieces hw.constant hw.spaced (hsites.imp fun _ _ hv hk => ?_)
    obtain ⟨ts, hts, -⟩ := hv hk
    exact ⟨ts, hts⟩
  · rw [← htemplate] at hsites ⊢
    exact (q.template.readsOnly_queryText c s).lexemes hsites

/-- A query binds the set of the shape for the parameter of its template. -/
theorem binds {set : String} : Binds set ((q.template.queryText c s).lexemes q.values) ↔
    ∃ p, x.template.parameter? = some p ∧ set = r.uid ++ "_" ++ p := by
  obtain ⟨htemplate, hvalues⟩ := h
  rw [Template.binds_iff, htemplate]
  have hset : ∀ p rest, x.template.slots = .params p :: rest → q.values.headD "" = r.uid ++ "_" ++ p := by
    intro p rest hslots
    rw [hslots] at hvalues
    obtain ⟨v, vs, hv, -, hq⟩ := List.forall₂_cons_left_iff.1 hvalues
    rw [hq]
    exact hv
  constructor
  · rintro ⟨hhead, rfl⟩
    obtain ⟨p, rest, hp, hslots, -⟩ := Template.parameter?_of_head hhead
    exact ⟨p, hp, hset p rest hslots⟩
  · rintro ⟨p, hp, rfl⟩
    have hhead := Template.head_of_parameter? hp
    obtain ⟨p', rest, hp', hslots, -⟩ := Template.parameter?_of_head hhead
    cases hp.symm.trans hp'
    exact ⟨hhead, hset p rest hslots⟩

end Query.Fills

/-! ## Plans -/

namespace Naming

variable {n : Naming} {rs : List Record} {e : Emission}

/-- A record has its choices and its settings, or contributes nothing. -/
theorem emitRecord_rows {r : Record} (h : n.emitRecord r = .ok e) :
    e = {} ∨ List.Forall₂ (Query.Fills n r) (r.choices n) e.queries ∧
      List.Forall₂ (Param.IsSet r) (r.settings n) e.params := by
  cases hc : r.targetClass with
  | none =>
    rw [emitRecord_none hc] at h
    cases h
    exact .inl rfl
  | some c => exact .inr ⟨fills_emitRecord hc h, sets_emitRecord hc h⟩

/-- A query is for a choice of a record all of whose settings are assigned. -/
theorem exists_choice_of_query (h : n.emitRecords rs = .ok e) {q : Query} (hq : q ∈ e.queries) :
    ∃ r ∈ rs, ∃ x ∈ r.choices n, q.Fills n r x ∧ ∀ s ∈ r.settings n, ∃ a ∈ e.params, a.IsSet r s := by
  obtain ⟨es, hes, rfl⟩ := emitRecords_eq_ok.1 h
  rw [Emission.queries_join] at hq
  obtain ⟨f, hf, hq⟩ := List.mem_flatMap.1 hq
  obtain ⟨r, hr, hrf⟩ := exists_left_of_mem hes hf
  obtain rfl | ⟨hfills, hsets⟩ := emitRecord_rows hrf
  · exact absurd hq List.not_mem_nil
  obtain ⟨x, hx, hfill⟩ := exists_left_of_mem hfills hq
  refine ⟨r, hr, x, hx, hfill, fun s hs => ?_⟩
  obtain ⟨a, ha, hset⟩ := exists_right_of_mem hsets hs
  rw [Emission.params_join]
  exact ⟨a, List.mem_flatMap.2 ⟨f, hf, ha⟩, hset⟩

/-- An assignment is for a setting of a record all of whose choices have queries. -/
theorem exists_setting_of_param (h : n.emitRecords rs = .ok e) {a : Param} (ha : a ∈ e.params) :
    ∃ r ∈ rs, ∃ s ∈ r.settings n, a.IsSet r s ∧ ∀ x ∈ r.choices n, ∃ q ∈ e.queries, q.Fills n r x := by
  obtain ⟨es, hes, rfl⟩ := emitRecords_eq_ok.1 h
  rw [Emission.params_join] at ha
  obtain ⟨f, hf, ha⟩ := List.mem_flatMap.1 ha
  obtain ⟨r, hr, hrf⟩ := exists_left_of_mem hes hf
  obtain rfl | ⟨hfills, hsets⟩ := emitRecord_rows hrf
  · exact absurd ha List.not_mem_nil
  obtain ⟨s, hs, hset⟩ := exists_left_of_mem hsets ha
  refine ⟨r, hr, s, hs, hset, fun x hx => ?_⟩
  obtain ⟨q, hq, hfill⟩ := exists_right_of_mem hfills hx
  rw [Emission.queries_join]
  exact ⟨q, List.mem_flatMap.2 ⟨f, hf, hq⟩, hfill⟩

/-- The parameters that a query reads are in the set that it binds. -/
theorem exists_bag_of_fills {r : Record} {x : Choice} (hx : x ∈ r.choices n)
    (hset : ∀ s ∈ r.settings n, ∃ a ∈ e.params, a.IsSet r s) {p : String} (hp : x.template.parameter? = some p) :
    ∃ bag, (e.params.foldl Param.assign .empty).get? (r.uid ++ "_" ++ p) = some bag ∧
      ∀ k ∈ x.template.keys, (bag.get? k).isSome = true := by
  obtain ⟨-, -, -, -, hne⟩ := Template.parameter?_of_head (Template.head_of_parameter? hp)
  refine Param.exists_bag_foldl hne fun k hk => ?_
  obtain ⟨s, hs, rfl, rfl⟩ := (r.matched_choices n).keys x hx p hp k hk
  obtain ⟨a, ha, hset, hkey, -⟩ := hset s hs
  exact ⟨a, ha, hset, hkey⟩

/-- Queries read parameters of the set that they bind, and find them; no set is there for no query. -/
theorem compile_params_bound (n : Naming) (rs : List Record) (p : Plan) (h : n.compile rs = .ok p) :
    (∀ entry ∈ p.entries, ∀ s : Scope, ∃ ts, lex (entry.query s) = some ts ∧
      (∀ set, Binds set ts → ∃ bag, p.params.get? set = some bag ∧ ∀ k ∈ paramsRead ts, (bag.get? k).isSome = true) ∧
      ((∀ set, ¬ Binds set ts) → paramsRead ts = [])) ∧
    ∀ set bag, p.params.get? set = some bag →
      ∃ entry ∈ p.entries, ∀ s : Scope, ∃ ts, lex (entry.query s) = some ts ∧ Binds set ts := by
  obtain ⟨e, he, rfl⟩ := compile_eq_ok.1 h
  have hentries := e.plan_entries (Context.ofConfig n.config)
  constructor
  · intro entry hentry s
    obtain ⟨q, hq, hrender⟩ := exists_left_of_mem hentries hentry
    obtain ⟨r, -, x, hx, hfill, hset⟩ := exists_choice_of_query he hq
    have hreads := hfill.reads (Context.ofConfig n.config) s
    refine ⟨_, (hrender s).symm ▸ hreads.1, fun set hbinds => ?_, fun hnone => ?_⟩
    · obtain ⟨p, hp, rfl⟩ := (hfill.binds _ s).1 hbinds
      obtain ⟨bag, hbag, hkeys⟩ := exists_bag_of_fills hx hset hp
      exact ⟨bag, hbag, fun k hk => hkeys k (hreads.2 k hk)⟩
    · have hhead : x.template.head ≠ Template.bindParams := by
        intro hhead
        obtain ⟨p, rest, hp, -⟩ := Template.parameter?_of_head hhead
        exact hnone _ ((hfill.binds _ s).2 ⟨p, hp, rfl⟩)
      rw [Template.keys_eq_nil hhead] at hreads
      exact List.eq_nil_iff_forall_not_mem.2 fun k hk => List.not_mem_nil (hreads.2 k hk)
  · intro set bag hbag
    obtain ⟨a, ha, rfl⟩ := (Param.exists_of_get?_foldl hbag).resolve_right (by simp)
    obtain ⟨r, -, t, ht, hset, hqueries⟩ := exists_setting_of_param he ha
    obtain ⟨x, hx, hp⟩ := (r.matched_choices n).settings t ht
    obtain ⟨q, hq, hfill⟩ := hqueries x hx
    obtain ⟨entry, hentry, hrender⟩ := exists_right_of_mem hentries hq
    refine ⟨entry, hentry, fun s => ⟨_, (hrender s).symm ▸ (hfill.reads _ s).1, ?_⟩⟩
    exact (hfill.binds _ s).2 ⟨_, hp, hset.1⟩

end Naming

/-- A record with parameters in sets that are named with a backtick, and with a datatype, which has none. -/
def parameterRecord : Record :=
  { path := some "u:#p", targetClass := some "u:#C", datatype := some Xsd.date, hasValueLiterals := some ["a"],
    minLength := some 1, propertyShape := some "`S" }

theorem compile_params_bound_parameterRecord :
    ∃ p, plainNaming.compile [parameterRecord] = .ok p ∧ p.entries.length = 4 ∧ p.params.size = 2 ∧
      (∀ entry ∈ p.entries, ∀ s : Scope, ∃ ts, lex (entry.query s) = some ts ∧
        (∀ set, Binds set ts → ∃ bag, p.params.get? set = some bag ∧
          ∀ k ∈ paramsRead ts, (bag.get? k).isSome = true) ∧
        ((∀ set, ¬ Binds set ts) → paramsRead ts = [])) ∧
      ∀ set bag, p.params.get? set = some bag →
        ∃ entry ∈ p.entries, ∀ s : Scope, ∃ ts, lex (entry.query s) = some ts ∧ Binds set ts :=
  ⟨_, rfl, rfl, by decide, Naming.compile_params_bound plainNaming [parameterRecord] _ rfl⟩

end ShapePlan
