/-
Reports and views. What creating or updating a configuration reports is taken from the configuration itself, what a view
shows has gone through storage. The two agree line by line, save that a property of the name by which a host identifies
its nodes is reported and not shown.
-/
import ShapePlan.Proofs.Config.Items
import ShapePlan.Proofs.Config.RoundTrip
import ShapePlan.Proofs.Store.Procedure

namespace ShapePlan

open Procedure

/-! ## Lines without an identity -/

/-- The line of the forced properties loses their identity. Any other line stays as it is. -/
def Item.withoutIdentity (e : Item) : Item :=
  if e.1 = Key.forced.name then
    (e.1, match e.2 with
      | .object d => .object (d.erase GraphConfig.identityKey)
      | v => v)
  else e

namespace GraphConfig

variable {b : Bag} {c d : GraphConfig} {h h' : Host} {l : List Item}

theorem items_withoutIdentity (c : GraphConfig) : c.withoutIdentity.items = c.items.map Item.withoutIdentity := by
  have hline : ∀ k, c.withoutIdentity.line k = (c.line k).map Item.withoutIdentity := by
    intro k
    by_cases hk : k = .forced
    · subst hk
      rfl
    · have hv : c.withoutIdentity.shownValue k = c.shownValue k := by
        cases k with
        | forced => exact absurd rfl hk
        | _ => rfl
      have hname : k.name ≠ Key.forced.name := mt Key.name_inj hk
      rw [line, line, hv]
      cases c.shownValue k with
      | none => rfl
      | some v => simp [Item.withoutIdentity, hname]
  rw [items_eq, items_eq, List.map_filterMap]
  exact congrArg (List.filterMap · shownKeys) (funext hline)

/-- The view differs from the report if and only if there is an identity. -/
theorem items_withoutIdentity_eq : c.items.map Item.withoutIdentity = c.items ↔ c.forced.get? identityKey = none := by
  rw [← items_withoutIdentity, ← Dict.erase_eq_self]
  constructor
  · intro h
    have hv : some (Value.object c.withoutIdentity.forced) = some (.object c.forced) := by
      have hf := get?_ofList_items c.withoutIdentity .forced
      rw [h, get?_ofList_items] at hf
      exact hf.symm
    exact Value.object.inj (Option.some.inj hv)
  · intro h
    rw [withoutIdentity, h]

/-! ## Where an identity comes from -/

/-- Only a bag brings an identity in. -/
theorem identity_of_add (hd : c.add b = .ok d) (hc : c.forced.get? identityKey = none) :
    d.forced.get? identityKey = none ↔
      ∀ p, b.get? Key.forced.name = some (.object p) → p.get? identityKey = none := by
  rw [(add_eq_ok.1 hd).forced]
  cases b.get? Key.forced.name with
  | none => simpa [mergeForced] using hc
  | some v => cases v <;> simp [mergeForced]

theorem identity_of_ofStored (hc : ofStored b = .ok c) : c.forced.get? identityKey = none :=
  Dict.erase_eq_self.1 (congrArg forced (withoutIdentity_of_ofStored hc))

/-- What has been reported is what has been saved: the outcome of merging the bag into a configuration without an
identity. -/
theorem report_cases (hr : (create b).on h = (.ok l, h') ∨ (update b).on h = (.ok l, h')) :
    ∃ c d : GraphConfig, c.forced.get? identityKey = none ∧ c.add b = .ok d ∧ l = d.items ∧
      h' = { h with store := h.store.saved d } := by
  rcases hr with hr | hr
  · rcases on_create b h with ⟨e, he⟩ | ⟨d, hd, hs⟩
    · rw [he] at hr
      cases hr
    · rw [hs] at hr
      cases hr
      exact ⟨{}, d, rfl, hd, rfl, rfl⟩
  · rcases on_update b h with ⟨e, he⟩ | ⟨stored, c, d, -, hc, hd, hs⟩
    · rw [he] at hr
      cases hr
    · rw [hs] at hr
      cases hr
      exact ⟨c, d, identity_of_ofStored hc, hd, rfl, rfl⟩

theorem on_view_saved (hf : .loadConfig ∉ h.failing) (c : GraphConfig) :
    view.on { h with store := h.store.saved c } =
      (.ok c.withoutIdentity.items, { h with store := h.store.saved c }) := by
  obtain ⟨stored, hn, hc⟩ := h.store.ofStored_nested_saved c
  exact on_bind_ok (on_load_some (h := { h with store := h.store.saved c }) hf hn hc)

/-- A view right after a report shows the reported lines, save for an identity among the forced properties. So it shows
exactly the report, unless the bag has just brought an identity in. -/
theorem view_after_report (hf : .loadConfig ∉ h.failing)
    (hr : (create b).on h = (.ok l, h') ∨ (update b).on h = (.ok l, h')) :
    view.on h' = (.ok (l.map Item.withoutIdentity), h') ∧
    (l.map Item.withoutIdentity = l ↔
      ∀ p, b.get? "forciblyAssignedOnImportNodeProperties" = some (.object p) → p.get? "identity" = none) := by
  obtain ⟨c, d, hc, hd, rfl, rfl⟩ := report_cases hr
  refine ⟨?_, items_withoutIdentity_eq.trans (identity_of_add hd hc)⟩
  rw [← items_withoutIdentity]
  exact on_view_saved hf d

/-- A bag with an identity among the forced properties. -/
def identityBag : Bag :=
  Dict.ofList [(Key.forced.name, .object (Dict.ofList [("batch", .int 1), (identityKey, .int 7)]))]

/-- A bag that sets nothing. -/
def forcingBag : Bag := Dict.ofList [(forceKey, .bool true)]

/-- A host with resources, and with an identity in its store. -/
def identityHost : Host :=
  { store := { config := some Dict.empty, nodeProperties := some (Dict.ofList [(identityKey, .int 7)])
               resources := 3 } }

theorem view_after_report_identity :
    (∃ l h, (create identityBag).on {} = (.ok l, h) ∧ view.on h = (.ok (l.map Item.withoutIdentity), h) ∧
      l.map Item.withoutIdentity ≠ l) ∧
    ∃ l h, (update forcingBag).on identityHost = (.ok l, h) ∧ view.on h = (.ok l, h) := by
  constructor
  · have hr : (create identityBag).on {} = (.ok _, _) := rfl
    obtain ⟨hview, heq⟩ := view_after_report (by decide) (.inl hr)
    exact ⟨_, _, hr, hview, fun hl => absurd (heq.1 hl _ rfl) (by decide)⟩
  · have hr : (update forcingBag).on identityHost = (.ok _, _) := rfl
    obtain ⟨hview, heq⟩ := view_after_report (by decide) (.inr hr)
    exact ⟨_, _, hr, hview.trans (by rw [heq.2 fun _ => nofun])⟩

/-- Creating reports an identity that is not shown. -/
theorem identityBag_not_shown : ∃ l h, (create identityBag).on {} = (.ok l, h) ∧ (view.on h).1 ≠ .ok l := by
  rcases on_create identityBag {} with ⟨e, he⟩ | ⟨c, hc, hr⟩
  · cases he
  · refine ⟨_, _, hr, ?_⟩
    rw [on_view_saved (by decide), items_withoutIdentity]
    intro hl
    have hnone := (identity_of_add hc rfl).1 (items_withoutIdentity_eq.1 (Except.ok.inj hl)) _ rfl
    exact absurd hnone (by decide)

end GraphConfig

end ShapePlan
