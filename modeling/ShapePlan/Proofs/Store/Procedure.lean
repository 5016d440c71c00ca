/-
What each procedure does to a host. A procedure that fails leaves the host as it was; one that succeeds writes both
entities of a configuration, or removes both, and changes nothing else.
-/
import ShapePlan.Proofs.Config.Stored
import ShapePlan.Store

namespace ShapePlan

/-! ## Running procedures -/

namespace Procedure

variable {α β : Type}

/-- The result of a procedure and the host that it leaves. -/
def on (p : Procedure α) (h : Host) : Except ConfigError α × Host := p.run.run h

theorem on_bind_ok {p : Procedure α} {f : α → Procedure β} {h h' : Host} {a : α} (hp : p.on h = (.ok a, h')) :
    (p >>= f).on h = (f a).on h' := by
  have hb : (p >>= f).on h = (ExceptT.bindCont f (p.on h).1).run (p.on h).2 := rfl
  rw [hb, hp]
  rfl

theorem on_bind_error {p : Procedure α} {f : α → Procedure β} {h h' : Host} {e : ConfigError}
    (hp : p.on h = (.error e, h')) : (p >>= f).on h = (.error e, h') := by
  have hb : (p >>= f).on h = (ExceptT.bindCont f (p.on h).1).run (p.on h).2 := rfl
  rw [hb, hp]
  rfl

/-- A step that leaves the host as it is fails as a whole, or hands its result on. -/
theorem on_bind_cases {p : Procedure α} {f : α → Procedure β} {h : Host} (hp : (p.on h).2 = h) :
    (∃ e, (p >>= f).on h = (.error e, h)) ∨ ∃ a, p.on h = (.ok a, h) ∧ (p >>= f).on h = (f a).on h := by
  rcases hr : p.on h with ⟨r, h'⟩
  obtain rfl : h' = h := by rw [← hp, hr]
  cases r with
  | error e => exact .inl ⟨e, on_bind_error hr⟩
  | ok a => exact .inr ⟨a, rfl, on_bind_ok hr⟩

/-- The same for a result that does not depend on the host. -/
theorem on_lift_cases (x : Except ConfigError α) (f : α → Procedure β) (h : Host) :
    (∃ e, (liftM x >>= f).on h = (.error e, h)) ∨ ∃ a, x = .ok a ∧ (liftM x >>= f).on h = (f a).on h := by
  cases x with
  | error e => exact .inl ⟨e, rfl⟩
  | ok a => exact .inr ⟨a, rfl, rfl⟩

end Procedure

open Procedure

/-! ## Calls -/

/-- Whatever is done with the store, a call that fails does nothing. -/
theorem Host.on_reach {α : Type} (c : Call) (f : Store → Procedure α) (h : Host) : (reach c >>= f).on h =
    if c ∈ h.failing then (.error (.host (c.name ++ " failed")), h) else (f h.store).on h := by
  have hr : (reach c).on h = Procedure.on
      (if c ∈ h.failing then throw (.host (c.name ++ " failed")) else pure h.store) h := rfl
  split
  · next hc => exact on_bind_error (by rw [hr, if_pos hc]; rfl)
  · next hc => exact on_bind_ok (by rw [hr, if_neg hc]; rfl)

namespace Store

/-- The mapping that a store gives back: the configuration entity with the node properties in it. -/
def nested (s : Store) : Option Bag :=
  s.config.map fun b =>
    match s.nodeProperties with
    | some p => b.insert Key.forced.stored (.object p)
    | none => b

/-- The store with the two entities of a configuration. -/
def saved (s : Store) (c : GraphConfig) : Store :=
  { s with config := some (c.toStored.erase Key.forced.stored), nodeProperties := some c.forced }

def removed (s : Store) : Store := { s with config := none, nodeProperties := none }

/-- The split entities give back what was stored. -/
theorem ofStored_nested_saved (s : Store) (c : GraphConfig) :
    ∃ b, (s.saved c).nested = some b ∧ GraphConfig.ofStored b = .ok c.withoutIdentity := by
  have hn : (s.saved c).nested =
      some ((c.toStored.erase Key.forced.stored).insert Key.forced.stored (.object c.forced)) := rfl
  refine ⟨_, hn, GraphConfig.ofStored_of_values fun k => ?_⟩
  rw [Dict.get?_insert, Dict.get?_erase]
  by_cases hk : k = .forced
  · subst hk
    rw [if_pos rfl]
    rfl
  · rw [if_neg (mt Key.stored_inj.1 hk), if_neg (mt Key.stored_inj.1 hk), GraphConfig.get?_toStored]

end Store

namespace GraphConfig

/-! ## Reading procedures -/

theorem on_requireEmpty (h : Host) : (requireEmpty.on h).2 = h := by
  have hh : (Host.hasResources.on h).2 = h := by
    have hr : Host.hasResources.on h = _ := Host.on_reach .hasResources _ h
    rw [hr]
    split <;> rfl
  unfold requireEmpty
  rcases on_bind_cases hh with ⟨e, he⟩ | ⟨full, -, hf⟩
  · rw [he]
  · rw [hf]
    cases full <;> rfl

theorem on_loadConfig (h : Host) : Host.loadConfig.on h =
    if .loadConfig ∈ h.failing then (.error (.host (Call.loadConfig.name ++ " failed")), h)
    else (.ok h.store.nested, h) :=
  Host.on_reach .loadConfig _ h

theorem on_loadConfig_frame (h : Host) : (Host.loadConfig.on h).2 = h := by
  rw [on_loadConfig]
  split <;> rfl

theorem on_load_none {h : Host} (hf : .loadConfig ∉ h.failing) (hs : h.store.nested = none) :
    load.on h = (.ok none, h) := by
  have hl := on_loadConfig h
  rw [if_neg hf, hs] at hl
  exact on_bind_ok hl

theorem on_load_some {h : Host} (hf : .loadConfig ∉ h.failing) {b : Bag} (hs : h.store.nested = some b)
    {c : GraphConfig} (hc : ofStored b = .ok c) : load.on h = (.ok (some c), h) := by
  have hl := on_loadConfig h
  rw [if_neg hf, hs] at hl
  rcases on_lift_cases (ofStored b) (fun c => pure (some c)) h with ⟨e, he⟩ | ⟨d, hd, hr⟩
  · rw [hc] at he
    cases he
  · rw [hc] at hd
    cases hd
    exact (on_bind_ok hl).trans hr

theorem on_load_frame (h : Host) : (load.on h).2 = h := by
  unfold load
  rcases on_bind_cases (on_loadConfig_frame h) with ⟨e, he⟩ | ⟨stored, -, hs⟩
  · rw [he]
  · rw [hs]
    cases stored with
    | none => rfl
    | some b =>
      rcases on_lift_cases (ofStored b) (fun c => pure (some c)) h with ⟨e, he⟩ | ⟨c, -, hc⟩
      · rw [he]
      · rw [hc]
        rfl

theorem on_view_frame (h : Host) : (view.on h).2 = h := by
  unfold view
  rcases on_bind_cases (on_load_frame h) with ⟨e, he⟩ | ⟨c, -, hc⟩
  · rw [he]
  · rw [hc]
    cases c <;> rfl

/-! ## Writing procedures -/

theorem on_save (c : GraphConfig) (h : Host) : c.save.on h =
    if .saveConfig ∈ h.failing then (.error (.host (Call.saveConfig.name ++ " failed")), h)
    else (.ok (), { h with store := h.store.saved c }) := by
  -- the properties are always stored as an object, so the fallback is never taken
  have hp : (c.toStored.get? Key.forced.stored >>= Value.object?).getD Dict.empty = c.forced := by
    rw [get?_toStored]
    rfl
  rw [save, hp, Host.saveConfig, Host.on_reach, Dict.erase_erase]
  rfl

theorem on_deleteConfig (h : Host) : Host.deleteConfig.on h =
    if .deleteConfig ∈ h.failing then (.error (.host (Call.deleteConfig.name ++ " failed")), h)
    else (.ok (), { h with store := h.store.removed }) :=
  Host.on_reach .deleteConfig _ h

/-- What follows a configuration that is to be saved. -/
theorem on_save_cases (c : GraphConfig) (h : Host) :
    (∃ e, (c.save >>= fun _ => pure c.items).on h = (.error e, h)) ∨
    (c.save >>= fun _ => pure c.items).on h = (.ok c.items, { h with store := h.store.saved c }) := by
  have hs := on_save c h
  split at hs
  · exact .inl ⟨_, on_bind_error hs⟩
  · exact .inr (on_bind_ok hs)

/-- Creating fails and changes nothing, or saves the configuration of the bag. -/
theorem on_create (b : Bag) (h : Host) : (∃ e, (create b).on h = (.error e, h)) ∨
    ∃ c, ofBag b = .ok c ∧ (create b).on h = (.ok c.items, { h with store := h.store.saved c }) := by
  unfold create
  rcases on_bind_cases (on_requireEmpty h) with he | ⟨_, -, hr⟩
  · exact .inl he
  rw [hr]
  rcases on_lift_cases (ofBag b) _ h with he | ⟨c, hc, hr⟩
  · exact .inl he
  rw [hr]
  rcases on_save_cases c h with he | hs
  · exact .inl he
  · exact .inr ⟨c, hc, hs⟩

/-- What an update does once the graph may be changed. -/
def merge (b : Bag) : Procedure (List Item) := do
  let some stored ← Host.loadConfig | throw .missing
  let c ← ofStored stored
  let c ← c.add b
  c.save
  return c.items

theorem update_eq (b : Bag) : update b = if b.isTrue forceKey then merge b else requireEmpty >>= fun _ => merge b := by
  unfold update
  cases b.isTrue forceKey <;> rfl

theorem on_merge (b : Bag) (h : Host) : (∃ e, (merge b).on h = (.error e, h)) ∨
    ∃ stored c d, h.store.nested = some stored ∧ ofStored stored = .ok c ∧ c.add b = .ok d ∧
      (merge b).on h = (.ok d.items, { h with store := h.store.saved d }) := by
  unfold merge
  rcases on_bind_cases (on_loadConfig_frame h) with he | ⟨stored, hl, hr⟩
  · exact .inl he
  rw [hr]
  have hn : h.store.nested = stored := by
    rw [on_loadConfig] at hl
    split at hl
    · cases hl
    · cases hl; rfl
  cases stored with
  | none => exact .inl ⟨_, rfl⟩
  | some stored =>
    rcases on_lift_cases (ofStored stored) _ h with he | ⟨c, hc, hr⟩
    · exact .inl he
    rw [hr]
    rcases on_lift_cases (c.add b) _ h with he | ⟨d, hd, hr⟩
    · exact .inl he
    rw [hr]
    rcases on_save_cases d h with he | hs
    · exact .inl he
    · exact .inr ⟨stored, c, d, hn, hc, hd, hs⟩

/-- Updating fails and changes nothing, or merges the bag into what the store gives back and saves the outcome. -/
theorem on_update (b : Bag) (h : Host) : (∃ e, (update b).on h = (.error e, h)) ∨
    ∃ stored c d, h.store.nested = some stored ∧ ofStored stored = .ok c ∧ c.add b = .ok d ∧
      (update b).on h = (.ok d.items, { h with store := h.store.saved d }) := by
  rw [update_eq]
  split
  · exact on_merge b h
  · rcases on_bind_cases (on_requireEmpty h) with he | ⟨_, -, hr⟩
    · exact .inl he
    · rw [hr]
      exact on_merge b h

/-- Removing fails and changes nothing, or removes both entities. -/
theorem on_remove (h : Host) : (∃ e, remove.on h = (.error e, h)) ∨
    remove.on h = (.ok [], { h with store := h.store.removed }) := by
  unfold remove
  rcases on_bind_cases (on_requireEmpty h) with he | ⟨_, -, hr⟩
  · exact .inl he
  rw [hr]
  have hd := on_deleteConfig h
  split at hd
  · exact .inl ⟨_, on_bind_error hd⟩
  · exact .inr (on_bind_ok hd)

end GraphConfig

end ShapePlan
