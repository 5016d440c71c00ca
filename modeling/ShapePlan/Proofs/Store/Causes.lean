/-
Why procedures fail. All that stands against a procedure on a host is listed in the order in which it is found: the
check of the resources, the loading of what is stored, the bag, and last the call that writes. The procedure fails over
the first of these causes and leaves the host as it was; where there is none it succeeds (`FailsOver`).
-/
import ShapePlan.Proofs.Config.RoundTrip
import ShapePlan.Proofs.Store.Procedure

namespace ShapePlan

open Procedure GraphConfig

/-! ## Causes on a host -/

namespace Host

variable {h : Host}

def callCauses (h : Host) (c : Call) : List ConfigError :=
  if c ∈ h.failing then [.host (c.name ++ " failed")] else []

def resourceCauses (h : Host) : List ConfigError :=
  h.callCauses .hasResources ++ if h.store.resources = 0 then [] else [.notEmpty]

/-- The causes in what is stored, or `absent` where nothing is. -/
def entityCauses (h : Host) (absent : List ConfigError) : List ConfigError :=
  match h.store.config with
  | some b => storedCauses b
  | none => absent

def loadCauses (h : Host) (absent : List ConfigError) : List ConfigError :=
  h.callCauses .loadConfig ++ h.entityCauses absent

theorem resources_of_resourceCauses (hc : h.resourceCauses = []) : h.store.resources = 0 := by
  have hright := (List.append_eq_nil_iff.1 hc).2
  split at hright
  · next hzero => exact hzero
  · cases hright

theorem isSome_of_entityCauses {e : ConfigError} (hc : h.entityCauses [e] = []) : h.store.config.isSome = true := by
  unfold entityCauses at hc
  split at hc
  · next hb => rw [hb]; rfl
  · cases hc

/-- The node properties that are nested in a mapping give no cause. -/
theorem entityCauses_nested (h : Host) (absent : List ConfigError) :
    h.entityCauses absent = match h.store.nested with
      | some b => storedCauses b
      | none => absent := by
  unfold entityCauses Store.nested
  cases h.store.config with
  | none => rfl
  | some b =>
    cases h.store.nodeProperties with
    | none => rfl
    | some p =>
      have hget : ∀ k : Key, k ≠ .forced → (b.insert Key.forced.stored (.object p)).get? k.stored = b.get? k.stored :=
        fun k hk => Dict.get?_insert_ne b _ (mt Key.stored_inj.1 hk)
      simp only [Option.map_some, storedCauses, hget .vocab (by decide), hget .multival (by decide),
        hget .types (by decide)]

end Host

/-! ## Failing over causes -/

/-- A procedure on a host either has a cause to fail, and then fails over the first and leaves the host as it was; or it
has none, and then succeeds and leaves the resources as they were. -/
inductive FailsOver {α : Type} (p : Procedure α) (h : Host) : List ConfigError → Prop where
  | failed {e : ConfigError} {cs : List ConfigError} : p.on h = (.error e, h) → FailsOver p h (e :: cs)
  | done {a : α} {h' : Host} : p.on h = (.ok a, h') → h'.store.resources = h.store.resources → FailsOver p h []

namespace FailsOver

variable {α β : Type} {p q : Procedure α} {f : α → Procedure β} {h : Host} {cs ds : List ConfigError}

theorem of_on_eq (hq : FailsOver q h cs) (heq : p.on h = q.on h) : FailsOver p h cs := by
  cases hq with
  | failed he => exact .failed (heq.trans he)
  | done ha hr => exact .done (heq.trans ha) hr

theorem lift {x : Except ConfigError α} (hx : error? x = cs.head?) : FailsOver (liftM x) h cs := by
  cases x with
  | error e =>
    cases cs with
    | nil => cases hx
    | cons c cs =>
      cases hx
      exact .failed rfl
  | ok a =>
    cases cs with
    | nil => exact .done (a := a) rfl rfl
    | cons c cs => cases hx

/-- The causes of a step that only reads come before those of what follows. -/
theorem bind (hp : FailsOver p h cs) (hread : (p.on h).2 = h) (hf : ∀ a, p.on h = (.ok a, h) → FailsOver (f a) h ds) :
    FailsOver (p >>= f) h (cs ++ ds) := by
  cases hp with
  | failed he => exact .failed (on_bind_error he)
  | @done a h' ha _ =>
    obtain rfl : h' = h := by rw [← hread, ha]
    exact (hf a ha).of_on_eq (on_bind_ok ha)

theorem bind_lift {x : Except ConfigError α} (hx : error? x = cs.head?) (hf : ∀ a, x = .ok a → FailsOver (f a) h ds) :
    FailsOver (liftM x >>= f) h (cs ++ ds) := by
  refine (lift hx).bind ?_ ?_
  · cases x <;> rfl
  · intro a ha
    cases x with
    | error e => cases ha
    | ok b =>
      cases ha
      exact hf _ rfl

theorem bind_pure (hp : FailsOver p h cs) (g : α → β) : FailsOver (p >>= fun a => pure (g a)) h cs := by
  cases hp with
  | failed he => exact .failed (on_bind_error he)
  | done ha hr => exact .done (on_bind_ok ha) hr

/-- A call has no cause to fail but the host. -/
theorem call {c : Call} {a : α} {h' : Host}
    (hp : p.on h = if c ∈ h.failing then (.error (.host (c.name ++ " failed")), h) else (.ok a, h'))
    (hr : h'.store.resources = h.store.resources) : FailsOver p h (h.callCauses c) := by
  unfold Host.callCauses
  split at hp
  · next hc =>
    rw [if_pos hc]
    exact .failed hp
  · next hc =>
    rw [if_neg hc]
    exact .done hp hr

theorem causes_eq_nil (hp : FailsOver p h cs) {a : α} (ha : (p.on h).1 = .ok a) : cs = [] := by
  cases hp with
  | failed he =>
    rw [he] at ha
    cases ha
  | done => rfl

end FailsOver

/-! ## Procedures -/

namespace GraphConfig

variable {α : Type}

theorem failsOver_requireEmpty (h : Host) : FailsOver requireEmpty h h.resourceCauses := by
  have hcall : Host.hasResources.on h = _ := Host.on_reach .hasResources _ h
  have hread : (Host.hasResources.on h).2 = h := by
    rw [hcall]
    split <;> rfl
  refine (FailsOver.call hcall rfl).bind hread ?_
  intro full hfull
  rw [hcall] at hfull
  split at hfull
  · cases hfull
  · cases hfull
    by_cases hzero : h.store.resources = 0
    · rw [if_pos hzero, hzero]
      exact .done rfl rfl
    · rw [if_neg hzero, decide_eq_true (UInt64.pos_iff_ne_zero.2 hzero)]
      exact .failed rfl

/-- What is loaded decides how it goes on. -/
theorem failsOver_loadConfig {f : Option Bag → Procedure α} {h : Host} {cs : List ConfigError}
    (hf : FailsOver (f h.store.nested) h cs) :
    FailsOver (Host.loadConfig >>= f) h (h.callCauses .loadConfig ++ cs) := by
  refine (FailsOver.call (on_loadConfig h) rfl).bind (on_loadConfig_frame h) ?_
  intro stored hs
  rw [on_loadConfig] at hs
  split at hs
  · cases hs
  · cases hs
    exact hf

theorem failsOver_save (c : GraphConfig) (h : Host) :
    FailsOver (c.save >>= fun _ => pure c.items) h (h.callCauses .saveConfig) :=
  (FailsOver.call (on_save c h) rfl).bind_pure fun _ => c.items

theorem failsOver_create (b : Bag) (h : Host) :
    FailsOver (create b) h (h.resourceCauses ++ bagCauses b ++ h.callCauses .saveConfig) := by
  rw [List.append_assoc]
  refine (failsOver_requireEmpty h).bind (on_requireEmpty h) fun _ _ => ?_
  exact .bind_lift (error?_add {} b) fun c _ => failsOver_save c h

theorem failsOver_merge (b : Bag) (h : Host) :
    FailsOver (merge b) h (h.loadCauses [.missing] ++ (bagCauses b ++ h.callCauses .saveConfig)) := by
  rw [Host.loadCauses, List.append_assoc, Host.entityCauses_nested]
  refine failsOver_loadConfig ?_
  cases h.store.nested with
  | none => exact .failed rfl
  | some stored =>
    refine .bind_lift (error?_ofStored stored) fun c _ => ?_
    exact .bind_lift (error?_add c b) fun d _ => failsOver_save d h

theorem failsOver_update (b : Bag) (h : Host) : FailsOver (update b) h
    ((if b.get? "force" = some (.bool true) then [] else h.resourceCauses) ++ h.loadCauses [.missing] ++ bagCauses b ++
      h.callCauses .saveConfig) := by
  have hforce : b.isTrue forceKey = decide (b.get? "force" = some (.bool true)) := rfl
  rw [update_eq, hforce, List.append_assoc, List.append_assoc]
  by_cases hf : b.get? "force" = some (.bool true)
  · rw [if_pos hf, if_pos (decide_eq_true hf)]
    exact failsOver_merge b h
  · rw [if_neg hf, if_neg (by simpa using hf)]
    exact (failsOver_requireEmpty h).bind (on_requireEmpty h) fun _ _ => failsOver_merge b h

theorem failsOver_remove (h : Host) : FailsOver remove h (h.resourceCauses ++ h.callCauses .deleteConfig) := by
  refine (failsOver_requireEmpty h).bind (on_requireEmpty h) fun _ _ => ?_
  exact (FailsOver.call (on_deleteConfig h) rfl).bind_pure fun _ => []

theorem failsOver_load (h : Host) : FailsOver load h (h.loadCauses []) := by
  rw [Host.loadCauses, Host.entityCauses_nested]
  refine failsOver_loadConfig ?_
  cases h.store.nested with
  | none => exact .done rfl rfl
  | some stored => exact (FailsOver.lift (error?_ofStored stored)).bind_pure some

theorem failsOver_view (h : Host) : FailsOver view h (h.loadCauses []) := by
  rw [← List.append_nil (h.loadCauses [])]
  refine (failsOver_load h).bind (on_load_frame h) fun c _ => ?_
  cases c <;> exact .done rfl rfl

/-- On every host, whatever it holds and whatever calls fail, each procedure fails over the first of its causes and then
changes nothing, or succeeds and keeps the resources; an update with force passes over the check of the resources.
Viewing and loading change nothing at all. Only an empty graph has its configuration created or removed, and only a
configuration that is there is updated, on an empty graph or with force. -/
theorem procedures_guarded (b : Bag) (h : Host) :
    FailsOver (create b) h (h.resourceCauses ++ bagCauses b ++ h.callCauses .saveConfig) ∧
    FailsOver (update b) h ((if b.get? "force" = some (.bool true) then [] else h.resourceCauses) ++
      h.loadCauses [.missing] ++ bagCauses b ++ h.callCauses .saveConfig) ∧
    FailsOver remove h (h.resourceCauses ++ h.callCauses .deleteConfig) ∧
    FailsOver view h (h.loadCauses []) ∧ FailsOver load h (h.loadCauses []) ∧
    (view.on h).2 = h ∧ (load.on h).2 = h ∧
    (∀ l, ((create b).on h).1 = .ok l → h.store.resources = 0) ∧
    (∀ l, (remove.on h).1 = .ok l → h.store.resources = 0) ∧
    ∀ l, ((update b).on h).1 = .ok l →
      h.store.config.isSome = true ∧ (h.store.resources = 0 ∨ b.get? "force" = some (.bool true)) := by
  refine ⟨failsOver_create b h, failsOver_update b h, failsOver_remove h, failsOver_view h, failsOver_load h,
    on_view_frame h, on_load_frame h, ?_, ?_, ?_⟩
  · intro l hl
    have hnone := (failsOver_create b h).causes_eq_nil hl
    simp only [List.append_eq_nil_iff] at hnone
    exact Host.resources_of_resourceCauses hnone.1.1
  · intro l hl
    have hnone := (failsOver_remove h).causes_eq_nil hl
    exact Host.resources_of_resourceCauses (List.append_eq_nil_iff.1 hnone).1
  · intro l hl
    have hnone := (failsOver_update b h).causes_eq_nil hl
    simp only [Host.loadCauses, List.append_eq_nil_iff] at hnone
    obtain ⟨⟨⟨hresources, -, hentity⟩, -⟩, -⟩ := hnone
    refine ⟨Host.isSome_of_entityCauses hentity, ?_⟩
    split at hresources
    · next hforce => exact .inr hforce
    · exact .inl (Host.resources_of_resourceCauses hresources)

/-- A host with resources and a policy that is no code, on which two calls fail. -/
def junkHost : Host :=
  { store := { config := some (Dict.ofList [("_handleVocabUris", .int 9)]), resources := 2 }
    failing := [.hasResources, .saveConfig] }

/-- An update with force over an unknown policy. -/
def reifyingBag : Bag := Dict.ofList [("force", .bool true), ("handleMultival", .string "REIFY")]

theorem procedures_guarded_junkHost :
    (update reifyingBag).on junkHost = (.error (.invalidParam "handleVocabUris" "9"), junkHost) := by
  have hcauses : FailsOver (update reifyingBag) junkHost
      [.invalidParam "handleVocabUris" "9", .invalidParam "handleMultival" "REIFY", .host "save_config failed"] :=
    (procedures_guarded reifyingBag junkHost).2.1
  cases hcauses with
  | failed he => exact he

end GraphConfig

end ShapePlan
