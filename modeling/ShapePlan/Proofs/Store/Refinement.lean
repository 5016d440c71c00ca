/-
A store keeps a configuration as a machine would that holds it in memory. The machine takes over what succeeds and
passes over what fails; the store splits, strips and re-reads the configuration at every step, and after any run it
still gives back what the machine holds, save for the identity of the forced properties.
-/
import ShapePlan.Proofs.Store.Procedure

namespace ShapePlan

/-! ## Operations -/

/-- What can happen to a host: a procedure, a change of its resources, or a change of the calls that fail. -/
inductive Operation where
  | create (b : Bag)
  | update (b : Bag)
  | view
  | load
  | remove
  | addResources (n : Nat)
  | clearResources
  | setFailing (calls : List Call)
deriving DecidableEq, Repr

namespace Operation

/-- Whether a procedure succeeds, and the host that it leaves. -/
def outcome {α : Type} (r : Except ConfigError α × Host) : Bool × Host := (r.1.isOk, r.2)

def run : Operation → Host → Bool × Host
  | .create b, h => outcome ((GraphConfig.create b).on h)
  | .update b, h => outcome ((GraphConfig.update b).on h)
  | .view, h => outcome (GraphConfig.view.on h)
  | .load, h => outcome (GraphConfig.load.on h)
  | .remove, h => outcome (GraphConfig.remove.on h)
  | .addResources n, h => (true, { h with store := h.store.addResources n })
  | .clearResources, h => (true, { h with store := h.store.clearResources })
  | .setFailing calls, h => (true, { h with failing := calls })

/-- The host after all operations. -/
def runAll : List Operation → Host → Host
  | [], h => h
  | o :: os, h => runAll os (o.run h).2

/-- The operations of a run, each with whether it succeeded. -/
def trace : List Operation → Host → List (Operation × Bool)
  | [], _ => []
  | o :: os, h => (o, (o.run h).1) :: trace os (o.run h).2

def changesConfig : Operation → Bool
  | .create _ => true
  | .update _ => true
  | .remove => true
  | _ => false

end Operation

open Operation

/-! ## The machine -/

/-- A step of the machine that holds at most one configuration. An operation that fails changes nothing. -/
inductive ConfigStep : Operation × Bool → Option GraphConfig → Option GraphConfig → Prop where
  | create {b : Bag} {c : GraphConfig} {a : Option GraphConfig} :
      GraphConfig.ofBag b = .ok c → ConfigStep (.create b, true) a (some c)
  | update {b : Bag} {c d : GraphConfig} : c.add b = .ok d → ConfigStep (.update b, true) (some c) (some d)
  | remove {a : Option GraphConfig} : ConfigStep (.remove, true) a none
  | keep {o : Operation} {ok : Bool} {a : Option GraphConfig} :
      (ok = true → o.changesConfig = false) → ConfigStep (o, ok) a a

inductive ConfigRun : List (Operation × Bool) → Option GraphConfig → Option GraphConfig → Prop where
  | nil {a : Option GraphConfig} : ConfigRun [] a a
  | cons {o : Operation × Bool} {os : List (Operation × Bool)} {a b c : Option GraphConfig} :
      ConfigStep o a b → ConfigRun os b c → ConfigRun (o :: os) a c

theorem ConfigStep.unique {o : Operation × Bool} {a b c : Option GraphConfig} (hb : ConfigStep o a b)
    (hc : ConfigStep o a c) : b = c := by
  cases hb with
  | create hb =>
    cases hc with
    | create hc => rw [Except.ok.inj (hb.symm.trans hc)]
    | keep hk => exact absurd (hk rfl) (by simp [changesConfig])
  | update hb =>
    cases hc with
    | update hc => rw [Except.ok.inj (hb.symm.trans hc)]
    | keep hk => exact absurd (hk rfl) (by simp [changesConfig])
  | remove =>
    cases hc with
    | remove => rfl
    | keep hk => exact absurd (hk rfl) (by simp [changesConfig])
  | keep hk =>
    cases hc with
    | keep => rfl
    | create => exact absurd (hk rfl) (by simp [changesConfig])
    | update => exact absurd (hk rfl) (by simp [changesConfig])
    | remove => exact absurd (hk rfl) (by simp [changesConfig])

theorem ConfigRun.unique {os : List (Operation × Bool)} {a b c : Option GraphConfig} (hb : ConfigRun os a b)
    (hc : ConfigRun os a c) : b = c := by
  induction hb with
  | nil => cases hc; rfl
  | cons hs _ ih =>
    cases hc with
    | cons hs' hr' =>
      cases hs.unique hs'
      exact ih hr'

/-! ## The simulation -/

/-- What a store holds of the configuration of the machine. They may differ in the identity of the forced properties,
which is lost when the store is read. -/
inductive Holds (s : Store) : Option GraphConfig → Prop where
  | nothing : s.config = none → s.nodeProperties = none → Holds s none
  | saved {c a : GraphConfig} : s.config = some (c.toStored.erase Key.forced.stored) →
      s.nodeProperties = some c.forced → c.withoutIdentity = a.withoutIdentity → Holds s (some a)

theorem holds_saved (s : Store) {c a : GraphConfig} (h : c.withoutIdentity = a.withoutIdentity) :
    Holds (s.saved c) (some a) :=
  .saved rfl rfl h

theorem holds_removed (s : Store) : Holds s.removed none := .nothing rfl rfl

theorem Holds.of_entities {s t : Store} {a : Option GraphConfig} (h : Holds s a) (hc : t.config = s.config)
    (hp : t.nodeProperties = s.nodeProperties) : Holds t a := by
  cases h with
  | nothing h₁ h₂ => exact .nothing (hc.trans h₁) (hp.trans h₂)
  | saved h₁ h₂ h₃ => exact .saved (hc.trans h₁) (hp.trans h₂) h₃

/-- What is read from a store that holds something. -/
theorem Holds.nested {s : Store} {a : Option GraphConfig} (h : Holds s a) :
    (a = none ∧ s.nested = none) ∨
    ∃ c b, a = some c ∧ s.nested = some b ∧ GraphConfig.ofStored b = .ok c.withoutIdentity := by
  cases h with
  | nothing hc _ => exact .inl ⟨rfl, by rw [Store.nested, hc]; rfl⟩
  | @saved c a hc hp he =>
    obtain ⟨b, hb, ho⟩ := s.ofStored_nested_saved c
    have hs : s.nested = (s.saved c).nested := by simp only [Store.nested, hc, hp, Store.saved]
    exact .inr ⟨a, b, rfl, hs.trans hb, he ▸ ho⟩

/-- Every operation of the host is a step of the machine. -/
theorem step_refines {h : Host} {a : Option GraphConfig} (hh : Holds h.store a) (o : Operation) :
    ∃ a', ConfigStep (o, (o.run h).1) a a' ∧ Holds (o.run h).2.store a' := by
  cases o with
  | create b =>
    rcases GraphConfig.on_create b h with ⟨e, he⟩ | ⟨c, hc, hr⟩
    · rw [run, he]
      exact ⟨a, .keep nofun, hh⟩
    · rw [run, hr]
      exact ⟨some c, .create hc, holds_saved _ rfl⟩
  | update b =>
    rcases GraphConfig.on_update b h with ⟨e, he⟩ | ⟨stored, w, d, hn, ho, hd, hr⟩
    · rw [run, he]
      exact ⟨a, .keep nofun, hh⟩
    · rw [run, hr]
      rcases hh.nested with ⟨-, hnone⟩ | ⟨c, b', rfl, hb, hc⟩
      · rw [hnone] at hn
        cases hn
      · -- the store has read what the machine holds without its identity
        cases hb.symm.trans hn
        cases ho.symm.trans hc
        obtain ⟨d', hd', he⟩ := GraphConfig.add_withoutIdentity hd
        exact ⟨some d', .update hd', holds_saved _ he⟩
  | view =>
    refine ⟨a, .keep fun _ => rfl, ?_⟩
    rw [run, outcome, GraphConfig.on_view_frame]
    exact hh
  | load =>
    refine ⟨a, .keep fun _ => rfl, ?_⟩
    rw [run, outcome, GraphConfig.on_load_frame]
    exact hh
  | remove =>
    rcases GraphConfig.on_remove h with ⟨e, he⟩ | hr
    · rw [run, he]
      exact ⟨a, .keep nofun, hh⟩
    · rw [run, hr]
      exact ⟨none, .remove, holds_removed _⟩
  | addResources n => exact ⟨a, .keep fun _ => rfl, hh.of_entities rfl rfl⟩
  | clearResources => exact ⟨a, .keep fun _ => rfl, hh.of_entities rfl rfl⟩
  | setFailing calls => exact ⟨a, .keep fun _ => rfl, hh⟩

theorem run_refines (os : List Operation) {h : Host} {a : Option GraphConfig} (hh : Holds h.store a) :
    ∃ a', ConfigRun (trace os h) a a' ∧ Holds (runAll os h).store a' := by
  induction os generalizing h a with
  | nil => exact ⟨a, .nil, hh⟩
  | cons o os ih =>
    obtain ⟨b, hs, hb⟩ := step_refines hh o
    obtain ⟨c, hr, hc⟩ := ih hb
    exact ⟨c, .cons hs hr, hc⟩

/-! ## What a store shows of the machine -/

theorem Holds.both {s : Store} {a : Option GraphConfig} (h : Holds s a) :
    s.config.isSome = s.nodeProperties.isSome := by
  cases h with
  | nothing hc hp => rw [hc, hp]
  | saved hc hp _ => simp only [hc, hp, Option.isSome_some]

theorem Holds.forced_apart {s : Store} {a : Option GraphConfig} (h : Holds s a) {b : Bag} (hb : s.config = some b) :
    b.get? Key.forced.stored = none := by
  cases h with
  | nothing hc _ => rw [hc] at hb; cases hb
  | saved hc _ _ =>
    obtain rfl := Option.some.inj (hc.symm.trans hb)
    rw [Dict.get?_erase, if_pos rfl]

theorem Holds.on_load {h : Host} {a : Option GraphConfig} (hh : Holds h.store a) (hf : .loadConfig ∉ h.failing) :
    (GraphConfig.load.on h).1 = .ok (a.map GraphConfig.withoutIdentity) := by
  rcases hh.nested with ⟨rfl, hn⟩ | ⟨c, b, rfl, hn, hc⟩
  · rw [GraphConfig.on_load_none hf hn]
    rfl
  · rw [GraphConfig.on_load_some hf hn hc]
    rfl

/-- After any run from the empty store, whatever calls fail on the way, the two entities are there or not there together
and the forced properties are kept apart; and unless the call for it fails, loading gives the one configuration that the
machine comes to hold with the same successes, without the identity of its forced properties. -/
theorem store_refines_configuration (os : List Operation) :
    ∃ a, (∀ a', ConfigRun (trace os {}) none a' ↔ a' = a) ∧
      (runAll os {}).store.config.isSome = (runAll os {}).store.nodeProperties.isSome ∧
      (∀ b, (runAll os {}).store.config = some b → b.get? "_forciblyAssignedOnImportNodeProperties" = none) ∧
      (.loadConfig ∉ (runAll os {}).failing → (GraphConfig.load.on (runAll os {})).1 =
        .ok (a.map fun c => { c with forced := c.forced.erase "identity" })) := by
  have hstart : Holds ({} : Host).store none := .nothing rfl rfl
  obtain ⟨a, hr, hh⟩ := run_refines os hstart
  refine ⟨a, fun a' => ⟨fun h => h.unique hr, fun h => h ▸ hr⟩, hh.both, ?_, ?_⟩
  · intro b hb
    exact hh.forced_apart hb
  · intro hf
    exact hh.on_load hf

end ShapePlan
