import ContentTree.Proofs.Disk.Device

/-!
# Effects that a plan spares

What an action does depends on the plan of its device only at the effects that it carries out
(`Within`). So where the plan spares all of these, the action succeeds if it does on a device on which
nothing fails (`Within.exists_ok`).
-/

namespace ContentTree

/-- States that have a plan of what fails. -/
class HasPlan (σ : Type) where
  plan : σ → FaultPlan
  /-- The state with another plan. -/
  replan : FaultPlan → σ → σ

instance : HasPlan Device where
  plan := Device.plan
  replan plan device := { device with plan }

instance {τ : Type} : HasPlan (Hosted τ) where
  plan s := s.device.plan
  replan plan s := { s with device := { s.device with plan } }

/-- The plan by which nothing fails. -/
def FaultPlan.nothing : FaultPlan := fun _ _ => none

/-- A plan by which none of some effects fails. -/
def FaultPlan.Spares (plan : FaultPlan) (E : Effect → Prop) : Prop :=
  ∀ n effect, E effect → plan n effect = none

/-- Only effects that are not spared may fail, and taking names away is spared. -/
def Regime.sparing (E : Effect → Prop) (hremove : ∀ p, E (.remove p)) (locks : List Nat)
    (time : Nat) : Regime where
  locks := locks
  time := time
  up plan _ := plan.Spares E
  down plan _ := plan.Spares E
  fine h _ := h
  fails h _ := h
  stays h := h
  honest := True
  denies h hfault _ := by
    rw [h _ _ (hremove _)] at hfault
    cases hfault

/-- Where only some effects may fail, a device goes on after a failure. -/
theorem Regime.Down.up_of_sparing {E : Effect → Prop} {hremove : ∀ p, E (.remove p)}
    {locks : List Nat} {time : Nat} {device : Device}
    (h : (Regime.sparing E hremove locks time).Down device) :
    (Regime.sparing E hremove locks time).Up device :=
  ⟨h.locks_eq, h.time_eq, h.isDown⟩

open HasPlan

variable {σ τ υ ε α β : Type} [HasPlan σ] {E : Effect → Prop}

/-- Of the plan of a state only what it says of some effects matters to an action, which keeps it. -/
def Within (E : Effect → Prop) (x : EStateM ε σ α) (s : σ) : Prop :=
  ∀ other : FaultPlan, (∀ n effect, E effect → plan s n effect = other n effect) →
    match x s with
    | .ok a s' => plan s' = plan s ∧ x (replan other s) = .ok a (replan other s')
    | .error e s' => plan s' = plan s ∧ x (replan other s) = .error e (replan other s')

namespace Within

/-- Answering has no effect. -/
theorem pure (a : α) (s : σ) : Within E (pure a : EStateM ε σ α) s :=
  fun _ _ => ⟨rfl, rfl⟩

/-- Failing has no effect. -/
theorem throw (e : ε) (s : σ) : Within E (throw e : EStateM ε σ α) s :=
  fun _ _ => ⟨rfl, rfl⟩

/-- The effects of two actions, one after the other. -/
theorem bind {x : EStateM ε σ α} {f : α → EStateM ε σ β} {s : σ} (hx : Within E x s)
    (hf : ∀ a s', x s = .ok a s' → Within E (f a) s') : Within E (x >>= f) s := by
  intro other hother
  have hfirst := hx other hother
  cases hs : x s with
  | error e s' =>
    rw [hs] at hfirst
    rw [bind_of_error hs, bind_of_error hfirst.2]
    exact ⟨hfirst.1, rfl⟩
  | ok a s' =>
    rw [hs] at hfirst
    obtain ⟨hkept, hsame⟩ := hfirst
    have hsecond := hf a s' hs other (hkept ▸ hother)
    rw [bind_of_ok hs, bind_of_ok hsame]
    cases hs' : f a s' <;> rw [hs'] at hsecond <;> exact ⟨hsecond.1.trans hkept, hsecond.2⟩

/-- The effects of an action and of its handler. -/
theorem tryCatch {x : EStateM ε σ α} {handler : ε → EStateM ε σ α} {s : σ} (hx : Within E x s)
    (hh : ∀ e s', x s = .error e s' → Within E (handler e) s') :
    Within E (tryCatch x handler) s := by
  intro other hother
  have hfirst := hx other hother
  cases hs : x s with
  | ok a s' =>
    rw [hs] at hfirst
    rw [tryCatch_of_ok hs, tryCatch_of_ok hfirst.2]
    exact ⟨hfirst.1, rfl⟩
  | error e s' =>
    rw [hs] at hfirst
    obtain ⟨hkept, hsame⟩ := hfirst
    have hsecond := hh e s' hs other (hkept ▸ hother)
    rw [tryCatch_of_error hs, tryCatch_of_error hsame]
    cases hs' : handler e s' <;> rw [hs'] at hsecond <;> exact ⟨hsecond.1.trans hkept, hsecond.2⟩

/-- The effects of a loop are those of its rounds. -/
theorem forM {f : α → EStateM ε σ PUnit} {l : List α} (hf : ∀ a ∈ l, ∀ s, Within E (f a) s) :
    ∀ s, Within E (l.forM f) s :=
  Sequential.forM (P := fun x => ∀ s, Within E x s)
    ⟨pure, fun hx hf s => bind (hx s) fun a s' _ => hf a s'⟩ hf

/-- What an action does with the state that it reads may not depend on the plan. -/
theorem get_bind {f : σ → EStateM ε σ α} {s : σ} (hsame : ∀ other, f (replan other s) = f s)
    (hf : Within E (f s) s) : Within E (get >>= f) s := by
  intro other hother
  have hget : ∀ t : σ, (get : EStateM ε σ σ) t = .ok t t := fun _ => rfl
  rw [bind_of_ok (hget s), bind_of_ok (hget (replan other s)), hsame]
  exact hf other hother

/-- Where the plan spares the effects of an action, the action fails only if it fails by itself. -/
theorem exists_ok {x : EStateM ε σ α} {s : σ} {good : α → σ → Prop} {bad : σ → Prop}
    (h : Within E x s) (hspared : (plan s).Spares E) (hx : Yields good bad (x (replan .nothing s)))
    (hbad : ∀ s', ¬bad s') : ∃ a s', x s = .ok a s' := by
  obtain ⟨a, t, ht, -⟩ := hx.exists_ok hbad
  have hsame := h .nothing hspared
  cases hs : x s with
  | ok a s' => exact ⟨a, s', rfl⟩
  | error e s' =>
    rw [hs, ht] at hsame
    cases hsame.2

end Within

namespace Device

variable {device : Device} {p : Path}

/-- One effect keeps to the effects it is among. -/
theorem perform_within {effect : Effect} {torn : Fault → Disk → Disk}
    {step : Disk → Except IoCause (α × Disk)} (heffect : E effect) :
    Within E (perform effect torn step) device := by
  intro other hother
  have hsame : device.plan device.clock effect = other device.clock effect :=
    hother device.clock effect heffect
  rw [perform_eq, perform_eq]
  simp only [replan, ← hsame]
  cases device.plan device.clock effect with
  | some fault => exact ⟨rfl, rfl⟩
  | none => cases step device.disk <;> exact ⟨rfl, rfl⟩

/-- A question has no effect. -/
theorem query_within (question : Disk → Except IoCause α) : Within E (query question) device := by
  intro other _
  rw [query_eq, query_eq]
  simp only [replan]
  cases question device.disk <;> exact ⟨rfl, rfl⟩

/-- Making a folder that is missing. -/
theorem makeMissing_within (heffect : E (.makeFolder p)) : Within E (makeMissing p) device := by
  refine Within.get_bind (fun _ => rfl) ?_
  split
  · exact .pure _ _
  · exact perform_within heffect

/-- Making folders has no other effects than making each. -/
theorem makeFolders_within (heffect : ∀ q, E (.makeFolder q)) : Within E (makeFolders p) device :=
  (query_within _).bind fun _ d _ => Within.forM (fun q _ _ => makeMissing_within (heffect q)) d

/-- Taking a file away if it is there. -/
theorem removeIfThere_within (heffect : E (.remove p)) : Within E (removeIfThere p) device := by
  refine Within.tryCatch (perform_within heffect) fun e d _ => ?_
  split
  · exact .pure _ _
  · exact .throw _ _

end Device

namespace Hosted

variable {s : Hosted τ}

/-- A step on the device keeps to the effects that it keeps to by itself. -/
theorem onDevice_within {step : Device.Action α} (h : Within E step s.device) :
    Within E (onDevice step) s := by
  intro other hother
  have hstep := h other hother
  unfold onDevice
  cases hs : step s.device <;> rw [hs] at hstep <;>
    exact ⟨hstep.1, by simp only [HasPlan.replan] at hstep ⊢; rw [hstep.2]⟩

/-- A step on a part keeps to the effects that it keeps to by itself. -/
theorem onPart_within {part : τ → υ} {replace : τ → υ → τ} {step : EStateM Error (Hosted υ) α}
    (h : Within E step ⟨s.device, part s.value⟩) : Within E (onPart part replace step) s := by
  intro other hother
  have hstep := h other hother
  unfold onPart
  cases hs : step ⟨s.device, part s.value⟩ <;> rw [hs] at hstep <;>
    exact ⟨hstep.1, by simp only [HasPlan.replan] at hstep ⊢; rw [hstep.2]⟩

end Hosted

end ContentTree
