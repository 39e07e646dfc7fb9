import ContentTree.Persistence.Backend
import Mathlib.Order.Defs.Unbundled

/-!
# What actions leave behind

An action answers a value or fails, and leaves a state in either case. `Tracks R action` says that
the state before the action and the state it leaves are always related by `R`. For a relation that
is reflexive and transitive this is kept by all ways of putting actions together, so a relation
proved of the smallest actions holds of every program made of them.
-/

namespace ContentTree

variable {ε σ τ α β : Type}

/-- The state that an action leaves behind, whether it succeeds or fails. -/
def stateAfter (action : EStateM ε σ α) (s : σ) : σ :=
  match action s with
  | .ok _ s | .error _ s => s

/-- An action that answers leaves the state it answers with. -/
theorem stateAfter_of_ok {action : EStateM ε σ α} {s s' : σ} {a : α} (h : action s = .ok a s') :
    stateAfter action s = s' := by
  simp only [stateAfter, h]

/-- An action that fails leaves the state it fails with. -/
theorem stateAfter_of_error {action : EStateM ε σ α} {s s' : σ} {e : ε}
    (h : action s = .error e s') : stateAfter action s = s' := by
  simp only [stateAfter, h]

/-- After an action that answers, the next one goes on with its answer. -/
theorem bind_of_ok {x : EStateM ε σ α} {f : α → EStateM ε σ β} {s s' : σ} {a : α}
    (h : x s = .ok a s') : (x >>= f) s = f a s' := by
  show EStateM.bind x f s = _
  rw [EStateM.bind, h]

/-- After an action that fails, the next one does not run. -/
theorem bind_of_error {x : EStateM ε σ α} {f : α → EStateM ε σ β} {s s' : σ} {e : ε}
    (h : x s = .error e s') : (x >>= f) s = .error e s' := by
  show EStateM.bind x f s = _
  rw [EStateM.bind, h]

/-- What is answered apart from the state, if an action answers. -/
theorem run'_of_ok {action : EStateM ε σ α} {s s' : σ} {a : α} (h : action s = .ok a s') :
    action.run' s = some a := by
  delta EStateM.run' EStateM.run
  rw [h]

/-- Nothing is answered if an action fails. -/
theorem run'_of_error {action : EStateM ε σ α} {s s' : σ} {e : ε} (h : action s = .error e s') :
    action.run' s = none := by
  delta EStateM.run' EStateM.run
  rw [h]

/-- What looks at the state first goes on with the state it is in. -/
theorem get_bind (f : σ → EStateM ε σ α) (s : σ) : (get >>= f : EStateM ε σ α) s = f s s := rfl

/-- What sets the state first goes on with the state that it set. -/
theorem set_bind (f : PUnit → EStateM ε σ α) (s s' : σ) :
    (set s' >>= f : EStateM ε σ α) s = f ⟨⟩ s' := rfl

/-- Mapping the answer leaves the state as it is. -/
theorem stateAfter_map (f : α → β) (x : EStateM ε σ α) (s : σ) :
    stateAfter (f <$> x) s = stateAfter x s := by
  show (match EStateM.map f x s with | .ok _ s | .error _ s => s) = _
  unfold EStateM.map stateAfter
  cases x s <;> rfl

/-- A step on a part leaves the part that it leaves by itself, inside the rest. -/
theorem stateAfter_onPart (part : τ → σ) (replace : τ → σ → τ) (action : EStateM Error σ α) (t : τ) :
    stateAfter (Backend.onPart part replace action) t =
      replace t (stateAfter action (part t)) := by
  simp only [stateAfter, Backend.onPart]
  cases action (part t) <;> rfl

/-- A step on a part answers what it answers by itself. -/
theorem onPart_of_ok {part : τ → σ} {replace : τ → σ → τ} {step : EStateM Error σ α} {t : τ} {s : σ}
    {a : α} (h : step (part t) = .ok a s) :
    Backend.onPart part replace step t = .ok a (replace t s) := by
  rw [Backend.onPart, h]

/-- A step on a part of a state went as it does on the part. -/
theorem onPart_ok {part : τ → σ} {replace : τ → σ → τ} {step : EStateM Error σ α} {t t' : τ} {a : α}
    (h : Backend.onPart part replace step t = .ok a t') :
    ∃ s, step (part t) = .ok a s ∧ t' = replace t s := by
  unfold Backend.onPart at h
  split at h
  · next hs =>
    cases h
    exact ⟨_, hs, rfl⟩
  · cases h

/-- A step on a part fails only as it fails by itself. -/
theorem onPart_error {part : τ → σ} {replace : τ → σ → τ} {step : EStateM Error σ α} {t t' : τ}
    {e : Error} (h : Backend.onPart part replace step t = .error e t') :
    ∃ s, step (part t) = .error e s ∧ t' = replace t s := by
  unfold Backend.onPart at h
  split at h
  · cases h
  · next hs =>
    cases h
    exact ⟨_, hs, rfl⟩

/-- What a sequence of two actions that succeeds went through. -/
theorem exists_of_bind_ok {x : EStateM ε σ α} {f : α → EStateM ε σ β} {s s' : σ} {b : β}
    (h : (x >>= f) s = .ok b s') : ∃ a mid, x s = .ok a mid ∧ f a mid = .ok b s' := by
  cases hx : x s with
  | ok a mid => exact ⟨a, mid, rfl, (bind_of_ok hx).symm.trans h⟩
  | error e mid => rw [bind_of_error hx] at h; cases h

/-- Two sequences agree at a state if their first parts do, and their second parts where they come
to be reached. -/
theorem bind_congr_of_ok {x y : EStateM ε σ α} {f g : α → EStateM ε σ β} {s : σ} (hxy : x s = y s)
    (hfg : ∀ a mid, x s = .ok a mid → f a mid = g a mid) : (x >>= f) s = (y >>= g) s := by
  cases hx : x s with
  | ok a mid => rw [bind_of_ok hx, bind_of_ok (hxy ▸ hx), hfg a mid hx]
  | error e mid => rw [bind_of_error hx, bind_of_error (hxy ▸ hx)]

/-- A handler is not asked when nothing fails. -/
theorem tryCatch_of_ok {x : EStateM ε σ α} {handler : ε → EStateM ε σ α} {s s' : σ} {a : α}
    (h : x s = .ok a s') : (tryCatch x handler : EStateM ε σ α) s = .ok a s' := by
  show EStateM.tryCatch x handler s = _
  delta EStateM.tryCatch
  rw [h]

/-- A handler goes on where an action failed. -/
theorem tryCatch_of_error {x : EStateM ε σ α} {handler : ε → EStateM ε σ α} {s s' : σ} {e : ε}
    (h : x s = .error e s') : (tryCatch x handler : EStateM ε σ α) s = handler e s' := by
  show EStateM.tryCatch x handler s = _
  delta EStateM.tryCatch
  rw [h]
  rfl

/-- A run over a list whose answers are the same wherever an invariant holds. -/
theorem exists_mapM_ok {f : α → EStateM ε σ β} {g : α → β} {I : σ → Prop} {l : List α}
    (h : ∀ a ∈ l, ∀ s, I s → ∃ s', f a s = .ok (g a) s' ∧ I s') {s : σ}
    (hs : I s) : ∃ s', l.mapM f s = .ok (l.map g) s' ∧ I s' := by
  induction l generalizing s with
  | nil => exact ⟨s, rfl, hs⟩
  | cons a rest ih =>
    obtain ⟨mid, ha, hmid⟩ := h a (List.mem_cons_self ..) s hs
    obtain ⟨s', hrest, hs'⟩ := ih (fun b hb => h b (List.mem_cons_of_mem a hb)) hmid
    refine ⟨s', ?_, hs'⟩
    rw [List.mapM_cons, bind_of_ok ha, bind_of_ok hrest]
    rfl

/-- A run over a list that answers and changes nothing at each of its elements. -/
theorem mapM_of_unchanged {f : α → EStateM ε σ β} {g : α → β} {l : List α} {s : σ}
    (h : ∀ a ∈ l, f a s = .ok (g a) s) : l.mapM f s = .ok (l.map g) s := by
  obtain ⟨s', hrun, rfl⟩ := exists_mapM_ok (I := (· = s))
    (fun a ha s' hs' => ⟨s', hs' ▸ h a ha, hs'⟩) rfl
  exact hrun

/-- One more round at the end of a loop. -/
theorem forM_concat (f : α → EStateM ε σ PUnit) (l : List α) (a : α) :
    (l ++ [a]).forM f = l.forM f >>= fun _ => f a := by
  show forM (l ++ [a]) f = forM l f >>= fun _ => f a
  rw [List.forM_append, List.forM_cons, List.forM_nil, bind_pure_unit]

/-- An action whose failure is ignored. -/
theorem tryCatch_pure (x : EStateM ε σ PUnit) (s : σ) :
    (tryCatch x fun _ => pure ⟨⟩ : EStateM ε σ PUnit) s = .ok ⟨⟩ (stateAfter x s) := by
  cases hs : x s with
  | ok a s' => rw [tryCatch_of_ok hs, stateAfter_of_ok hs]
  | error e s' =>
    rw [tryCatch_of_error hs, stateAfter_of_error hs]
    rfl

/-- A run over a list that does nothing at each of its elements does nothing. -/
theorem forM_of_unchanged {f : α → EStateM ε σ PUnit} {l : List α} {s : σ}
    (h : ∀ a ∈ l, f a s = .ok ⟨⟩ s) : l.forM f s = .ok ⟨⟩ s := by
  induction l with
  | nil => rfl
  | cons a rest ih =>
    show (f a >>= fun _ => rest.forM f) s = _
    rw [bind_of_ok (h a (List.mem_cons_self ..)), ih fun b hb => h b (List.mem_cons_of_mem a hb)]

/-- A run over a list fails at one of its elements, after all those before it went well. -/
theorem exists_of_forM_error {f : α → EStateM ε σ PUnit} {l : List α} {s s' : σ} {e : ε}
    (h : l.forM f s = .error e s') :
    ∃ done a rest mid, l = done ++ a :: rest ∧ done.forM f s = .ok ⟨⟩ mid ∧ f a mid = .error e s' := by
  induction l generalizing s with
  | nil => cases h
  | cons a rest ih =>
    cases ha : f a s with
    | error e' mid =>
      replace h : (f a >>= fun _ => rest.forM f) s = .error e s' := h
      rw [bind_of_error ha] at h
      cases h
      exact ⟨[], a, rest, s, rfl, rfl, ha⟩
    | ok u mid =>
      replace h : (f a >>= fun _ => rest.forM f) s = .error e s' := h
      rw [bind_of_ok ha] at h
      obtain ⟨done, b, later, mid', rfl, hdone, hb⟩ := ih h
      refine ⟨a :: done, b, later, mid', rfl, ?_, hb⟩
      show (f a >>= fun _ => done.forM f) s = _
      rw [bind_of_ok ha, hdone]

/-- What holds of a result: of a value and the state with it, or of the state that a failure leaves. -/
def Yields (good : α → σ → Prop) (bad : σ → Prop) : EStateM.Result ε σ α → Prop
  | .ok a s => good a s
  | .error _ s => bad s

/-- A sequence yields what its second part yields from wherever the first part gets. -/
theorem Yields.bind {mid : α → σ → Prop} {good : β → σ → Prop} {bad : σ → Prop}
    {x : EStateM ε σ α} {f : α → EStateM ε σ β} {s : σ} (hx : Yields mid bad (x s))
    (hf : ∀ a s', mid a s' → Yields good bad (f a s')) : Yields good bad ((x >>= f) s) := by
  cases hs : x s with
  | ok a s' =>
    rw [hs] at hx
    rw [bind_of_ok hs]
    exact hf a s' hx
  | error e s' =>
    rw [hs] at hx
    rw [bind_of_error hs]
    exact hx

/-- What is known of a result may be weakened. -/
theorem Yields.imp {good good' : α → σ → Prop} {bad bad' : σ → Prop} {r : EStateM.Result ε σ α}
    (hr : Yields good bad r) (hgood : ∀ a s, good a s → good' a s) (hbad : ∀ s, bad s → bad' s) :
    Yields good' bad' r := by
  cases r with
  | ok a s => exact hgood a s hr
  | error e s => exact hbad s hr

/-- What holds of every state that a result may leave holds of the one it leaves. -/
theorem Yields.stateAfter {good : α → σ → Prop} {bad p : σ → Prop} {x : EStateM ε σ α} {s : σ}
    (hx : Yields good bad (x s)) (hgood : ∀ a s', good a s' → p s') (hbad : ∀ s', bad s' → p s') :
    p (stateAfter x s) := by
  cases hs : x s with
  | ok a s' =>
    rw [hs] at hx
    rw [stateAfter_of_ok hs]
    exact hgood a s' hx
  | error e s' =>
    rw [hs] at hx
    rw [stateAfter_of_error hs]
    exact hbad s' hx

/-- What every outcome leaves is left. -/
theorem Yields.always {p : σ → Prop} {x : EStateM ε σ α} {s : σ} (hx : Yields (fun _ => p) p (x s)) :
    p (ContentTree.stateAfter x s) :=
  hx.stateAfter (fun _ _ h => h) fun _ h => h

/-- What does not fail answers. -/
theorem Yields.exists_ok {good : α → σ → Prop} {bad : σ → Prop} {r : EStateM.Result ε σ α}
    (hr : Yields good bad r) (hbad : ∀ s, ¬bad s) : ∃ a s, r = .ok a s ∧ good a s := by
  cases r with
  | ok a s => exact ⟨a, s, rfl, hr⟩
  | error e s => exact absurd hr (hbad s)

/-- A handler takes over where the action it is put around fails. -/
theorem Yields.tryCatch {good : α → σ → Prop} {mid bad : σ → Prop} {x : EStateM ε σ α}
    {handler : ε → EStateM ε σ α} {s : σ} (hx : Yields good mid (x s))
    (hh : ∀ e s', mid s' → Yields good bad (handler e s')) :
    Yields good bad ((tryCatch x handler : EStateM ε σ α) s) := by
  cases hs : x s with
  | ok a s' =>
    rw [hs] at hx
    rw [tryCatch_of_ok hs]
    exact hx
  | error e s' =>
    rw [hs] at hx
    rw [tryCatch_of_error hs]
    exact hh e s' hx

/-- What a run over a list yields, when each step of it keeps what holds between the steps. -/
theorem Yields.forM {f : α → EStateM ε σ PUnit} {bad : σ → Prop} {l : List α}
    (between : List α → σ → Prop) (hf : ∀ done a rest s, l = done ++ a :: rest → between done s →
      Yields (fun _ => between (done ++ [a])) bad (f a s)) {s : σ} (hs : between [] s) :
    Yields (fun _ => between l) bad (l.forM f s) := by
  suffices h : ∀ rest done s, l = done ++ rest → between done s →
      Yields (fun _ => between l) bad (rest.forM f s) from h l [] s rfl hs
  intro rest
  induction rest with
  | nil =>
    intro done s hl hs
    rw [List.append_nil] at hl
    rw [hl]
    exact hs
  | cons a rest ih =>
    intro done s hl hs
    refine Yields.bind (hf done a rest s hl hs) fun _ s' hs' => ih (done ++ [a]) s' ?_ hs'
    rw [hl, List.append_assoc]
    rfl

/-- What holds of the state that a result leaves, by whether it is a value or a failure. -/
def Ends (good bad : σ → Prop) : EStateM.Result ε σ α → Prop :=
  Yields (fun _ => good) bad

/-- A sequence ends well if its second part does from wherever the first part ends well. -/
theorem Ends.bind {good mid bad : σ → Prop} {x : EStateM ε σ α} {f : α → EStateM ε σ β} {s : σ}
    (hx : Ends mid bad (x s)) (hf : ∀ a s', mid s' → Ends good bad (f a s')) :
    Ends good bad ((x >>= f) s) :=
  Yields.bind hx hf

/-- What is known of a failure may be weakened. -/
theorem Ends.imp_bad {good bad bad' : σ → Prop} {r : EStateM.Result ε σ α} (hr : Ends good bad r)
    (h : ∀ s, bad s → bad' s) : Ends good bad' r := by
  cases r with
  | ok a s => exact hr
  | error e s => exact h s hr

/-- What holds of the state that is left holds of either end. -/
theorem Ends.of_stateAfter {good bad : σ → Prop} {x : EStateM ε σ α} {s : σ}
    (hgood : good (stateAfter x s)) (hbad : good (stateAfter x s) → bad (stateAfter x s)) :
    Ends good bad (x s) := by
  cases hs : x s with
  | ok a s' => rw [stateAfter_of_ok hs] at hgood; exact hgood
  | error e s' =>
    have hafter := stateAfter_of_error hs
    exact hafter ▸ hbad hgood

/-- A property that answers have, and that a sequence has if its parts do, whatever the first part
answers. -/
structure Sequential (P : {α : Type} → EStateM ε σ α → Prop) : Prop where
  pure : ∀ {α : Type} (a : α), P (pure a : EStateM ε σ α)
  bind : ∀ {α β : Type} {x : EStateM ε σ α} {f : α → EStateM ε σ β}, P x → (∀ a, P (f a)) →
    P (x >>= f)

namespace Sequential

variable {P : {α : Type} → EStateM ε σ α → Prop}

/-- An action that may return early from inside another one. -/
theorem earlyReturn (hP : Sequential P) {x : EStateM ε σ (Except α α)} (hx : P x) :
    P (do EarlyReturn.runK (← x) (fun a => Pure.pure a) fun a => Pure.pure a) := by
  refine hP.bind hx fun answer => ?_
  cases answer with
  | error a => exact hP.pure a
  | ok a => exact hP.pure a

/-- A run over a list has what each of its steps has. -/
theorem forM (hP : Sequential P) {f : α → EStateM ε σ PUnit} {l : List α} (hf : ∀ a ∈ l, P (f a)) :
    P (l.forM f) := by
  induction l with
  | nil => exact hP.pure _
  | cons a rest ih =>
    exact hP.bind (hf a (List.mem_cons_self ..)) fun _ =>
      ih fun b hb => hf b (List.mem_cons_of_mem a hb)

/-- A loop with answers is made of its rounds. -/
theorem mapM (hP : Sequential P) {f : α → EStateM ε σ β} (hf : ∀ a, P (f a)) (l : List α) :
    P (l.mapM f) := by
  induction l with
  | nil => exact hP.pure _
  | cons a rest ih =>
    rw [List.mapM_cons]
    exact hP.bind (hf a) fun _ => hP.bind ih fun _ => hP.pure _

end Sequential

/-- Whatever the outcome, the states before and after an action are related. -/
def Tracks (R : σ → σ → Prop) (action : EStateM ε σ α) : Prop :=
  ∀ s, R s (stateAfter action s)

namespace Tracks

variable {R : σ → σ → Prop}

/-- A relation tracked by an action on a part of a state is tracked on the whole. -/
theorem onPart {part : τ → σ} {replace : τ → σ → τ} {action : EStateM Error σ α}
    (hpart : ∀ t s, part (replace t s) = s) (h : Tracks R action) :
    Tracks (fun t t' => R (part t) (part t')) (Backend.onPart part replace action) := by
  intro t
  show R (part t) (part (stateAfter (Backend.onPart part replace action) t))
  rw [stateAfter_onPart, hpart]
  exact h (part t)

/-- A change of the state is tracked if it keeps to the relation. -/
theorem modify {f : σ → σ} (h : ∀ s, R s (f s)) :
    Tracks R (modify f : EStateM ε σ PUnit) := h

variable [IsPreorder σ R]

/-- An action that changes nothing is tracked by every relation. -/
theorem of_unchanged {action : EStateM ε σ α} (h : ∀ s, stateAfter action s = s) :
    Tracks R action := fun s => (h s).symm ▸ refl_of R s

/-- Answering changes nothing. -/
theorem pure (a : α) : Tracks R (pure a : EStateM ε σ α) := of_unchanged fun _ => rfl

/-- Failing changes nothing. -/
theorem throw (e : ε) : Tracks R (throw e : EStateM ε σ α) := of_unchanged fun _ => rfl

/-- Asking for the state changes nothing. -/
theorem get : Tracks R (MonadState.get : EStateM ε σ σ) := of_unchanged fun _ => rfl

/-- The sequence of two actions at one state: the second matters where the first succeeds. -/
theorem bindAt {x : EStateM ε σ α} {f : α → EStateM ε σ β} {s : σ} (hx : R s (stateAfter x s))
    (hf : ∀ a mid, x s = .ok a mid → R mid (stateAfter (f a) mid)) :
    R s (stateAfter (x >>= f) s) := by
  cases hs : x s with
  | ok a mid =>
    rw [stateAfter_of_ok hs] at hx
    rw [stateAfter, bind_of_ok hs]
    exact trans_of R hx (hf a mid hs)
  | error e mid =>
    rw [stateAfter_of_error hs] at hx
    rw [stateAfter_of_error (bind_of_error hs)]
    exact hx

/-- An action with a handler at one state: the handler matters where the action fails. -/
theorem tryCatchAt {x : EStateM ε σ α} {handler : ε → EStateM ε σ α} {s : σ}
    (hx : R s (stateAfter x s))
    (hh : ∀ e mid, x s = .error e mid → R mid (stateAfter (handler e) mid)) :
    R s (stateAfter (tryCatch x handler) s) := by
  cases hs : x s with
  | ok a mid =>
    rw [stateAfter_of_ok hs] at hx
    rw [stateAfter_of_ok (tryCatch_of_ok hs)]
    exact hx
  | error e mid =>
    rw [stateAfter_of_error hs] at hx
    rw [stateAfter, tryCatch_of_error hs]
    exact trans_of R hx (hh e mid hs)

/-- Two tracked actions are tracked one after the other. -/
theorem bind {x : EStateM ε σ α} {f : α → EStateM ε σ β} (hx : Tracks R x)
    (hf : ∀ a, Tracks R (f a)) : Tracks R (x >>= f) :=
  fun s => bindAt (hx s) fun a mid _ => hf a mid

/-- A tracked action with a tracked handler is tracked. -/
theorem tryCatch {x : EStateM ε σ α} {handler : ε → EStateM ε σ α} (hx : Tracks R x)
    (hh : ∀ e, Tracks R (handler e)) : Tracks R (tryCatch x handler) :=
  fun s => tryCatchAt (hx s) fun e mid _ => hh e mid

/-- Tracking is kept by everything that actions are made of. -/
theorem sequential : Sequential fun x : EStateM ε σ _ => Tracks R x :=
  ⟨pure, bind⟩

/-- An action that may return early from inside another one. -/
theorem earlyReturn {x : EStateM ε σ (Except α α)} (hx : Tracks R x) :
    Tracks R (do EarlyReturn.runK (← x) (fun a => Pure.pure a) fun a => Pure.pure a) :=
  sequential.earlyReturn hx

/-- A loop of tracked rounds is tracked. -/
theorem forM {f : α → EStateM ε σ PUnit} {l : List α} (hf : ∀ a ∈ l, Tracks R (f a)) :
    Tracks R (l.forM f) :=
  sequential.forM hf

/-- A loop with answers is tracked if its rounds are. -/
theorem mapM {f : α → EStateM ε σ β} (hf : ∀ a, Tracks R (f a)) (l : List α) :
    Tracks R (l.mapM f) :=
  sequential.mapM hf l

end Tracks

end ContentTree
