import Mathlib.Data.List.Induction

/-! # Runs of a labelled transition system

    A run carries its history: the states it left and the labels it took, the
    most recent first.  Properties of a run are properties of its states
    (`EveryState`) or of its steps (`EveryStep`); a property of a step may look
    at the history before it.

    The two rules at the end are for a system that keeps a property only when
    every step meets a condition: under the property so far, one step keeps it
    exactly when the step meets the condition, so a whole run does. -/

namespace Interaction

variable {σ l : Type}

/-- A run from `s₀`: its history and the state it has reached. -/
inductive Run (step : σ → l → σ → Prop) (s₀ : σ) :
    List (σ × l) → σ → Prop where
  | start : Run step s₀ [] s₀
  | snoc {h : List (σ × l)} {s t : σ} {a : l} :
      Run step s₀ h s → step s a t → Run step s₀ ((s, a) :: h) t

/-- `P` holds of every state of the run with history `h` ending in `s`. -/
def EveryState (P : σ → Prop) : List (σ × l) → σ → Prop
  | [], s => P s
  | (p, _) :: h, s => P s ∧ EveryState P h p

/-- `φ` holds of every step of the run: of its history, the state before, the
    label and the state after. -/
def EveryStep (φ : List (σ × l) → σ → l → σ → Prop) :
    List (σ × l) → σ → Prop
  | [], _ => True
  | (p, a) :: h, s => φ h p a s ∧ EveryStep φ h p

variable {step : σ → l → σ → Prop} {s₀ : σ}

theorem EveryState.last {P : σ → Prop} {h : List (σ × l)} {s : σ}
    (hP : EveryState P h s) : P s := by
  cases h with
  | nil => exact hP
  | cons hd tl => exact hP.1

/-- Every state that a run has left is one of its states. -/
theorem EveryState.of_mem {P : σ → Prop} {h : List (σ × l)} {s : σ} (hP : EveryState P h s) :
    ∀ x ∈ h, P x.1 := by
  induction h generalizing s with
  | nil => rintro x ⟨⟩
  | cons hd tl ih =>
      intro x hx
      rcases List.mem_cons.mp hx with rfl | hx
      · exact hP.2.last
      · exact ih hP.2 x hx

theorem EveryState.mono {P Q : σ → Prop} (hPQ : ∀ s, P s → Q s)
    {h : List (σ × l)} {s : σ} (hP : EveryState P h s) : EveryState Q h s := by
  induction h generalizing s with
  | nil => exact hPQ s hP
  | cons hd tl ih => exact ⟨hPQ s hP.1, ih hP.2⟩

/-- **The invariant rule.**  What holds at the start and is kept by every step
    holds in every state of every run. -/
theorem Run.invariant (I : σ → Prop) (h0 : I s₀)
    (hstep : ∀ s a t, I s → step s a t → I t)
    {h : List (σ × l)} {s : σ} (hr : Run step s₀ h s) :
    EveryState I h s := by
  induction hr with
  | start => exact h0
  | snoc _ hst ih => exact ⟨hstep _ _ _ ih.last hst, ih⟩

/-- What every step out of a state with the invariant does, every step of a
    run does. -/
theorem Run.everyStep (I : σ → Prop)
    {φ : List (σ × l) → σ → l → σ → Prop} (h0 : I s₀)
    (hstep : ∀ s a t, I s → step s a t → I t)
    (hφ : ∀ h s a t, I s → step s a t → φ h s a t)
    {h : List (σ × l)} {s : σ} (hr : Run step s₀ h s) : EveryStep φ h s := by
  induction hr with
  | start => trivial
  | @snoc h s t a hr hst ih =>
      exact ⟨hφ h s a t (hr.invariant I h0 hstep).last hst, ih⟩

/-- What is kept by every step that meets a condition holds in every state of a
    run whose steps all meet it. -/
theorem Run.invariant_of (I : σ → Prop) {ψ : List (σ × l) → σ → l → σ → Prop}
    (h0 : I s₀) (hstep : ∀ h s a t, I s → step s a t → ψ h s a t → I t)
    {h : List (σ × l)} {s : σ} (hr : Run step s₀ h s) (hψ : EveryStep ψ h s) :
    EveryState I h s := by
  induction hr with
  | start => exact h0
  | snoc _ hst ih =>
      obtain ⟨hlast, hrest⟩ := hψ
      have hall := ih hrest
      exact ⟨hstep _ _ _ _ hall.last hst hlast, hall⟩

/-- What the states have, the steps into them have. -/
theorem EveryState.everyStep {P : σ → Prop} {φ : List (σ × l) → σ → l → σ → Prop}
    (hφ : ∀ h s a t, P t → φ h s a t) {h : List (σ × l)} {s : σ}
    (hP : EveryState P h s) : EveryStep φ h s := by
  induction h generalizing s with
  | nil => trivial
  | cons hd tl ih => exact ⟨hφ tl hd.1 hd.2 s hP.1, ih hP.2⟩

/-- **The conditional rule, for steps.**  If out of every state with the
    invariant a step has the property exactly when it meets the condition,
    a run has it throughout exactly when all its steps meet the condition.
    The property itself may be used to carry the invariant on. -/
theorem Run.everyStep_iff (I : List (σ × l) → σ → Prop)
    {φ ψ : List (σ × l) → σ → l → σ → Prop} (h0 : I [] s₀)
    (hkeep : ∀ h s a t, I h s → step s a t → φ h s a t → I ((s, a) :: h) t)
    (hiff : ∀ h s a t, I h s → step s a t → (φ h s a t ↔ ψ h s a t))
    {h : List (σ × l)} {s : σ} (hr : Run step s₀ h s) :
    EveryStep φ h s ↔ EveryStep ψ h s := by
  -- the invariant is there only while the property is, so both go together
  have key : (EveryStep φ h s ↔ EveryStep ψ h s)
      ∧ (EveryStep φ h s → I h s) := by
    induction hr with
    | start => exact ⟨Iff.rfl, fun _ => h0⟩
    | @snoc h s t a _ hst ih =>
        obtain ⟨ihiff, ihI⟩ := ih
        refine ⟨?_, ?_⟩
        · constructor
          · rintro ⟨hp, hrest⟩
            exact ⟨(hiff h s a t (ihI hrest) hst).mp hp, ihiff.mp hrest⟩
          · rintro ⟨hp, hrest⟩
            have hφ := ihiff.mpr hrest
            exact ⟨(hiff h s a t (ihI hφ) hst).mpr hp, hφ⟩
        · rintro ⟨hp, hrest⟩
          exact hkeep h s a t (ihI hrest) hst hp
  exact key.1

/-- **The conditional rule, in one direction.**  An invariant of the history that is
    kept by the steps that meet the condition, and gives their property. -/
theorem Run.everyStep_of (I : List (σ × l) → σ → Prop)
    {φ ψ : List (σ × l) → σ → l → σ → Prop} (h0 : I [] s₀)
    (hkeep : ∀ h s a t, I h s → step s a t → ψ h s a t → I ((s, a) :: h) t)
    (hφ : ∀ h s a t, I h s → step s a t → ψ h s a t → φ h s a t)
    {h : List (σ × l)} {s : σ} (hr : Run step s₀ h s) (hψ : EveryStep ψ h s) :
    EveryStep φ h s := by
  have key : I h s ∧ EveryStep φ h s := by
    induction hr with
    | start => exact ⟨h0, trivial⟩
    | @snoc h s t a _ hst ih =>
        obtain ⟨hlast, hrest⟩ := hψ
        obtain ⟨hI, hφrest⟩ := ih hrest
        exact ⟨hkeep h s a t hI hst hlast, hφ h s a t hI hst hlast, hφrest⟩
  exact key.2

/-- **The conditional rule, for states.**  If a step out of a state with the
    invariant leads to the property exactly when it meets the condition, every
    state of a run has the property exactly when all its steps meet the
    condition. -/
theorem Run.everyState_iff (I : σ → Prop) {P : σ → Prop} {ψ : σ → l → Prop}
    (h0 : I s₀) (hP0 : P s₀)
    (hkeep : ∀ s a t, I s → step s a t → P t → I t)
    (hiff : ∀ s a t, I s → step s a t → (P t ↔ ψ s a))
    {h : List (σ × l)} {s : σ} (hr : Run step s₀ h s) :
    EveryState P h s ↔ EveryStep (fun _ s a _ => ψ s a) h s := by
  have hsteps : EveryStep (fun _ _ _ t => P t) h s
      ↔ EveryStep (fun _ s a _ => ψ s a) h s :=
    Run.everyStep_iff (fun _ s => I s) h0
      (fun _ s a t hI hst hp => hkeep s a t hI hst hp)
      (fun _ s a t hI hst => hiff s a t hI hst) hr
  have hstates : EveryState P h s ↔ EveryStep (fun _ _ _ t => P t) h s := by
    clear hsteps
    induction hr with
    | start => exact ⟨fun _ => trivial, fun _ => hP0⟩
    | snoc _ _ ih => exact and_congr Iff.rfl ih
  exact hstates.trans hsteps

theorem EveryStep.and {φ ψ : List (σ × l) → σ → l → σ → Prop} {h : List (σ × l)} {s : σ}
    (hφ : EveryStep φ h s) (hψ : EveryStep ψ h s) :
    EveryStep (fun h s a t => φ h s a t ∧ ψ h s a t) h s := by
  induction h generalizing s with
  | nil => trivial
  | cons hd tl ih => exact ⟨⟨hφ.1, hψ.1⟩, ih hφ.2 hψ.2⟩

/-- A property of steps that can be decided, of all steps of a run. -/
instance EveryStep.decidable {φ : List (σ × l) → σ → l → σ → Prop}
    [∀ h s a t, Decidable (φ h s a t)] :
    ∀ (h : List (σ × l)) (s : σ), Decidable (EveryStep φ h s)
  | [], _ => isTrue trivial
  | (p, a) :: h, s =>
      have : Decidable (EveryStep φ h p) := EveryStep.decidable h p
      inferInstanceAs (Decidable (φ h p a s ∧ EveryStep φ h p))

/-- A run of a relation is one of every larger relation. -/
theorem Run.mono {step' : σ → l → σ → Prop} (hsub : ∀ s a t, step s a t → step' s a t)
    {h : List (σ × l)} {s : σ} (hr : Run step s₀ h s) : Run step' s₀ h s := by
  induction hr with
  | start => exact .start
  | snoc _ hst ih => exact .snoc ih (hsub _ _ _ hst)

/-! ## Runs computed from their labels -/

/-- The history and last state of following `labels` with a partial step
    function. -/
def follow (next : σ → l → Option σ) (s₀ : σ) :
    List l → Option (List (σ × l) × σ)
  | [] => some ([], s₀)
  | a :: rest =>
      match follow next s₀ rest with
      | none => none
      | some (h, s) =>
          match next s a with
          | none => none
          | some t => some ((s, a) :: h, t)

/-- A run followed by a step function is a run of any relation that contains
    the function.  The labels are given as histories are, the last first. -/
theorem run_of_follow {next : σ → l → Option σ}
    (hnext : ∀ s a t, next s a = some t → step s a t) {labels : List l}
    {h : List (σ × l)} {s : σ} (hf : follow next s₀ labels = some (h, s)) :
    Run step s₀ h s := by
  induction labels generalizing h s with
  | nil =>
      cases hf
      exact .start
  | cons a rest ih =>
      rw [follow] at hf
      cases hr : follow next s₀ rest with
      | none => rw [hr] at hf; cases hf
      | some p =>
          obtain ⟨h', s'⟩ := p
          rw [hr] at hf
          cases hn : next s' a with
          | none => simp only [hn] at hf; cases hf
          | some t =>
              simp only [hn, Option.some.injEq, Prod.mk.injEq] at hf
              obtain ⟨rfl, rfl⟩ := hf
              exact .snoc (ih hr) (hnext s' a t hn)

/-- A run whose history and last state have a property that can be decided. -/
theorem exists_history_of_follow {next : σ → l → Option σ}
    (hnext : ∀ s a t, next s a = some t → step s a t) (labels : List l)
    (Q : List (σ × l) → σ → Bool)
    (hf : (follow next s₀ labels).any (fun r => Q r.1 r.2) = true) :
    ∃ h s, Run step s₀ h s ∧ Q h s = true := by
  cases hr : follow next s₀ labels with
  | none => rw [hr] at hf; cases hf
  | some r =>
      obtain ⟨h, s⟩ := r
      rw [hr] at hf
      exact ⟨h, s, run_of_follow hnext hr, hf⟩

/-- A run to a state with a property that can be decided. -/
theorem exists_run_of_follow {next : σ → l → Option σ}
    (hnext : ∀ s a t, next s a = some t → step s a t) (labels : List l)
    (Q : σ → Bool) (hf : (follow next s₀ labels).any (fun r => Q r.2) = true) :
    ∃ h s, Run step s₀ h s ∧ Q s = true :=
  exists_history_of_follow hnext labels (fun _ => Q) hf

/-! ## Steps of a function -/

/-- **Since.**  If a step leads to `F` exactly when it raises it, or finds it there and does not
    clear it, then `F` holds at the end exactly if some step has raised it and none after that
    one has cleared it. -/
theorem foldl_since_iff {f : σ → l → σ} (I F : σ → Prop) {raises clears : σ → l → Prop}
    (hI₀ : I s₀) (h₀ : ¬ F s₀) (hI : ∀ s a, I s → I (f s a))
    (hF : ∀ s a, I s → (F (f s a) ↔ raises s a ∨ F s ∧ ¬ clears s a)) (labels : List l) :
    F (labels.foldl f s₀) ↔ ∃ before a after, labels = before ++ a :: after
      ∧ raises (before.foldl f s₀) a
      ∧ ∀ mid b rest, after = mid ++ b :: rest →
        ¬ clears ((before ++ a :: mid).foldl f s₀) b := by
  have key : I (labels.foldl f s₀) ∧ (F (labels.foldl f s₀) ↔ ∃ before a after,
      labels = before ++ a :: after ∧ raises (before.foldl f s₀) a
        ∧ ∀ mid b rest, after = mid ++ b :: rest →
          ¬ clears ((before ++ a :: mid).foldl f s₀) b) := by
    -- on the labels, the last one first
    induction labels using List.reverseRecOn with
    | nil =>
        refine ⟨hI₀, iff_of_false h₀ ?_⟩
        rintro ⟨before, a, after, hnil, -⟩
        exact List.append_ne_nil_of_right_ne_nil before (List.cons_ne_nil a after) hnil.symm
    | append_singleton labels c ih =>
        obtain ⟨ihI, ihF⟩ := ih
        rw [List.foldl_append, List.foldl_cons, List.foldl_nil]
        refine ⟨hI _ c ihI, (hF _ c ihI).trans ?_⟩
        constructor
        · rintro (hraises | ⟨hflag, hkeeps⟩)
          · refine ⟨labels, c, [], rfl, hraises, fun mid b rest hnil => ?_⟩
            have hne := List.append_ne_nil_of_right_ne_nil mid (List.cons_ne_nil b rest)
            exact absurd hnil.symm hne
          · obtain ⟨before, a, after, rfl, hraises, hno⟩ := ihF.mp hflag
            refine ⟨before, a, after ++ [c], by simp, hraises, fun mid b rest hafter => ?_⟩
            rcases List.eq_nil_or_concat rest with rfl | ⟨rest', b', rfl⟩
            · obtain ⟨rfl, hb⟩ := List.append_inj' hafter rfl
              obtain rfl := (List.cons.inj hb).1
              exact hkeeps
            · have hafter' : after ++ [c] = (mid ++ b :: rest') ++ [b'] := by
                rw [hafter]
                simp
              exact hno mid b rest' (List.append_inj' hafter' rfl).1
        · rintro ⟨before, a, after, hlabels, hraises, hno⟩
          rcases List.eq_nil_or_concat after with rfl | ⟨after', b, rfl⟩
          · obtain ⟨rfl, ha⟩ := List.append_inj' hlabels rfl
            obtain rfl := (List.cons.inj ha).1
            exact Or.inl hraises
          · have hlabels' : labels ++ [c] = (before ++ a :: after') ++ [b] := by
              rw [hlabels]
              simp
            obtain ⟨rfl, hb⟩ := List.append_inj' hlabels' rfl
            obtain rfl := (List.cons.inj hb).1
            have hlast := hno after' c [] List.concat_eq_append
            refine Or.inr ⟨ihF.mpr ⟨before, a, after', rfl, hraises, ?_⟩, hlast⟩
            intro mid b' rest hmid
            exact hno mid b' (rest ++ [c]) (by rw [hmid]; simp)
  exact key.2

/-- Where the labels alone say what raises it and what clears it. -/
theorem foldl_since_label_iff {f : σ → l → σ} (I F : σ → Prop) {raises clears : l → Prop}
    (hI₀ : I s₀) (h₀ : ¬ F s₀) (hI : ∀ s a, I s → I (f s a))
    (hF : ∀ s a, I s → (F (f s a) ↔ raises a ∨ F s ∧ ¬ clears a)) (labels : List l) :
    F (labels.foldl f s₀) ↔ ∃ before a after, labels = before ++ a :: after ∧ raises a
      ∧ ∀ b ∈ after, ¬ clears b := by
  refine (foldl_since_iff I F hI₀ h₀ hI hF labels).trans ?_
  refine exists_congr fun before => exists_congr fun a => exists_congr fun after => ?_
  refine and_congr_right fun _ => and_congr_right fun _ => ⟨fun h b hb => ?_, ?_⟩
  · obtain ⟨mid, rest, hafter⟩ := List.append_of_mem hb
    exact h mid b rest hafter
  · rintro h mid b rest rfl
    exact h b (by simp)

end Interaction
