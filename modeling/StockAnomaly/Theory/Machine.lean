import Mathlib.Data.List.Induction
import Mathlib.Data.Option.Basic

/-!
# Machines and their runs

A `Machine` is a start state and a partial step: an action that is not enabled has no
successor. All nondeterminism (which thread moves, what the environment answers) is in
the actions, so a run is a list of actions and an interleaving is nothing but such a
list. `run_induct` is the invariant rule; its premise `Along` restricts the runs to those
whose every step meets a condition on the state before it and the action taken.
-/

namespace StockAnomaly.Theory

/-- A start state and a partial step function. -/
structure Machine (σ α : Type*) where
  init : σ
  step : σ → α → Option σ

namespace Machine

variable {σ α : Type*} (M : Machine σ α)

/-- The state after the actions `acts` from `s`, when all of them are enabled. -/
def runFrom (s : σ) : List α → Option σ
  | [] => some s
  | a :: acts => (M.step s a).bind fun s' => runFrom s' acts

/-- A run from the start state. -/
def run (acts : List α) : Option σ := M.runFrom M.init acts

/-- Every step of the run of `acts` from `s` meets `P`. -/
def Along (P : σ → α → Prop) (s : σ) : List α → Prop
  | [] => True
  | a :: acts => P s a ∧ ∀ s', M.step s a = some s' → Along P s' acts

/-- A state some run reaches. -/
def Reachable (s : σ) : Prop := ∃ acts, M.run acts = some s

/-- `P` holds in every state that the run of `acts` passes through. -/
def Always (P : σ → Prop) (acts : List α) : Prop :=
  ∀ before s, before <+: acts → M.run before = some s → P s

variable {M}

theorem runFrom_append {s : σ} {as bs : List α} :
    M.runFrom s (as ++ bs) = (M.runFrom s as).bind fun s' => M.runFrom s' bs := by
  induction as generalizing s with
  | nil => rfl
  | cons a as ih =>
    simp only [List.cons_append, runFrom]
    cases M.step s a with
    | none => rfl
    | some s' => exact ih

theorem runFrom_cons {s t : σ} {a : α} {as : List α} (step : M.step s a = some t) :
    M.runFrom s (a :: as) = M.runFrom t as := by
  rw [runFrom, step, Option.bind_some]

theorem run_append {as bs : List α} :
    M.run (as ++ bs) = (M.run as).bind fun s => M.runFrom s bs := runFrom_append

theorem run_snoc {as : List α} {a : α} {s' : σ} :
    M.run (as ++ [a]) = some s' ↔ ∃ s, M.run as = some s ∧ M.step s a = some s' := by
  rw [run_append, Option.bind_eq_some_iff]
  simp [runFrom]

theorem along_append {P : σ → α → Prop} {s s' : σ} {as bs : List α}
    (run : M.runFrom s as = some s') :
    M.Along P s (as ++ bs) ↔ M.Along P s as ∧ M.Along P s' bs := by
  induction as generalizing s with
  | nil => cases run; simp [Along]
  | cons a as ih =>
    obtain ⟨t, step, rest⟩ := Option.bind_eq_some_iff.1 run
    simp only [List.cons_append, Along, step, Option.some.injEq, forall_eq', ih rest, and_assoc]

theorem along_snoc {P : σ → α → Prop} {as : List α} {a : α} {s : σ} (run : M.run as = some s) :
    M.Along P M.init (as ++ [a]) ↔ M.Along P M.init as ∧ P s a := by
  rw [along_append run]
  simp [Along]

/-- A condition met by every step whatever the state is met along every run. -/
theorem along_of_forall {P : σ → α → Prop} (h : ∀ s a, P s a) (s : σ) (acts : List α) :
    M.Along P s acts := by
  induction acts generalizing s with
  | nil => trivial
  | cons a acts ih => exact ⟨h s a, fun s' _ => ih s'⟩

/-- **The run rule.** What holds at the start and is preserved by every step that meets
`P`, for the actions taken so far, holds at the end of every run along `P`. -/
theorem run_induct {P : σ → α → Prop} {I : List α → σ → Prop} (init : I [] M.init)
    (step : ∀ as s a s', M.run as = some s → I as s → P s a → M.step s a = some s' →
      I (as ++ [a]) s') :
    ∀ acts s, M.run acts = some s → M.Along P M.init acts → I acts s := by
  intro acts
  induction acts using List.reverseRecOn with
  | nil => intro s run _; cases run; exact init
  | append_singleton as a ih =>
    intro s' run along
    obtain ⟨s, before, last⟩ := run_snoc.1 run
    obtain ⟨along, here⟩ := (along_snoc before).1 along
    exact step as s a s' before (ih s before along) here last

/-- **The invariant rule.** -/
theorem Reachable.induct {I : σ → Prop} (init : I M.init)
    (step : ∀ s a s', I s → M.step s a = some s' → I s') {s : σ} (h : M.Reachable s) : I s := by
  obtain ⟨acts, run⟩ := h
  exact run_induct (P := fun _ _ => True) (I := fun _ => I) init
    (fun _ s a s' _ inv _ last => step s a s' inv last) acts s run
    (along_of_forall (fun _ _ => trivial) _ _)

theorem Reachable.step {s s' : σ} {a : α} (h : M.Reachable s) (step : M.step s a = some s') :
    M.Reachable s' := by
  obtain ⟨acts, run⟩ := h
  exact ⟨acts ++ [a], run_snoc.2 ⟨s, run, step⟩⟩

theorem always_snoc {P : σ → Prop} {as : List α} {a : α} {s' : σ} (run : M.run (as ++ [a]) = some s') :
    M.Always P (as ++ [a]) ↔ M.Always P as ∧ P s' := by
  constructor
  · intro always
    exact ⟨fun before s pre => always before s (pre.trans (List.prefix_append ..)), always _ _ List.prefix_rfl run⟩
  · rintro ⟨always, last⟩ before s pre reached
    rcases List.prefix_concat_iff.1 pre with rfl | pre
    · obtain rfl : s' = s := Option.some.inj (run.symm.trans reached)
      exact last
    · exact always before s pre reached

/-- **The rule for exact conditions**, among the runs to a state with `H`, which holds in all
states before one where it holds. When each step from a good state leads to a good state
exactly if it meets `Q`, the run stays good exactly if all its steps meet `Q`. -/
theorem always_iff_along_of {P H : σ → Prop} {Q : σ → α → Prop} (init : P M.init)
    (back : ∀ s a s', M.step s a = some s' → H s' → H s)
    (step : ∀ s a s', M.Reachable s → H s' → P s → M.step s a = some s' → (P s' ↔ Q s a)) :
    ∀ acts s, M.run acts = some s → H s → (M.Always P acts ↔ M.Along Q M.init acts) := by
  intro acts
  induction acts using List.reverseRecOn with
  | nil =>
    intro s run _
    simp only [Along, iff_true]
    intro before t pre reached
    obtain rfl := List.prefix_nil.1 pre
    cases reached
    exact init
  | append_singleton as a ih =>
    intro s' run now
    obtain ⟨s, before, last⟩ := run_snoc.1 run
    rw [always_snoc run, along_snoc before, ← ih s before (back s a s' last now)]
    refine and_congr_right fun always => ?_
    exact step s a s' ⟨as, before⟩ now (always as s List.prefix_rfl before) last

/-- The rule for exact conditions, among all runs. -/
theorem always_iff_along {P : σ → Prop} {Q : σ → α → Prop} (init : P M.init)
    (step : ∀ s a s', M.Reachable s → P s → M.step s a = some s' → (P s' ↔ Q s a)) (acts : List α)
    (s : σ) (run : M.run acts = some s) : M.Always P acts ↔ M.Along Q M.init acts :=
  always_iff_along_of (H := fun _ => True) init (fun _ _ _ _ _ => trivial)
    (fun s a s' reach _ => step s a s' reach) acts s run trivial

/-- The rule for exact conditions on what is not regained once it is lost. -/
theorem iff_along {P : σ → Prop} {Q : σ → α → Prop} (init : P M.init)
    (back : ∀ s a s', M.step s a = some s' → P s' → P s)
    (step : ∀ s a s', M.Reachable s → P s → M.step s a = some s' → (P s' ↔ Q s a)) :
    ∀ acts s, M.run acts = some s → (P s ↔ M.Along Q M.init acts) := by
  intro acts
  induction acts using List.reverseRecOn with
  | nil =>
    intro s run
    cases run
    exact iff_of_true init trivial
  | append_singleton as a ih =>
    intro s' run
    obtain ⟨s, before, last⟩ := run_snoc.1 run
    rw [along_snoc before, ← ih s before]
    constructor
    · intro now
      have earlier := back s a s' last now
      exact ⟨earlier, (step s a s' ⟨as, before⟩ earlier last).1 now⟩
    · rintro ⟨earlier, here⟩
      exact (step s a s' ⟨as, before⟩ earlier last).2 here

/-- `p` evaluated at every step of a run. -/
def check (M : Machine σ α) (p : σ → α → Bool) (s : σ) : List α → Bool
  | [] => true
  | a :: acts => p s a && (M.step s a).all fun s' => check M p s' acts

theorem along_of_check {p : σ → α → Bool} {P : σ → α → Prop} (sound : ∀ s a, p s a = true → P s a) {s : σ}
    {acts : List α} (h : M.check p s acts = true) : M.Along P s acts := by
  induction acts generalizing s with
  | nil => trivial
  | cons a acts ih =>
    obtain ⟨here, rest⟩ := Bool.and_eq_true_iff.1 h
    refine ⟨sound s a here, ?_⟩
    intro s' step
    rw [step] at rest
    exact ih rest

/-- Conditions that agree on the steps allowed by `I`, which speaks of the actions still to come
and is kept by the steps that meet `P`, agree along the whole run. -/
theorem along_congr {P Q : σ → α → Prop} {I : σ → List α → Prop}
    (here : ∀ s a as, I s (a :: as) → (P s a ↔ Q s a))
    (step : ∀ s a as s', I s (a :: as) → P s a → M.step s a = some s' → I s' as) {s : σ} {acts : List α}
    (h : I s acts) : M.Along P s acts ↔ M.Along Q s acts := by
  induction acts generalizing s with
  | nil => exact Iff.rfl
  | cons a acts ih =>
    rw [Along, Along, ← here s a acts h]
    refine and_congr_right fun ok => ?_
    exact forall_congr' fun s' => imp_congr_right fun next => ih (step s a acts s' h ok next)

/-- What an invariant of the runs along `P` says of every step is met along them. -/
theorem along_of_inv {P Q : σ → α → Prop} {I : σ → Prop} (init : I M.init)
    (step : ∀ s a s', M.Reachable s → I s → P s a → M.step s a = some s' → I s')
    (here : ∀ s a, M.Reachable s → I s → Q s a) :
    ∀ acts s, M.run acts = some s → M.Along P M.init acts → M.Along Q M.init acts := by
  intro acts
  induction acts using List.reverseRecOn with
  | nil => exact fun _ _ _ => trivial
  | append_singleton as a ih =>
    intro s' run along
    obtain ⟨s, before, -⟩ := run_snoc.1 run
    have along := ((along_snoc before).1 along).1
    have inv : I s := run_induct (P := P) (I := fun _ => I) init
      (fun as s a s' run inv => step s a s' ⟨as, run⟩ inv) as s before along
    exact (along_snoc before).2 ⟨ih s before along, here s a ⟨as, before⟩ inv⟩

/-- What follows from an invariant of the runs along `P` holds in every state they pass through. -/
theorem always_of_inv {P : σ → α → Prop} {I Q : σ → Prop} (init : I M.init)
    (step : ∀ s a s', M.Reachable s → I s → P s a → M.step s a = some s' → I s')
    (here : ∀ s, M.Reachable s → I s → Q s) {acts : List α} (along : M.Along P M.init acts) :
    M.Always Q acts := by
  rintro before s ⟨rest, rfl⟩ run
  have along_before := ((along_append run).1 along).1
  have inv : I s := run_induct (P := P) (I := fun _ => I) init
    (fun as s a s' run inv => step s a s' ⟨as, run⟩ inv) before s run along_before
  exact here s ⟨before, run⟩ inv

/-- A state found by evaluating a run is a state of that run. -/
theorem exists_of_any (acts : List α) (q : σ → Bool) (h : (M.run acts).any q = true) :
    ∃ s, M.run acts = some s ∧ q s = true := by
  cases run : M.run acts with
  | none => simp [run] at h
  | some s => exact ⟨s, rfl, by simpa [run] using h⟩

end Machine

/-- A split of a longer record is at its new last entry or inside the old record. -/
theorem split_snoc {α : Type*} {old before after : List α} {new d : α}
    (split : old ++ [new] = before ++ d :: after) :
    (new = d ∧ after = []) ∨ ∃ rest, after = rest ++ [new] ∧ old = before ++ d :: rest := by
  cases after using List.reverseRecOn with
  | nil =>
    obtain ⟨-, last⟩ := List.append_inj' split rfl
    exact .inl ⟨List.singleton_inj.1 last, rfl⟩
  | append_singleton rest last =>
    rw [← List.cons_append, ← List.append_assoc] at split
    obtain ⟨eq, last⟩ := List.append_inj' split rfl
    obtain rfl := List.singleton_inj.1 last
    exact .inr ⟨rest, rfl, eq⟩

end StockAnomaly.Theory
