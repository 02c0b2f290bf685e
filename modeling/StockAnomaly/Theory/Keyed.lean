import Mathlib.Algebra.BigOperators.Group.Finset.Piecewise
import Mathlib.Data.List.Dedup
import Mathlib.Data.List.Induction
import Mathlib.Logic.Function.Basic

/-!
# Handlers keyed by their events

A `Keyed` handler keeps one state for every key and an event touches the state of its own
key only. What it emits for one key is what it emits when that key's events come alone:
`run_outputs`. When only a bounded number of keys can get a state, `admitted` is the list
of those that do, in the order of their first event.
-/

namespace StockAnomaly.Theory

/-- A handler whose state is a map from keys. -/
structure Keyed (κ σ ε ω : Type*) where
  key : ε → κ
  init : σ
  step : σ → ε → σ × List ω

namespace Keyed

variable {κ σ ε ω : Type*} [DecidableEq κ] (M : Keyed κ σ ε ω)

/-- One event: the state of its key, and what is emitted. -/
def handle (m : κ → σ) (e : ε) : (κ → σ) × List ω :=
  (Function.update m (M.key e) (M.step (m (M.key e)) e).1, (M.step (m (M.key e)) e).2)

/-- The states after the events, and all that was emitted. -/
def run (events : List ε) : (κ → σ) × List ω :=
  events.foldl (fun (m, outs) e => ((M.handle m e).1, outs ++ (M.handle m e).2)) (fun _ => M.init, [])

/-- The same for one state that gets every event. -/
def runOne (events : List ε) : σ × List ω :=
  events.foldl (fun (s, outs) e => ((M.step s e).1, outs ++ (M.step s e).2)) (M.init, [])

theorem run_snoc (events : List ε) (e : ε) :
    M.run (events ++ [e]) =
      ((M.handle (M.run events).1 e).1, (M.run events).2 ++ (M.handle (M.run events).1 e).2) := by
  rw [run, List.foldl_append]
  rfl

omit [DecidableEq κ] in
theorem runOne_snoc (events : List ε) (e : ε) :
    M.runOne (events ++ [e]) =
      ((M.step (M.runOne events).1 e).1, (M.runOne events).2 ++ (M.step (M.runOne events).1 e).2) := by
  rw [runOne, List.foldl_append]
  rfl

/-- The state of a key is made by that key's events. -/
theorem run_entry (events : List ε) (k : κ) :
    (M.run events).1 k = (M.runOne (events.filter (M.key · = k))).1 := by
  induction events using List.reverseRecOn with
  | nil => rfl
  | append_singleton events e ih =>
    rw [run_snoc, List.filter_append]
    by_cases own : M.key e = k
    · subst own
      simp only [handle, Function.update_self, ih, decide_true, List.filter_cons_of_pos, List.filter_nil]
      rw [runOne_snoc]
    · simp only [handle, own, decide_false, Bool.false_eq_true, not_false_eq_true,
        List.filter_cons_of_neg, List.filter_nil, List.append_nil]
      rw [Function.update_of_ne (Ne.symm own), ih]

/-- The invariant rule, one entry at a time. -/
theorem run_inv {I : κ → σ → Prop} (init : ∀ k, I k M.init)
    (step : ∀ s e, I (M.key e) s → I (M.key e) (M.step s e).1) (events : List ε) (k : κ) :
    I k ((M.run events).1 k) := by
  induction events using List.reverseRecOn with
  | nil => exact init k
  | append_singleton events e ih =>
    rw [run_snoc]
    by_cases own : M.key e = k
    · subst own
      simp only [handle, Function.update_self]
      exact step _ e ih
    · simp only [handle, Function.update_of_ne (Ne.symm own)]
      exact ih

/-- **Keys do not influence each other**: what is emitted for a key, in order, is what its
own events emit. -/
theorem run_outputs {I : κ → σ → Prop} (init : ∀ k, I k M.init)
    (step : ∀ s e, I (M.key e) s → I (M.key e) (M.step s e).1) {tag : ω → κ}
    (tagged : ∀ s e, I (M.key e) s → ∀ o ∈ (M.step s e).2, tag o = M.key e) (events : List ε) (k : κ) :
    (M.run events).2.filter (tag · = k) = (M.runOne (events.filter (M.key · = k))).2 := by
  induction events using List.reverseRecOn with
  | nil => rfl
  | append_singleton events e ih =>
    have inv := M.run_inv init step events (M.key e)
    rw [run_snoc, List.filter_append, List.filter_append, ih]
    by_cases own : M.key e = k
    · subst own
      have all : ((M.handle (M.run events).1 e).2).filter (tag · = M.key e) = (M.handle (M.run events).1 e).2 := by
        apply List.filter_eq_self.2
        intro o mem
        exact decide_eq_true (tagged _ e inv o mem)
      have alone : [e].filter (M.key · = M.key e) = [e] := by simp
      rw [all, alone, runOne_snoc, ← run_entry]
      rfl
    · have none_kept : ((M.handle (M.run events).1 e).2).filter (tag · = k) = [] := by
        apply List.filter_eq_nil_iff.2
        intro o mem
        rw [tagged _ e inv o mem]
        simpa using own
      have dropped : [e].filter (M.key · = k) = [] := by simp [own]
      rw [none_kept, dropped, List.append_nil, List.append_nil]

/-- Events of one key alone are handled by its state alone. -/
theorem run_own {events : List ε} {k : κ} (own : ∀ e ∈ events, M.key e = k) :
    (M.run events).2 = (M.runOne events).2 := by
  induction events using List.reverseRecOn with
  | nil => rfl
  | append_singleton events e ih =>
    have before : ∀ e ∈ events, M.key e = k := fun e' mem => own e' (by simp [mem])
    have all : events.filter (M.key · = k) = events := by
      apply List.filter_eq_self.2
      intro e' mem
      exact decide_eq_true (before e' mem)
    have last : M.key e = k := own e (by simp)
    have entry := M.run_entry events k
    rw [all] at entry
    rw [run_snoc, runOne_snoc, ih before]
    simp only [handle, last, entry]

end Keyed

/-- A list counted key by key. -/
theorem length_eq_sum_filter {κ ε : Type*} [DecidableEq κ] (key : ε → κ) (keys : Finset κ) {events : List ε}
    (known : ∀ e ∈ events, key e ∈ keys) :
    events.length = ∑ k ∈ keys, (events.filter (key · = k)).length := by
  induction events with
  | nil => simp
  | cons e events ih =>
    have step : ∀ k ∈ keys, ((e :: events).filter (key · = k)).length =
        (events.filter (key · = k)).length + if key e = k then 1 else 0 := by
      intro k _
      by_cases own : key e = k <;> simp [own]
    rw [Finset.sum_congr rfl step, Finset.sum_add_distrib, ← ih fun e' mem => known e' (by simp [mem])]
    simp [known e]

/-- A list is free of repetitions if it is so key by key. -/
theorem nodup_map_of_filter {κ α γ : Type*} [DecidableEq κ] {f : α → κ} {g : α → γ} {l : List α}
    (apart : ∀ a ∈ l, ∀ b ∈ l, g a = g b → f a = f b)
    (each : ∀ k, ((l.filter (f · = k)).map g).Nodup) : (l.map g).Nodup := by
  induction l with
  | nil => exact List.nodup_nil
  | cons a l ih =>
    rw [List.map_cons, List.nodup_cons]
    constructor
    · intro mem
      obtain ⟨b, mem, same⟩ := List.mem_map.1 mem
      have own := apart b (List.mem_cons_of_mem _ mem) a List.mem_cons_self same
      have here := each (f a)
      rw [List.filter_cons_of_pos (by simp), List.map_cons, List.nodup_cons] at here
      apply here.1
      rw [← same]
      exact List.mem_map_of_mem (List.mem_filter.2 ⟨mem, by simpa using own⟩)
    · refine ih (fun a' mem b mem' => apart a' (.tail _ mem) b (.tail _ mem')) fun k => ?_
      exact (each k).sublist (((List.sublist_cons_self a l).filter _).map g)

section Admitted

variable {κ : Type*} [DecidableEq κ]

/-- The first `n` distinct keys, in the order of their first occurrence. -/
def admitted (n : ℕ) (keys : List κ) : List κ := keys.eraseDups.take n

@[simp] theorem admitted_nil (n : ℕ) : admitted n ([] : List κ) = [] := by simp [admitted]

theorem length_admitted_le (n : ℕ) (keys : List κ) : (admitted n keys).length ≤ n :=
  List.length_take_le ..

theorem mem_of_mem_admitted {n : ℕ} {keys : List κ} {k : κ} (mem : k ∈ admitted n keys) : k ∈ keys :=
  List.mem_eraseDups.1 (List.mem_of_mem_take mem)

/-- A key met before changes nothing. -/
theorem eraseDups_snoc_of_mem {keys : List κ} {k : κ} (mem : k ∈ keys) :
    (keys ++ [k]).eraseDups = keys.eraseDups := by
  simp [List.eraseDups_append, List.removeAll, mem]

theorem eraseDups_snoc_of_notMem {keys : List κ} {k : κ} (new : k ∉ keys) :
    (keys ++ [k]).eraseDups = keys.eraseDups ++ [k] := by
  simp [List.eraseDups_append, List.removeAll, new, List.eraseDups_cons]

/-- A key that has a place keeps it, and no further key gets one. -/
theorem admitted_snoc_of_mem {n : ℕ} {keys : List κ} {k : κ} (mem : k ∈ admitted n keys) :
    admitted n (keys ++ [k]) = admitted n keys := by
  rw [admitted, eraseDups_snoc_of_mem (mem_of_mem_admitted mem), admitted]

/-- Without a free place nobody is admitted any more. -/
theorem admitted_snoc_of_full {n : ℕ} {keys : List κ} {k : κ} (full : (admitted n keys).length = n) :
    admitted n (keys ++ [k]) = admitted n keys := by
  have long : n ≤ keys.eraseDups.length := by
    simp only [admitted, List.length_take] at full
    omega
  rw [admitted, List.eraseDups_append, List.take_append_of_le_length long, admitted]

/-- While there is a free place, every key met is admitted. -/
theorem mem_admitted_of_room {n : ℕ} {keys : List κ} {k : κ} (room : (admitted n keys).length < n) :
    k ∈ admitted n keys ↔ k ∈ keys := by
  have short : keys.eraseDups.length ≤ n := by
    simp only [admitted, List.length_take] at room
    omega
  rw [admitted, List.take_of_length_le short, List.mem_eraseDups]

/-- A new key takes the next free place. -/
theorem admitted_snoc_of_room {n : ℕ} {keys : List κ} {k : κ} (new : k ∉ admitted n keys)
    (room : (admitted n keys).length < n) : admitted n (keys ++ [k]) = admitted n keys ++ [k] := by
  have short : keys.eraseDups.length < n := by
    simp only [admitted, List.length_take] at room
    omega
  rw [mem_admitted_of_room room] at new
  have fits : (keys.eraseDups ++ [k]).length ≤ n := by
    rw [List.length_append, List.length_singleton]
    omega
  rw [admitted, eraseDups_snoc_of_notMem new, admitted, List.take_of_length_le fits,
    List.take_of_length_le (Nat.le_of_lt short)]

end Admitted

end StockAnomaly.Theory
