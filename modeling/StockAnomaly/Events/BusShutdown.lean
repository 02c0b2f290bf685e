import StockAnomaly.Events.EventBus

/-!
# The shutdown of `EventBus`

The destructor changes `running_` and notifies without the mutex under which the dispatch
threads evaluate their predicate. Between the evaluation and the wait a notification is
lost, and the thread sleeps on with nobody to wake it. When no notification falls into
that window no dispatch thread is stranded: **`never_stranded`**.
-/

namespace StockAnomaly.Events

open StockAnomaly.Theory

/-- In the wait set, or past the test that leads there. -/
def DispatchPc.asleep {E : Type} : DispatchPc E → Bool
  | .blocking | .blocked => true
  | _ => false

/-- The destructor has notified the channel. -/
def DestructorPc.past : DestructorPc → Kind → Bool
  | .alive, _ | .stored, _ | .notified, .swing => false
  | _, _ => true

namespace Channel

variable {E Tid : Type} {n : ℕ}

/-- A notification wakes whoever is in the wait set. -/
theorem notify_asleep {c : Channel E Tid n} (awake : c.dispatcher ≠ .blocking) :
    c.notify.dispatcher.asleep = false := by
  cases pc : c.dispatcher <;> simp_all [Channel.notify, DispatchPc.asleep]

/-- A thread that is awake stays so under notifications. -/
theorem notify_awake {c : Channel E Tid n} (awake : c.dispatcher.asleep = false) :
    c.notify.dispatcher.asleep = false := by
  refine notify_asleep fun blocking => ?_
  rw [blocking] at awake
  cases awake

/-- Once `running_` is false nobody falls asleep. -/
theorem step_awake [DecidableEq Tid] {c c' : Channel E Tid n} {a : ChannelAction E Tid}
    (awake : c.dispatcher.asleep = false) (step : c.step false a = some c') :
    c'.dispatcher.asleep = false := by
  cases a with
  | dispatch =>
    cases pc : c.dispatcher <;> grind [Channel.step, dispatchStep, DispatchPc.asleep]
  | spurious => grind [Channel.step, DispatchPc.asleep]
  | publish t event => grind [Channel.step, goto]
  | publisher t =>
    simp only [Channel.step, publisherStep] at step
    split at step
    case h_1 => cases step
    case h_2 =>
      obtain ⟨-, same⟩ := Option.ite_none_right_eq_some.1 step
      cases same
      exact awake
    case h_3 => cases step; exact awake
    case h_4 => cases step; exact awake
    case h_5 => cases step; exact notify_awake awake

end Channel

namespace EventBus

variable {E : Kind → Type} {Tid : Type} {n : Kind → ℕ} {s s' : EventBus E Tid n}

/-- The destructor waits in `join`, a dispatch thread sleeps, and no publisher is left to
notify it. -/
def Stranded (s : EventBus E Tid n) : Prop :=
  ∃ joining kind, s.destructor = .joining joining ∧ (s.channel kind).dispatcher = .blocked ∧
    ∀ t, (s.channel kind).publisher t = .idle

/-- The channel whose condition variable the destructor's next step notifies. -/
def notifies (s : EventBus E Tid n) : BusAction E Tid → Option Kind
  | .destructor =>
    match s.destructor with
    | .stored => some .scalping
    | .notified => some .swing
    | _ => none
  | .channel _ _ => none

/-- The destructor does not notify a thread that has evaluated its predicate to false and is
not yet in the wait set. -/
def Heard (s : EventBus E Tid n) (a : BusAction E Tid) : Prop :=
  ∀ kind ∈ s.notifies a, (s.channel kind).dispatcher ≠ .blocking

instance [∀ kind, DecidableEq (E kind)] (s : EventBus E Tid n) (a : BusAction E Tid) :
    Decidable (s.Heard a) :=
  inferInstanceAs (Decidable (∀ kind ∈ s.notifies a, (s.channel kind).dispatcher ≠ .blocking))

/-- Whom the destructor has notified is awake for good. -/
structure ShutdownInv (s : EventBus E Tid n) : Prop where
  stopped : s.destructor ≠ .alive → s.running = false
  awake : ∀ kind, s.destructor.past kind = true → (s.channel kind).dispatcher.asleep = false

theorem ShutdownInv.start : ShutdownInv (start : EventBus E Tid n) :=
  ⟨fun begun => absurd rfl begun, fun kind past => by cases kind <;> cases past⟩

/-- A notification at the right time. -/
theorem ShutdownInv.notify (h : ShutdownInv s) {target : Kind} {next : DestructorPc}
    (begun : s.destructor ≠ .alive) (heard : (s.channel target).dispatcher ≠ .blocking)
    (new : ∀ kind, next.past kind = true → kind = target ∨ s.destructor.past kind = true) :
    ShutdownInv { s.setChannel target (s.channel target).notify with destructor := next } where
  stopped _ := h.stopped begun
  awake kind past := by
    by_cases same : kind = target
    · subst same
      simpa using Channel.notify_asleep heard
    · have before := h.awake kind ((new kind past).resolve_left same)
      simpa [setChannel_other same] using before

/-- Every heard step of the destructor keeps the invariant. -/
theorem ShutdownInv.destructor (h : ShutdownInv s) (heard : s.Heard .destructor)
    (step : s.destructorStep = some s') : ShutdownInv s' := by
  cases pc : s.destructor with
  | alive =>
    simp only [destructorStep, pc, Option.some.injEq] at step
    subst step
    exact ⟨fun _ => rfl, fun kind past => by cases kind <;> cases past⟩
  | stored =>
    simp only [destructorStep, pc, Option.some.injEq] at step
    subst step
    refine h.notify (by simp [pc]) (heard .scalping (by simp [notifies, pc])) ?_
    intro kind past
    cases kind with
    | scalping => exact .inl rfl
    | swing => cases past
  | notified =>
    simp only [destructorStep, pc, Option.some.injEq] at step
    subst step
    refine h.notify (by simp [pc]) (heard .swing (by simp [notifies, pc])) ?_
    intro kind _
    cases kind with
    | scalping => exact .inr (by rw [pc]; rfl)
    | swing => exact .inl rfl
  | joining kind =>
    have all : ∀ kind, s.destructor.past kind = true := by
      intro kind
      rw [pc]
      cases kind <;> rfl
    cases kind with
    | scalping =>
      simp only [destructorStep, pc, Option.ite_none_right_eq_some, Option.some.injEq] at step
      obtain ⟨-, rfl⟩ := step
      exact ⟨fun _ => h.stopped (by simp [pc]), fun kind _ => h.awake kind (all kind)⟩
    | swing =>
      simp only [destructorStep, pc, Option.ite_none_right_eq_some, Option.some.injEq] at step
      obtain ⟨-, rfl⟩ := step
      exact ⟨fun _ => h.stopped (by simp [pc]), fun kind _ => h.awake kind (all kind)⟩
  | destroyed => simp [destructorStep, pc] at step

variable [DecidableEq Tid]

/-- Every heard step keeps the invariant. -/
theorem ShutdownInv.step {a : BusAction E Tid} (h : ShutdownInv s) (heard : s.Heard a)
    (step : s.step a = some s') : ShutdownInv s' := by
  cases a with
  | channel kind a =>
    obtain ⟨c, moved, rfl⟩ := Option.map_eq_some_iff.1 step
    refine ⟨h.stopped, ?_⟩
    intro other past
    by_cases same : other = kind
    · subst same
      have begun : s.destructor ≠ .alive := by
        intro alive
        simp [setChannel, alive, DestructorPc.past] at past
      rw [h.stopped begun] at moved
      simpa using Channel.step_awake (h.awake other past) moved
    · simpa [setChannel_other same] using h.awake other past
  | destructor => exact h.destructor heard step

omit [DecidableEq Tid] in
/-- In `join` everybody was notified. -/
theorem ShutdownInv.not_stranded (h : ShutdownInv s) : ¬ s.Stranded := by
  rintro ⟨joining, kind, waiting, blocked, -⟩
  have awake := h.awake kind (by rw [waiting]; cases kind <;> rfl)
  rw [blocked] at awake
  cases awake

/-- **When every notification of the destructor is heard, no dispatch thread is stranded.** -/
theorem never_stranded (acts : List (BusAction E Tid))
    (heard : (machine E Tid n).Along Heard (machine E Tid n).init acts) :
    (machine E Tid n).Always (fun s => ¬ s.Stranded) acts :=
  Machine.always_of_inv (I := ShutdownInv) .start (fun _ _ _ _ inv heard step => inv.step heard step)
    (fun _ _ inv => inv.not_stranded) heard

/-- The bus is destroyed while both dispatch threads sleep. -/
theorem never_stranded_asleep :
    (machine (fun _ => Unit) Unit (fun _ => 1)).Always (fun s => ¬ s.Stranded)
      ([.dispatch, .dispatch, .dispatch, .dispatch].map (.channel .scalping) ++
        [.dispatch, .dispatch, .dispatch, .dispatch].map (.channel .swing) ++
        [.destructor, .destructor, .destructor] ++
        [.dispatch, .dispatch, .dispatch, .dispatch].map (.channel .scalping)) :=
  never_stranded _ (Machine.along_of_check (p := fun s a => decide (s.Heard a))
    (fun _ _ => of_decide_eq_true) (by decide))

/-- The flag is set and the notification sent between the test of the predicate and the wait. -/
theorem stranded_between_test_and_wait :
    ¬ ∀ acts s, (machine (fun _ => Unit) Unit (fun _ => 1)).run acts = some s → ¬ s.Stranded := by
  intro claim
  obtain ⟨s, run, bad⟩ := Machine.exists_of_any (M := machine (fun _ => Unit) Unit (fun _ => 1))
    ([.dispatch, .dispatch, .dispatch].map (.channel .scalping) ++
      [.destructor, .destructor, .channel .scalping .dispatch, .destructor])
    (fun s => s.destructor = .joining .scalping ∧ (s.channel .scalping).dispatcher = .blocked ∧
      (s.channel .scalping).publisher () = .idle) (by decide)
  obtain ⟨joining, blocked, idle⟩ := of_decide_eq_true bad
  exact claim _ s run ⟨.scalping, .scalping, joining, blocked, fun _ => idle⟩

/-- A notification that is not heard strands the thread when it goes on to the wait. -/
theorem stranded_of_missed {kind : Kind} (notifies : s.notifies .destructor = some kind)
    (missed : (s.channel kind).dispatcher = .blocking) (idle : ∀ t, (s.channel kind).publisher t = .idle) :
    ∃ acts s', (machine E Tid n).runFrom s acts = some s' ∧ s'.Stranded := by
  have lost : s.setChannel kind (s.channel kind).notify = s := by
    have same : (s.channel kind).notify = s.channel kind := by
      simp only [Channel.notify, missed]
      rw [← missed]
    rw [same, setChannel, Function.update_eq_self]
  -- the destructor goes past the channel, and the thread enters the wait set
  have wait (next : DestructorPc) : (machine E Tid n).step { s with destructor := next }
      (.channel kind .dispatch) = some ({ s with destructor := next }.setChannel kind
        { s.channel kind with mtx := none, dispatcher := .blocked }) := by
    simp [machine, EventBus.step, Channel.step, Channel.dispatchStep, missed]
  cases pc : s.destructor with
  | stored =>
    obtain rfl : Kind.scalping = kind := by simpa [EventBus.notifies, pc] using notifies
    have notify : (machine E Tid n).step s .destructor = some { s with destructor := .notified } := by
      simp [machine, EventBus.step, destructorStep, pc, lost]
    let slept := { s with destructor := .notified }.setChannel .scalping
      { s.channel .scalping with mtx := none, dispatcher := .blocked }
    have join : (machine E Tid n).step slept .destructor = some { slept.setChannel .swing
        (slept.channel .swing).notify with destructor := .joining .scalping } := rfl
    have run := (Machine.runFrom_cons notify).trans
      ((Machine.runFrom_cons (wait .notified)).trans (@Machine.runFrom_cons _ _ _ _ _ _ [] join))
    refine ⟨_, _, run, .scalping, .scalping, rfl, ?_, ?_⟩
    · simp [setChannel_other, slept]
    · simpa [setChannel_other, slept] using idle
  | notified =>
    obtain rfl : Kind.swing = kind := by simpa [EventBus.notifies, pc] using notifies
    have notify : (machine E Tid n).step s .destructor =
        some { s with destructor := .joining .scalping } := by
      simp [machine, EventBus.step, destructorStep, pc, lost]
    have run := (Machine.runFrom_cons notify).trans (@Machine.runFrom_cons _ _ _ _ _ _ [] (wait _))
    refine ⟨_, _, run, .scalping, .swing, rfl, ?_, ?_⟩
    · simp
    · simpa using idle
  | _ => simp [EventBus.notifies, pc] at notifies

end EventBus

end StockAnomaly.Events
