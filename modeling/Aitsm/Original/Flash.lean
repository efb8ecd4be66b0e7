import Aitsm.Library.System
import Aitsm.Original.Led

/-!
# The status LED and its threads

`led_status_set` runs on the caller's thread, both handlers run on the system
workqueue, one after the other, and `led_mutex` is between them. A call of
`led_status_set` waits for the mutex and then has several stages; a handler that
finds the mutex taken schedules itself again. A handler that has the mutex is a
single step: nothing else can happen meanwhile.

* `ledThreads` — any order of the stages, the handlers and the expirations of
  the two timers, with any answer of the PWM driver.
* `Settled` — what the LED promises while no call is under way: a flash comes to
  an end, and a status that blinks goes on blinking.
* `Tolerated` — a write that the driver refuses finds the work it would have
  scheduled already under way.

A call with a value outside `enum led_status` returns before the mutex.
-/

namespace Aitsm.Original

open Library
open Library.System (Step anyStep reports)

/-- `blink_work` and `transient_work`. -/
inductive LedWork where
  | blink
  | transient
  deriving DecidableEq

/-- The work that keeps a status on display going. -/
def workOf (status : LedStatus) : Option LedWork :=
  if ledStatusIsTransient status then some .transient
  else if (ledStatusIndication status).2 = .blink then some .blink
  else none

namespace Led

/-- `k_work_delayable_is_pending`. -/
def scheduled (led : Led) : LedWork → Bool
  | .blink => led.blinkWork
  | .transient => led.transientWork

/-- `k_work_reschedule`. -/
def reschedule (led : Led) : LedWork → Led
  | .blink => { led with blinkWork := true }
  | .transient => { led with transientWork := true }

/-- `k_work_cancel_delayable`, and what the expiration of the timer does. -/
def cancel (led : Led) : LedWork → Led
  | .blink => { led with blinkWork := false }
  | .transient => { led with transientWork := false }

@[simp] theorem scheduled_reschedule (led : Led) (work work' : LedWork) :
    (led.reschedule work).scheduled work' = (work' = work || led.scheduled work') := by
  cases work <;> cases work' <;> rfl

@[simp] theorem scheduled_cancel (led : Led) (work work' : LedWork) :
    (led.cancel work).scheduled work' = (work' ≠ work && led.scheduled work') := by
  cases work <;> cases work' <;> rfl

@[simp] theorem displayedStatus_reschedule (led : Led) (work : LedWork) :
    (led.reschedule work).displayedStatus = led.displayedStatus := by
  cases work <;> rfl

@[simp] theorem displayedStatus_cancel (led : Led) (work : LedWork) :
    (led.cancel work).displayedStatus = led.displayedStatus := by
  cases work <;> rfl

theorem scheduled_applyStatus (led : Led) (pwm : Pwm) (status : LedStatus)
    (visible : Bool) (work : LedWork) :
    (led.applyStatus pwm status visible).scheduled work = led.scheduled work := by
  obtain ⟨c, hc⟩ := led.applyStatus_eq pwm status visible
  rw [hc]
  cases work <;> rfl

theorem displayedStatus_applyStatus (led : Led) (pwm : Pwm) (status : LedStatus)
    (visible : Bool) :
    (led.applyStatus pwm status visible).displayedStatus = led.displayedStatus := by
  obtain ⟨c, hc⟩ := led.applyStatus_eq pwm status visible
  rw [hc]

/-- What `led_status_set` writes as soon as it has the mutex. -/
def enterSet (led : Led) (status : LedStatus) : Led :=
  if ledStatusIsTransient status then
    { led with
      displayedStatus := status
      blinkVisible := false
      transientOn := true
      transientBlinksLeft := transientBlinks }
  else { led with stableStatus := status, displayedStatus := status }

@[simp] theorem displayedStatus_enterSet (led : Led) (status : LedStatus) :
    (led.enterSet status).displayedStatus = status := by
  unfold enterSet
  split <;> rfl

/-- A handler that has the mutex. -/
def handle (led : Led) (pwm : Pwm) : LedWork → Led
  | .blink => led.blinkLocked pwm
  | .transient => led.transientLocked pwm

end Led

/-- Where the call of `led_status_set` is that has the mutex. -/
inductive Setter where
  | idle
  /-- before its first `k_work_cancel_delayable` -/
  | cancel (status : LedStatus)
  /-- before `k_work_cancel_delayable(&blink_work)` for a solid stable status -/
  | cancelBlink (status : LedStatus)
  /-- before `apply_status` -/
  | apply (status : LedStatus)
  /-- before `k_work_reschedule` -/
  | reschedule (work : LedWork)
  deriving DecidableEq

/-- Where the system workqueue is. -/
inductive Handler where
  | idle
  /-- before `k_mutex_lock` -/
  | started (work : LedWork)
  /-- the mutex was taken: before `k_work_reschedule` -/
  | busy (work : LedWork)
  deriving DecidableEq

/-- The LED, and how far its threads are. -/
structure LedThreads where
  led : Led
  setter : Setter := .idle
  handler : Handler := .idle

/-- A step of one of the threads, or of a timer; `pwm` is used where the step
writes a color. -/
inductive LedAction where
  /-- `led_status_set` gets the mutex -/
  | set (status : LedStatus)
  /-- it goes on -/
  | setter (pwm : Pwm)
  /-- the timer of a work expires, and its handler starts -/
  | expire (work : LedWork)
  /-- the handler goes on -/
  | handler (pwm : Pwm)
  deriving DecidableEq

namespace LedThreads

/-- The next stage of `led_status_set`; the last one releases the mutex. -/
def setterStep (c : LedThreads) (pwm : Pwm) : Option LedThreads :=
  match c.setter with
  | .idle => none
  | .cancel status =>
    if ledStatusIsTransient status then
      some { c with led := c.led.cancel .blink, setter := .apply status }
    else if (ledStatusIndication status).2 = .blink then
      some { c with
        led := { c.led.cancel .transient with blinkVisible := true }, setter := .apply status }
    else
      some { c with
        led := { c.led.cancel .transient with blinkVisible := false }
        setter := .cancelBlink status }
  | .cancelBlink status => some { c with led := c.led.cancel .blink, setter := .apply status }
  | .apply status =>
    some { c with
      led := c.led.applyStatus pwm status true
      setter :=
        match workOf status with
        | some work => if pwm.ok then .reschedule work else .idle
        | none => .idle }
  | .reschedule work => some { c with led := c.led.reschedule work, setter := .idle }

/-- The next step of the handler that runs. -/
def handlerStep (c : LedThreads) (pwm : Pwm) : Option LedThreads :=
  match c.handler with
  | .idle => none
  | .started work =>
    if c.setter = .idle then some { c with led := c.led.handle pwm work, handler := .idle }
    else some { c with handler := .busy work }
  | .busy work => some { c with led := c.led.reschedule work, handler := .idle }

/-- One action. -/
def step (c : LedThreads) : LedAction → Option LedThreads
  | .set status =>
    if c.setter = .idle then some { c with led := c.led.enterSet status, setter := .cancel status }
    else none
  | .setter pwm => c.setterStep pwm
  | .expire work =>
    if c.handler = .idle ∧ c.led.scheduled work then
      some { c with led := c.led.cancel work, handler := .started work }
    else none
  | .handler pwm => c.handlerStep pwm

end LedThreads

/-- The threads from a state on; each step reports what it was. -/
def ledThreads (start : LedThreads) : System LedThreads LedAction LedAction where
  start := start
  step c a := (c.step a).map fun c' => (c', [a])

/-- The status that was last set and is not transient; `led_status_init` sets the first. -/
def lastStable (τ : List LedAction) : LedStatus :=
  τ.foldl (fun last a =>
    match a with
    | .set status => if ledStatusIsTransient status then last else status
    | _ => last) .disconnected

namespace LedThreads

/-- A work is scheduled, or its handler is under way. -/
def pending (c : LedThreads) (work : LedWork) : Bool :=
  c.led.scheduled work || c.handler = .started work || c.handler = .busy work

/-- `led_status_set` is not called any more. -/
abbrev noCall : LedThreads → List LedAction → LedAction → Prop :=
  fun _ _ a => ∀ status, a ≠ .set status

/-- What the LED promises while no call of `led_status_set` has the mutex. -/
structure Settled (c : LedThreads) (status : LedStatus) : Prop where
  shows : c.led.displayedStatus = c.led.stableStatus ∨ ledStatusIsTransient c.led.displayedStatus
  flash : ledStatusIsTransient c.led.displayedStatus → c.pending .transient
  returns : ledStatusIsTransient c.led.displayedStatus → ∀ c' τ,
    (ledThreads c).Run noCall c' τ → c'.handler = .idle →
    2 * c.led.transientBlinksLeft ≤ τ.count (.expire .transient) → c'.led.displayedStatus = status
  blinks : (ledStatusIndication c.led.displayedStatus).2 = .blink → c.pending .blink

/-- When `apply_status` fails in `led_status_set`, the work that is then not
scheduled is pending already. -/
def Tolerated (c : LedThreads) : LedAction → Bool
  | .setter pwm =>
    match c.setter with
    | .apply status => pwm.ok || (workOf status).all c.pending
    | _ => true
  | _ => true

/-! ## A thread by itself -/

theorem blink_eq (led : Led) (busy : Bool) (pwm : Pwm) :
    led.blink busy pwm =
      if busy then (led.cancel .blink).reschedule .blink
      else (led.cancel .blink).handle pwm .blink := rfl

theorem transient_eq (led : Led) (busy : Bool) (pwm : Pwm) :
    led.transient busy pwm =
      if busy then (led.cancel .transient).reschedule .transient
      else (led.cancel .transient).handle pwm .transient := rfl

/-- A call that no handler interrupts. -/
theorem set_alone {c : LedThreads} (hc : c.setter = .idle) (status : LedStatus) (pwm : Pwm) :
    ∃ k, (LedAction.set status :: List.replicate k (.setter pwm)).foldlM step c =
      some { c with led := c.led.set pwm status } := by
  obtain ⟨led, setter, handler⟩ := c
  obtain rfl : setter = .idle := hc
  by_cases ht : ledStatusIsTransient status
  · rcases hok : pwm.ok with _ | _
    · refine ⟨2, ?_⟩
      simp [step, setterStep, Led.enterSet, Led.set, Led.cancel, workOf, ht, hok,
        -Led.applyStatus_stableStatus]
    · refine ⟨3, ?_⟩
      simp [step, setterStep, Led.enterSet, Led.set, Led.cancel, Led.reschedule, workOf, ht, hok]
  by_cases hb : (ledStatusIndication status).2 = .blink
  · rcases hok : pwm.ok with _ | _
    · refine ⟨2, ?_⟩
      simp [step, setterStep, Led.enterSet, Led.set, Led.cancel, workOf, ht, hb, hok,
        -Led.applyStatus_stableStatus]
    · refine ⟨3, ?_⟩
      simp [step, setterStep, Led.enterSet, Led.set, Led.cancel, Led.reschedule, workOf, ht, hb,
        hok]
  · refine ⟨3, ?_⟩
    simp [step, setterStep, Led.enterSet, Led.set, Led.cancel, workOf, ht, hb]

end LedThreads

/-! ## The variables -/

theorem workOf_eq_transient {status : LedStatus} :
    workOf status = some .transient ↔ ledStatusIsTransient status := by
  cases status <;> decide

theorem workOf_eq_blink {status : LedStatus} :
    workOf status = some .blink ↔ (ledStatusIndication status).2 = .blink := by
  cases status <;> decide

namespace Led

/-- The last stable status is kept, and a flash has blinks left. -/
structure Flashing (led : Led) (last : LedStatus) : Prop where
  stable : led.stableStatus = last
  steady : ledStatusIsTransient last = false
  shows : led.displayedStatus = last ∨ ledStatusIsTransient led.displayedStatus
  left : ledStatusIsTransient led.displayedStatus → 1 ≤ led.transientBlinksLeft

variable {led led' : Led} {last : LedStatus}

/-- Everything else may change. -/
theorem Flashing.frame (h : led.Flashing last) (hstable : led'.stableStatus = led.stableStatus)
    (hdisplayed : led'.displayedStatus = led.displayedStatus)
    (hleft : led'.transientBlinksLeft = led.transientBlinksLeft) : led'.Flashing last where
  stable := hstable.trans h.stable
  steady := h.steady
  shows := hdisplayed ▸ h.shows
  left := by
    rw [hdisplayed, hleft]
    exact h.left

theorem Flashing.cancel (h : led.Flashing last) (work : LedWork) :
    (led.cancel work).Flashing last := by
  cases work with
  | blink => exact h.frame rfl rfl rfl
  | transient => exact h.frame rfl rfl rfl

theorem Flashing.reschedule (h : led.Flashing last) (work : LedWork) :
    (led.reschedule work).Flashing last := by
  cases work with
  | blink => exact h.frame rfl rfl rfl
  | transient => exact h.frame rfl rfl rfl

theorem Flashing.applyStatus (h : led.Flashing last) (pwm : Pwm) (status : LedStatus)
    (visible : Bool) : (led.applyStatus pwm status visible).Flashing last := by
  obtain ⟨c, hc⟩ := led.applyStatus_eq pwm status visible
  rw [hc]
  exact h.frame rfl rfl rfl

theorem Flashing.enterSet (h : led.Flashing last) (status : LedStatus) :
    (led.enterSet status).Flashing (if ledStatusIsTransient status then last else status) := by
  unfold Led.enterSet
  split
  · exact ⟨h.stable, h.steady, .inr ‹_›, fun _ => by simp [transientBlinks]⟩
  · rename_i hsteady
    exact ⟨rfl, Bool.eq_false_iff.mpr hsteady, .inl rfl, fun h => absurd h hsteady⟩

theorem Flashing.handle (h : led.Flashing last) (pwm : Pwm) (work : LedWork) :
    (led.handle pwm work).Flashing last := by
  cases work with
  | blink =>
    obtain ⟨-, c, hc⟩ | ⟨-, hc⟩ := led.blinkLocked_cases pwm
    · rw [Led.handle, hc]
      exact h.frame rfl rfl rfl
    · rw [Led.handle, hc]
      exact h.frame rfl rfl rfl
  | transient =>
    obtain ⟨-, c, hc⟩ | ⟨-, hleft, c, hc⟩ | ⟨-, -, c, hc⟩ := led.transientLocked_cases pwm
    · rw [Led.handle, hc]
      exact h.frame rfl rfl rfl
    · rw [Led.handle, hc]
      exact ⟨h.stable, h.steady, h.shows, fun _ => Nat.le_sub_of_add_le hleft⟩
    · rw [Led.handle, hc]
      refine ⟨h.stable, h.steady, .inl h.stable, fun hflash => ?_⟩
      have hstable : ledStatusIsTransient led.stableStatus := hflash
      rw [h.stable, h.steady] at hstable
      cases hstable

end Led

/-- The status that is being set, until it is applied. -/
def Setter.status : Setter → Option LedStatus
  | .cancel status | .cancelBlink status | .apply status => some status
  | .idle | .reschedule _ => none

theorem lastStable_concat (τ : List LedAction) (a : LedAction) :
    lastStable (τ ++ [a]) =
      match a with
      | .set status => if ledStatusIsTransient status then lastStable τ else status
      | _ => lastStable τ := by
  rw [lastStable, List.foldl_append]
  rfl

namespace LedThreads

variable {c c' : LedThreads} {τ : List LedAction} {a : LedAction}

/-- A call of `led_status_set` is about the status on display. -/
structure Inv (c : LedThreads) (last : LedStatus) : Prop where
  led : c.led.Flashing last
  setting : ∀ status, c.setter.status = some status → c.led.displayedStatus = status
  rescheduling : ∀ work, c.setter = .reschedule work →
    workOf c.led.displayedStatus = some work

/-- The mutex is free. -/
theorem Inv.of_idle {last : LedStatus} (hled : c.led.Flashing last) (hidle : c.setter = .idle) :
    Inv c last := by
  refine ⟨hled, fun status h => ?_, fun work h => ?_⟩
  · rw [hidle] at h
    cases h
  · rw [hidle] at h
    cases h

/-- The status on display stays. -/
theorem Inv.move {last : LedStatus} (hi : Inv c last) (hled : c'.led.Flashing last)
    (hdisplayed : c'.led.displayedStatus = c.led.displayedStatus)
    (hstatus : ∀ status, c'.setter.status = some status → c.setter.status = some status)
    (hwork : ∀ work, c'.setter = .reschedule work → workOf c.led.displayedStatus = some work) :
    Inv c' last where
  led := hled
  setting status h := hdisplayed.trans (hi.setting status (hstatus status h))
  rescheduling work h := by
    rw [hdisplayed]
    exact hwork work h

theorem Inv.setterStep {last : LedStatus} {pwm : Pwm} (hi : Inv c last)
    (h : c.setterStep pwm = some c') : Inv c' last := by
  cases hsetter : c.setter with
  | idle =>
    simp only [LedThreads.setterStep, hsetter] at h
    cases h
  | cancel status =>
    simp only [LedThreads.setterStep, hsetter] at h
    split at h
    · obtain rfl := Option.some.inj h
      exact hi.move (hi.led.cancel .blink) rfl (by simp [hsetter, Setter.status]) nofun
    split at h
    · obtain rfl := Option.some.inj h
      exact hi.move ((hi.led.cancel .transient).frame rfl rfl rfl) rfl
        (by simp [hsetter, Setter.status]) nofun
    · obtain rfl := Option.some.inj h
      exact hi.move ((hi.led.cancel .transient).frame rfl rfl rfl) rfl
        (by simp [hsetter, Setter.status]) nofun
  | cancelBlink status =>
    simp only [LedThreads.setterStep, hsetter] at h
    obtain rfl := Option.some.inj h
    exact hi.move (hi.led.cancel .blink) rfl (by simp [hsetter, Setter.status]) nofun
  | apply status =>
    simp only [LedThreads.setterStep, hsetter] at h
    obtain rfl := Option.some.inj h
    have hshown := hi.setting status (by rw [hsetter, Setter.status])
    refine hi.move (hi.led.applyStatus pwm status true) (Led.displayedStatus_applyStatus _ _ _ _)
      ?_ ?_
    · rcases workOf status with _ | work
      · exact nofun
      · cases pwm.ok <;> exact nofun
    · rw [hshown]
      rcases workOf status with _ | work
      · exact nofun
      · cases pwm.ok
        · exact nofun
        · simp
  | reschedule work =>
    simp only [LedThreads.setterStep, hsetter] at h
    obtain rfl := Option.some.inj h
    exact .of_idle (hi.led.reschedule work) rfl

theorem Inv.handlerStep {last : LedStatus} {pwm : Pwm} (hi : Inv c last)
    (h : c.handlerStep pwm = some c') : Inv c' last := by
  cases hhandler : c.handler with
  | idle =>
    simp only [LedThreads.handlerStep, hhandler] at h
    cases h
  | started work =>
    simp only [LedThreads.handlerStep, hhandler] at h
    split at h
    · obtain rfl := Option.some.inj h
      exact .of_idle (hi.led.handle pwm work) ‹_›
    · obtain rfl := Option.some.inj h
      exact hi.move hi.led rfl (fun _ h => h) hi.rescheduling
  | busy work =>
    simp only [LedThreads.handlerStep, hhandler] at h
    obtain rfl := Option.some.inj h
    exact hi.move (hi.led.reschedule work) (Led.displayedStatus_reschedule _ _) (fun _ h => h)
      hi.rescheduling

theorem Inv.step (hi : Inv c (lastStable τ)) (h : c.step a = some c') :
    Inv c' (lastStable (τ ++ [a])) := by
  rw [lastStable_concat]
  cases a with
  | set status =>
    simp only [LedThreads.step] at h
    split at h
    · obtain rfl := Option.some.inj h
      refine ⟨hi.led.enterSet status, fun _ hs => ?_, nofun⟩
      obtain rfl := Option.some.inj hs
      exact Led.displayedStatus_enterSet _ _
    · cases h
  | setter pwm => exact hi.setterStep h
  | expire work =>
    simp only [LedThreads.step] at h
    split at h
    · obtain rfl := Option.some.inj h
      exact hi.move (hi.led.cancel work) (Led.displayedStatus_cancel _ _) (fun _ h => h)
        hi.rescheduling
    · cases h
  | handler pwm => exact hi.handlerStep h

/-! ## The work of the status on display -/

/-- While the mutex is free, the work that the status on display needs is pending. -/
def Working (c : LedThreads) : Prop :=
  c.setter = .idle → ∀ work, workOf c.led.displayedStatus = some work → c.pending work

theorem pending_iff {work : LedWork} : c.pending work ↔
    c.led.scheduled work ∨ c.handler = .started work ∨ c.handler = .busy work := by
  simp [pending, or_assoc]

theorem Working.setterStep {last : LedStatus} {pwm : Pwm} (hi : Inv c last)
    (ht : Tolerated c (.setter pwm)) (h : c.setterStep pwm = some c') : Working c' := by
  cases hsetter : c.setter with
  | idle =>
    simp only [LedThreads.setterStep, hsetter] at h
    cases h
  | cancel status =>
    simp only [LedThreads.setterStep, hsetter] at h
    split at h
    · obtain rfl := Option.some.inj h
      exact nofun
    split at h
    · obtain rfl := Option.some.inj h
      exact nofun
    · obtain rfl := Option.some.inj h
      exact nofun
  | cancelBlink status =>
    simp only [LedThreads.setterStep, hsetter] at h
    obtain rfl := Option.some.inj h
    exact nofun
  | apply status =>
    simp only [LedThreads.setterStep, hsetter] at h
    obtain rfl := Option.some.inj h
    intro hidle work hneeds
    rw [Led.displayedStatus_applyStatus, hi.setting status (by rw [hsetter, Setter.status])]
      at hneeds
    -- the call did not go on to `k_work_reschedule`
    have hfailed : pwm.ok = false := by
      simp only [hneeds] at hidle
      split at hidle
      · cases hidle
      · exact Bool.eq_false_iff.mpr ‹_›
    have hpending : c.pending work := by
      simpa [Tolerated, hsetter, hfailed, hneeds] using ht
    rw [pending_iff] at hpending ⊢
    rwa [Led.scheduled_applyStatus]
  | reschedule work =>
    simp only [LedThreads.setterStep, hsetter] at h
    obtain rfl := Option.some.inj h
    intro _ work' hwork'
    have hneeds := hi.rescheduling work hsetter
    rw [Led.displayedStatus_reschedule, hneeds] at hwork'
    obtain rfl := Option.some.inj hwork'
    exact pending_iff.mpr (.inl (by simp))

/-- A handler that gets the mutex schedules what the status on display needs, or
leaves it alone. -/
theorem Working.handle {last : LedStatus} {work : LedWork} {pwm : Pwm}
    (hled : c.led.Flashing last) (hw : Working c) (hidle : c.setter = .idle)
    (hhandler : c.handler = .started work) :
    Working { c with led := c.led.handle pwm work, handler := .idle } := by
  intro _ work' hwork'
  rw [pending_iff]
  refine .inl ?_
  have hbefore : workOf c.led.displayedStatus = some work' → work' ≠ work →
      c.led.scheduled work' := by
    intro hneeds hne
    have hpending := pending_iff.mp (hw hidle work' hneeds)
    rw [hhandler] at hpending
    obtain hscheduled | hstarted | hbusy := hpending
    · exact hscheduled
    · exact absurd (Handler.started.inj hstarted).symm hne
    · cases hbusy
  cases work with
  | blink =>
    obtain ⟨hblink, color, hc⟩ | ⟨hsolid, hc⟩ := c.led.blinkLocked_cases pwm
    · simp only [Led.handle, hc] at hwork' ⊢
      cases work' with
      | blink => rfl
      | transient => exact hbefore hwork' nofun
    · simp only [Led.handle, hc] at hwork' ⊢
      cases work' with
      | blink => exact absurd (workOf_eq_blink.mp hwork') hsolid
      | transient => exact hbefore hwork' nofun
  | transient =>
    obtain ⟨-, color, hc⟩ | ⟨-, -, color, hc⟩ | ⟨-, -, color, hc⟩ :=
      c.led.transientLocked_cases pwm
    · simp only [Led.handle, hc] at hwork' ⊢
      cases work' with
      | blink => exact hbefore hwork' nofun
      | transient => rfl
    · simp only [Led.handle, hc] at hwork' ⊢
      cases work' with
      | blink => exact hbefore hwork' nofun
      | transient => rfl
    · simp only [Led.handle, hc] at hwork' ⊢
      cases work' with
      | blink => simp [Led.scheduled, workOf_eq_blink.mp hwork']
      | transient =>
        have hflash := workOf_eq_transient.mp hwork'
        rw [hled.stable, hled.steady] at hflash
        cases hflash

theorem Working.handlerStep {last : LedStatus} {pwm : Pwm} (hi : Inv c last) (hw : Working c)
    (h : c.handlerStep pwm = some c') : Working c' := by
  cases hhandler : c.handler with
  | idle =>
    simp only [LedThreads.handlerStep, hhandler] at h
    cases h
  | started work =>
    simp only [LedThreads.handlerStep, hhandler] at h
    split at h
    · obtain rfl := Option.some.inj h
      exact hw.handle hi.led ‹_› hhandler
    · obtain rfl := Option.some.inj h
      exact fun hidle => absurd hidle ‹_›
  | busy work =>
    simp only [LedThreads.handlerStep, hhandler] at h
    obtain rfl := Option.some.inj h
    intro hidle work' hwork'
    rw [Led.displayedStatus_reschedule] at hwork'
    have hpending := pending_iff.mp (hw hidle work' hwork')
    rw [hhandler] at hpending
    rw [pending_iff]
    obtain hscheduled | hstarted | hbusy := hpending
    · exact .inl (by simp [hscheduled])
    · cases hstarted
    · exact .inl (by simp [Handler.busy.inj hbusy])

theorem Working.step {last : LedStatus} (hi : Inv c last) (hw : Working c) (ht : Tolerated c a)
    (h : c.step a = some c') : Working c' := by
  cases a with
  | set status =>
    simp only [LedThreads.step] at h
    split at h
    · obtain rfl := Option.some.inj h
      exact nofun
    · cases h
  | setter pwm => exact .setterStep hi ht h
  | expire work =>
    simp only [LedThreads.step] at h
    split at h
    · rename_i hexpired
      obtain rfl := Option.some.inj h
      intro hidle work' hwork'
      rw [Led.displayedStatus_cancel] at hwork'
      have hpending := pending_iff.mp (hw hidle work' hwork')
      rw [hexpired.1] at hpending
      rw [pending_iff]
      rcases eq_or_ne work' work with rfl | hne
      · exact .inr (.inl rfl)
      · refine .inl ?_
        simpa [hne] using hpending
    · cases h
  | handler pwm => exact hw.handlerStep hi h

/-! ## The end of a flash -/

/-- The steps of `transient_work_handler` until the flash is over, and one more
for the handler that has not run yet. -/
def Ending (n : ℕ) (c : LedThreads) (τ : List LedAction) : Prop :=
  ledStatusIsTransient c.led.displayedStatus →
    τ.count (.expire .transient) + 2 * c.led.transientBlinksLeft ≤
      n + (!c.led.transientOn).toNat + (c.handler = .started .transient : Bool).toNat

theorem Ending.step {n : ℕ} {last : LedStatus} (hled : c.led.Flashing last)
    (hidle : c.setter = .idle) (he : Ending n c τ) (ha : ∀ status, a ≠ .set status)
    (h : c.step a = some c') :
    c'.setter = .idle ∧ c'.led.Flashing last ∧ Ending n c' (τ ++ [a]) := by
  cases a with
  | set status => exact absurd rfl (ha status)
  | setter pwm =>
    simp only [LedThreads.step, LedThreads.setterStep, hidle] at h
    cases h
  | expire work =>
    simp only [LedThreads.step] at h
    split at h
    · rename_i hexpired
      obtain rfl := Option.some.inj h
      refine ⟨hidle, hled.cancel work, fun hflash => ?_⟩
      rw [Led.displayedStatus_cancel] at hflash
      have hn := he hflash
      rw [hexpired.1] at hn
      cases work with
      | blink => simpa [Led.cancel] using hn
      | transient =>
        simp [Led.cancel] at hn ⊢
        omega
    · cases h
  | handler pwm =>
    have hcount : (τ ++ [LedAction.handler pwm]).count (.expire .transient) =
        τ.count (.expire .transient) := by
      rw [List.count_append, List.count_singleton]
      rfl
    simp only [LedThreads.step] at h
    cases hhandler : c.handler with
    | idle =>
      simp only [LedThreads.handlerStep, hhandler] at h
      cases h
    | started work =>
      simp only [LedThreads.handlerStep, hhandler, if_pos hidle] at h
      obtain rfl := Option.some.inj h
      refine ⟨hidle, hled.handle pwm work, ?_⟩
      rw [Ending, hcount]
      rw [Ending, hhandler] at he
      cases work with
      | blink =>
        obtain ⟨-, color, hc⟩ | ⟨-, hc⟩ := c.led.blinkLocked_cases pwm
        · simpa [Led.handle, hc] using he
        · simpa [Led.handle, hc] using he
      | transient =>
        obtain ⟨hon, color, hc⟩ | ⟨hoff, hleft, color, hc⟩ | ⟨-, -, color, hc⟩ :=
          c.led.transientLocked_cases pwm
        · simpa [Led.handle, hc, hon] using he
        · simp only [Led.handle, hc]
          intro hflash
          have hn := he hflash
          simp [hoff] at hn ⊢
          omega
        · simp only [Led.handle, hc]
          intro hflash
          rw [hled.stable, hled.steady] at hflash
          cases hflash
    | busy work =>
      simp only [LedThreads.handlerStep, hhandler] at h
      obtain rfl := Option.some.inj h
      refine ⟨hidle, hled.reschedule work, ?_⟩
      rw [Ending, hcount]
      rw [Ending, hhandler] at he
      cases work with
      | blink => simpa [Led.reschedule] using he
      | transient => simpa [Led.reschedule] using he

/-- While nothing is set, each expiration of `transient_work` brings the end of
the flash nearer. -/
theorem returns {last : LedStatus} (hled : c.led.Flashing last) (hidle : c.setter = .idle)
    (hr : (ledThreads c).Run noCall c' τ) (hhandler : c'.handler = .idle)
    (hcount : 2 * c.led.transientBlinksLeft ≤ τ.count (.expire .transient)) :
    c'.led.displayedStatus = last := by
  obtain ⟨-, hled', hend⟩ : c'.setter = .idle ∧ c'.led.Flashing last ∧
      Ending (2 * c.led.transientBlinksLeft) c' τ := by
    refine hr.invariant (I := fun s τ => s.setter = .idle ∧ s.led.Flashing last ∧
      Ending (2 * c.led.transientBlinksLeft) s τ) ⟨hidle, hled, fun _ => ?_⟩
      fun s τ a s' es hs ha h => ?_
    · rw [List.count_nil]
      change 0 + 2 * c.led.transientBlinksLeft ≤ 2 * c.led.transientBlinksLeft + _ + _
      omega
    · obtain ⟨s', hstep, heq⟩ := Option.map_eq_some_iff.mp h
      obtain ⟨rfl, rfl⟩ := Prod.mk.inj heq
      exact Ending.step hs.2.1 hs.1 hs.2.2 ha hstep
  refine hled'.shows.resolve_right fun hflash => ?_
  have hn := hend hflash
  have hleft := hled'.left hflash
  have hone := Bool.toNat_le (!c'.led.transientOn)
  simp only [hhandler, reduceCtorEq, decide_false, Bool.toNat_false] at hn
  omega

/-! ## Every run -/

theorem Working.settled {last : LedStatus} (hi : Inv c last) (hw : Working c)
    (hidle : c.setter = .idle) : Settled c last where
  shows := by
    rw [hi.led.stable]
    exact hi.led.shows
  flash h := hw hidle .transient (workOf_eq_transient.mpr h)
  returns _ _ _ hr hhandler hcount := returns hi.led hidle hr hhandler hcount
  blinks h := hw hidle .blink (workOf_eq_blink.mpr h)

/-- A refused write is not tolerated by accident: without the work, the promise
is broken as soon as the mutex is free. -/
theorem tolerated_of_settled {last last' : LedStatus} (hi : Inv c last)
    (h : c.step a = some c') (hs : c'.setter = .idle → Settled c' last') : c.Tolerated a := by
  cases a with
  | setter pwm =>
    rw [Tolerated]
    split
    · rename_i status hsetter
      rcases hok : pwm.ok with _ | _
      · rcases hneeds : workOf status with _ | work
        · rfl
        simp only [LedThreads.step, LedThreads.setterStep, hsetter, hneeds, hok] at h
        have hc' := Option.some.inj h
        have hsettled := hs (by rw [← hc']; rfl)
        have hshown : workOf c'.led.displayedStatus = some work := by
          rw [← hc', Led.displayedStatus_applyStatus,
            hi.setting status (by rw [hsetter, Setter.status]), hneeds]
        have hpending : c'.pending work := by
          cases work with
          | blink => exact hsettled.blinks (workOf_eq_blink.mp hshown)
          | transient => exact hsettled.flash (workOf_eq_transient.mp hshown)
        rw [← hc', pending_iff, Led.scheduled_applyStatus] at hpending
        exact pending_iff.mpr hpending
      · rfl
    · rfl
  | set status => rfl
  | expire work => rfl
  | handler pwm => rfl

/-- `led_status_init`, then the threads. -/
def afterInit (pwm : Pwm) : System LedThreads LedAction LedAction :=
  ledThreads { led := Led.init pwm }

variable {pwm : Pwm}

theorem step_of_run {start s s' : LedThreads} {a : LedAction} {es : List LedAction}
    (h : (ledThreads start).step s a = some (s', es)) : s.step a = some s' ∧ es = [a] := by
  obtain ⟨s₁, hstep, heq⟩ := Option.map_eq_some_iff.mp h
  obtain ⟨rfl, rfl⟩ := Prod.mk.inj heq
  exact ⟨hstep, rfl⟩

theorem Inv.of_run {ok : LedThreads → List LedAction → LedAction → Prop}
    (hr : (afterInit pwm).Run ok c τ) : Inv c (lastStable τ) := by
  refine hr.invariant (I := fun c τ => Inv c (lastStable τ)) ?_ fun s τ a s' es hi _ h => ?_
  · have hzero : Led.Flashing {} .disconnected := ⟨rfl, rfl, .inl rfl, nofun⟩
    exact .of_idle (hzero.applyStatus pwm .disconnected true) rfl
  · obtain ⟨hstep, rfl⟩ := step_of_run h
    exact hi.step hstep

variable {ρ : List (Step LedThreads LedAction LedAction)}

theorem Working.of_run (hr : (afterInit pwm).record.Run anyStep c ρ)
    (ht : ∀ x ∈ ρ, x.before.Tolerated x.action) : Working c := by
  refine hr.invariant_with (J := fun c ρ => Inv c (lastStable (reports ρ)))
    (I := fun c ρ => (∀ x ∈ ρ, x.before.Tolerated x.action) → Working c)
    (fun hr => Inv.of_run hr.unrecord) (fun _ _ work hwork => ?_)
    (fun s ρ a s' xs hi hw _ h ht => ?_) ht
  · have hshown : (Led.init pwm).displayedStatus = .disconnected :=
      Led.displayedStatus_applyStatus _ _ _ _
    have hneeds : workOf (Led.init pwm).displayedStatus = some work := hwork
    rw [hshown] at hneeds
    cases hneeds
  · obtain ⟨es, hs, rfl⟩ := System.record_step h
    have hbefore := hw fun x hx => ht x (List.mem_append_left _ hx)
    exact hbefore.step hi (ht _ (List.mem_append_right _ List.mem_cons_self)) (step_of_run hs).1

/-- **A flash does not stick**, and a status does not stop blinking, exactly if
each write that the driver refuses `led_status_set` finds the work pending. -/
theorem settled_iff (hr : (afterInit pwm).record.Run anyStep c ρ) :
    (∀ ρ₁ c₁, ρ₁ <+: ρ → (afterInit pwm).record.Run anyStep c₁ ρ₁ → c₁.setter = .idle →
      Settled c₁ (lastStable (reports ρ₁))) ↔ ∀ x ∈ ρ, x.before.Tolerated x.action := by
  constructor
  · intro hsettled x hx
    obtain ⟨ρ₁, ρ₂, rfl⟩ := List.append_of_mem hx
    obtain ⟨hbefore, -, hstep, hafter⟩ := hr.split rfl
    exact tolerated_of_settled (Inv.of_run hbefore.unrecord) (step_of_run hstep).1
      (hsettled (ρ₁ ++ [x]) x.after ⟨ρ₂, by simp⟩ hafter)
  · rintro ht ρ₁ c₁ ⟨ρ₂, rfl⟩ hr₁ hidle
    have hworking := Working.of_run hr₁ fun x hx => ht x (List.mem_append_left _ hx)
    exact hworking.settled (Inv.of_run hr₁.unrecord) hidle

/-- A publish fails during the flash for another one, and the driver refuses to
show it. -/
def refusedFlash : List LedAction :=
  [.set .publishOk, .setter {}, .setter {}, .setter {}, .set .publishError, .setter {},
    .setter { green := false }]

theorem refusedFlash_replays :
    ((afterInit {}).record.replay anyStep (afterInit {}).start [] refusedFlash).isSome := by
  decide +kernel

theorem settled_refusedFlash :
    ∃ c ρ, (afterInit {}).record.Run anyStep c ρ ∧ c.led.displayedStatus = .publishError ∧
      Settled c (lastStable (reports ρ)) :=
  ⟨_, _, .of_isSome refusedFlash_replays, by decide +kernel,
    (settled_iff (.of_isSome refusedFlash_replays)).mpr (by decide +kernel) _ _ List.prefix_rfl
      (.of_isSome refusedFlash_replays) (by decide +kernel)⟩

/-! ## A flash that sticks -/

/-- Nothing moves any more before the next call. -/
theorem stuck (hsetter : c.setter = .idle) (hhandler : c.handler = .idle)
    (hwork : ∀ work, c.led.scheduled work = false) (hr : (ledThreads c).Run noCall c' τ) :
    c' = c := by
  refine hr.invariant_state (I := fun s => s = c) rfl fun s τ a s' es hs ha h => ?_
  obtain ⟨hstep, -⟩ := step_of_run h
  rw [hs] at hstep
  cases a with
  | set status => exact absurd rfl (ha status)
  | setter pwm =>
    simp only [LedThreads.step, LedThreads.setterStep, hsetter] at hstep
    cases hstep
  | expire work =>
    rw [LedThreads.step, if_neg (by simp [hwork])] at hstep
    cases hstep
  | handler pwm =>
    simp only [LedThreads.step, LedThreads.handlerStep, hhandler] at hstep
    cases hstep

/-- A publish succeeds, and the driver refuses to show it. -/
def stuckFlash : List LedAction := [.set .publishOk, .setter {}, .setter { red := false }]

theorem stuckFlash_replays :
    ((afterInit {}).replay anyStep (afterInit {}).start [] stuckFlash).isSome := by
  decide +kernel

theorem stuckFlash_not_settled :
    ¬∀ pwm c τ, (afterInit pwm).Run anyStep c τ → c.setter = .idle → Settled c (lastStable τ) := by
  intro h
  have hflash := (h {} _ _ (.of_isSome stuckFlash_replays) (by decide +kernel)).flash
    (by decide +kernel)
  exact absurd hflash (by decide +kernel)

end LedThreads

end Aitsm.Original
