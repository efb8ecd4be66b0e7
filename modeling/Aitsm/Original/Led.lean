import Mathlib.Data.List.Basic

/-!
# The status LED (`led_status.c`)

A stable status stays until the next one; a publish result only interrupts it
for a few blinks. Both handlers run on the system workqueue and give way when
`led_mutex` is taken (`busy`). The PWM driver may refuse a write (`Pwm`):
`set_color` then stops, which the handlers ignore.
-/

namespace Aitsm.Original

/-- `enum led_status`. -/
inductive LedStatus where
  | searching
  | lteConnected
  | mqttConnected
  | disconnected
  | error
  | publishOk
  | publishError
  deriving DecidableEq

/-- `struct led_color`. -/
structure LedColor where
  red : UInt8
  green : UInt8
  blue : UInt8
  deriving DecidableEq

/-- `enum led_pattern`. -/
inductive LedPattern where
  | solid
  | blink
  deriving DecidableEq

/-- `led_status_indication`. -/
def ledStatusIndication : LedStatus → LedColor × LedPattern
  | .searching => (⟨0, 0, 255⟩, .blink)
  | .lteConnected => (⟨0, 255, 0⟩, .solid)
  | .mqttConnected => (⟨0, 255, 255⟩, .solid)
  | .disconnected => (⟨255, 0, 0⟩, .solid)
  | .error => (⟨255, 0, 0⟩, .solid)
  | .publishOk => (⟨255, 255, 255⟩, .solid)
  | .publishError => (⟨255, 0, 0⟩, .solid)

/-- `led_status_is_transient`. -/
def ledStatusIsTransient (status : LedStatus) : Bool :=
  status = .publishOk || status = .publishError

/-- `LED_STATUS_TRANSIENT_BLINKS`. -/
def transientBlinks : ℕ := 5

/-- The module's variables, the color shown, and whether its two works are scheduled. -/
structure Led where
  stableStatus : LedStatus := .disconnected
  displayedStatus : LedStatus := .disconnected
  blinkVisible : Bool := false
  transientOn : Bool := false
  transientBlinksLeft : ℕ := 0
  blinkWork : Bool := false
  transientWork : Bool := false
  color : LedColor := ⟨0, 0, 0⟩

/-- Which of the three writes of `set_color` the PWM driver takes. -/
structure Pwm where
  red : Bool := true
  green : Bool := true
  blue : Bool := true
  deriving DecidableEq

/-- `set_color` returns 0. -/
def Pwm.ok (pwm : Pwm) : Bool := pwm.red && pwm.green && pwm.blue

namespace Led

/-- `set_color`: the first write that is refused is the last. -/
def setColor (led : Led) (pwm : Pwm) (color : LedColor) : Led :=
  if !pwm.red then led
  else if !pwm.green then { led with color := { led.color with red := color.red } }
  else if !pwm.blue then { led with color := { color with blue := led.color.blue } }
  else { led with color := color }

/-- `apply_status`. -/
def applyStatus (led : Led) (pwm : Pwm) (status : LedStatus) (visible : Bool) : Led :=
  let indication := ledStatusIndication status
  if indication.2 = .blink ∧ !visible then led.setColor pwm ⟨0, 0, 0⟩
  else led.setColor pwm indication.1

/-- `led_status_set`. -/
def set (led : Led) (pwm : Pwm) (status : LedStatus) : Led :=
  if ledStatusIsTransient status then
    let led := { led with
      displayedStatus := status, blinkVisible := false, transientOn := true
      transientBlinksLeft := transientBlinks, blinkWork := false }.applyStatus pwm status true
    { led with transientWork := led.transientWork || pwm.ok }
  else
    let led := { led with
      stableStatus := status, displayedStatus := status, transientWork := false }
    if (ledStatusIndication status).2 = .blink then
      let led := { led with blinkVisible := true }.applyStatus pwm status true
      { led with blinkWork := led.blinkWork || pwm.ok }
    else { led with blinkVisible := false, blinkWork := false }.applyStatus pwm status true

/-- `led_status_init`. -/
def init (pwm : Pwm) : Led := applyStatus {} pwm .disconnected true

/-- `blink_work_handler` once it has the mutex. -/
def blinkLocked (led : Led) (pwm : Pwm) : Led :=
  if (ledStatusIndication led.displayedStatus).2 = .blink then
    { { led with blinkVisible := !led.blinkVisible }.applyStatus pwm led.displayedStatus
        !led.blinkVisible with blinkWork := true }
  else { led with blinkVisible := false }

/-- `blink_work_handler`. -/
def blink (led : Led) (busy : Bool) (pwm : Pwm) : Led :=
  let led := { led with blinkWork := false }
  if busy then { led with blinkWork := true } else led.blinkLocked pwm

/-- `restore_stable`. -/
def restoreStable (led : Led) (pwm : Pwm) : Led :=
  let visible : Bool := (ledStatusIndication led.stableStatus).2 = .blink
  let led := { led with
    displayedStatus := led.stableStatus
    blinkVisible := visible }.applyStatus pwm led.stableStatus visible
  if visible then { led with blinkWork := true } else led

/-- `transient_work_handler` once it has the mutex. -/
def transientLocked (led : Led) (pwm : Pwm) : Led :=
  if led.transientOn then
    { { led with transientOn := false }.setColor pwm ⟨0, 0, 0⟩ with transientWork := true }
  else if 1 < led.transientBlinksLeft then
    { { led with
        transientBlinksLeft := led.transientBlinksLeft - 1
        transientOn := true }.applyStatus pwm led.displayedStatus true with transientWork := true }
  else { led with transientBlinksLeft := 0, transientOn := false }.restoreStable pwm

/-- `transient_work_handler`. -/
def transient (led : Led) (busy : Bool) (pwm : Pwm) : Led :=
  let led := { led with transientWork := false }
  if busy then { led with transientWork := true } else led.transientLocked pwm

/-! ## What each function changes -/

theorem setColor_eq (led : Led) (pwm : Pwm) (color : LedColor) :
    ∃ c, led.setColor pwm color = { led with color := c } := by
  unfold setColor
  split
  · exact ⟨led.color, rfl⟩
  split
  · exact ⟨_, rfl⟩
  split
  · exact ⟨_, rfl⟩
  · exact ⟨_, rfl⟩

theorem applyStatus_eq (led : Led) (pwm : Pwm) (status : LedStatus) (visible : Bool) :
    ∃ c, led.applyStatus pwm status visible = { led with color := c } := by
  unfold applyStatus
  dsimp only
  split
  · exact led.setColor_eq pwm _
  · exact led.setColor_eq pwm _

theorem blinkLocked_cases (led : Led) (pwm : Pwm) :
    ((ledStatusIndication led.displayedStatus).2 = .blink ∧
      ∃ c, led.blinkLocked pwm =
        { led with blinkVisible := !led.blinkVisible, color := c, blinkWork := true }) ∨
    ((ledStatusIndication led.displayedStatus).2 ≠ .blink ∧
      led.blinkLocked pwm = { led with blinkVisible := false }) := by
  unfold blinkLocked
  split
  · rename_i hblink
    obtain ⟨c, hc⟩ := applyStatus_eq { led with blinkVisible := !led.blinkVisible } pwm
      led.displayedStatus !led.blinkVisible
    exact .inl ⟨hblink, c, by rw [hc]⟩
  · exact .inr ⟨‹_›, rfl⟩

theorem restoreStable_eq (led : Led) (pwm : Pwm) :
    ∃ c, led.restoreStable pwm =
      { led with
        displayedStatus := led.stableStatus
        blinkVisible := (ledStatusIndication led.stableStatus).2 = .blink
        blinkWork := led.blinkWork || (ledStatusIndication led.stableStatus).2 = .blink
        color := c } := by
  unfold restoreStable
  obtain ⟨c, hc⟩ := applyStatus_eq { led with
    displayedStatus := led.stableStatus
    blinkVisible := (ledStatusIndication led.stableStatus).2 = .blink } pwm led.stableStatus
      ((ledStatusIndication led.stableStatus).2 = .blink)
  refine ⟨c, ?_⟩
  dsimp only
  rw [hc]
  by_cases hblink : (ledStatusIndication led.stableStatus).2 = .blink
  · simp [hblink]
  · simp [hblink]

theorem transientLocked_cases (led : Led) (pwm : Pwm) :
    (led.transientOn ∧ ∃ c, led.transientLocked pwm =
      { led with transientOn := false, color := c, transientWork := true }) ∨
    (led.transientOn = false ∧ 1 < led.transientBlinksLeft ∧ ∃ c, led.transientLocked pwm =
      { led with
        transientBlinksLeft := led.transientBlinksLeft - 1
        transientOn := true
        color := c
        transientWork := true }) ∨
    (led.transientOn = false ∧ led.transientBlinksLeft ≤ 1 ∧ ∃ c, led.transientLocked pwm =
      { led with
        transientBlinksLeft := 0
        transientOn := false
        displayedStatus := led.stableStatus
        blinkVisible := (ledStatusIndication led.stableStatus).2 = .blink
        blinkWork := led.blinkWork || (ledStatusIndication led.stableStatus).2 = .blink
        color := c }) := by
  unfold transientLocked
  split
  · rename_i hon
    obtain ⟨c, hc⟩ := setColor_eq { led with transientOn := false } pwm ⟨0, 0, 0⟩
    exact .inl ⟨hon, c, by rw [hc]⟩
  rename_i hoff
  rw [Bool.not_eq_true] at hoff
  split
  · rename_i hleft
    obtain ⟨c, hc⟩ := applyStatus_eq { led with
      transientBlinksLeft := led.transientBlinksLeft - 1, transientOn := true } pwm
      led.displayedStatus true
    exact .inr (.inl ⟨hoff, hleft, c, by rw [hc]⟩)
  · rename_i hleft
    obtain ⟨c, hc⟩ := restoreStable_eq { led with
      transientBlinksLeft := 0, transientOn := false } pwm
    exact .inr (.inr ⟨hoff, Nat.le_of_not_lt hleft, c, by rw [hc]⟩)

/-! ## What changes the stable status -/

@[simp] theorem applyStatus_stableStatus (led : Led) (pwm : Pwm) (status : LedStatus)
    (visible : Bool) : (led.applyStatus pwm status visible).stableStatus = led.stableStatus := by
  obtain ⟨c, hc⟩ := led.applyStatus_eq pwm status visible
  rw [hc]

/-- A publish result does not change the stable status; everything else becomes it. -/
@[simp] theorem set_stableStatus (led : Led) (pwm : Pwm) (status : LedStatus) :
    (led.set pwm status).stableStatus =
      if ledStatusIsTransient status then led.stableStatus else status := by
  unfold set
  split
  · simp
  · dsimp only
    split <;> simp

@[simp] theorem blink_stableStatus (led : Led) (busy : Bool) (pwm : Pwm) :
    (led.blink busy pwm).stableStatus = led.stableStatus := by
  unfold blink
  dsimp only
  split
  · rfl
  obtain ⟨-, c, hc⟩ | ⟨-, hc⟩ := blinkLocked_cases { led with blinkWork := false } pwm
  · rw [hc]
  · rw [hc]

@[simp] theorem transient_stableStatus (led : Led) (busy : Bool) (pwm : Pwm) :
    (led.transient busy pwm).stableStatus = led.stableStatus := by
  unfold transient
  dsimp only
  split
  · rfl
  obtain ⟨-, c, hc⟩ | ⟨-, -, c, hc⟩ | ⟨-, -, c, hc⟩ :=
    transientLocked_cases { led with transientWork := false } pwm
  · rw [hc]
  · rw [hc]
  · rw [hc]

end Led

end Aitsm.Original
