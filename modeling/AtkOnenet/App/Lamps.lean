import AtkOnenet.App.Mqtt

/-!
# The lamp buttons (`GUI_APP/lv_test_theme_1.c`)

The level of a lamp is kept in three places: the pin, the flag of the button, and the variable of
the MQTT module. A click writes the inverted flag to the pin (`eventHandler`), a command writes the
variable to it and leaves the flag alone.

`clicks_good_iff`: in every run of clicks and commands from `main`, all clicks are good
(`ClickGood`) exactly if at each click the flag of the button is the level of its pin. The reported
status is always that of the pin after the click. The flag of the third button starts as true, with
its pin low.
-/

namespace AtkOnenet

open Run

inductive Btn where
  | btn1
  | btn2
  | btn3
  deriving DecidableEq, Repr

def Btn.pin : Btn → Pin
  | btn1 => .led0
  | btn2 => .led1
  | btn3 => .crtl

/-- The name of the data stream. -/
def Btn.stream : Btn → String
  | btn1 => "LED1_status"
  | btn2 => "LED2_status"
  | btn3 => "CTRL_status"

/-- The pins and the variables of `MQTT_APP.c`, and `led1_flag`, `led2_flag` and `led3_flag`. -/
structure Lamps where
  mqtt : Mqtt
  flag : Btn → Bool

/-- What a click does to the outside. -/
inductive ClickEffect where
  | pinWrite (pin : Pin) (level : Bool)
  /-- `onenet_mqtt_upload_digit`. -/
  | upload (stream : String) (value : Int)
  | printError (text : String)
  | printBuffer (stream : String) (value : Int)
  deriving DecidableEq

/-- A condition as a number. -/
def intOf (b : Bool) : Int := if b then 1 else 0

/-- `event_handler` for `LV_EVENT_CLICKED`; `uploaded`: the upload gives `RT_EOK`. -/
def eventHandler (obj : Btn) (uploaded : Bool) (s : Lamps) : List ClickEffect × Lamps :=
  let flag := !s.flag obj
  let status := intOf (!flag)
  ([.pinWrite obj.pin flag, .upload obj.stream status,
    if uploaded then .printBuffer obj.stream status
    else .printError "upload has an error, stop uploading"],
    ⟨s.mqtt.pinWrite obj.pin flag, Function.update s.flag obj flag⟩)

/-- The levels that `main` leaves, with the flags and variables as they are declared. -/
def Lamps.start : Lamps where
  mqtt := ⟨fun | .led0 | .led1 => pinHigh | .crtl => pinLow, 0, 0⟩
  flag _ := true

inductive LampEvent where
  | click (obj : Btn) (uploaded : Bool)
  | command (payload : List UInt8)

variable {cJsonParse : List UInt8 → Option CJson} {s : Lamps}

/-- A click or a command. Where the callback of a command does not complete, nothing changes. -/
def Lamps.step (cJsonParse : List UInt8 → Option CJson) (s : Lamps) : LampEvent → Lamps
  | .click obj uploaded => (eventHandler obj uploaded s).2
  | .command payload =>
    { s with mqtt := ((mqttSubCallback cJsonParse payload s.mqtt).map (·.2)).getD s.mqtt }

/-- The values that are uploaded. -/
def ClickEffect.uploads (effects : List ClickEffect) : List Int :=
  effects.filterMap fun
    | .upload _ value => some value
    | _ => none

/-- The click inverts the level of the pin, and uploads 1 exactly if the pin is low then. -/
def ClickGood (obj : Btn) (uploaded : Bool) (s : Lamps) : Prop :=
  let (effects, s') := eventHandler obj uploaded s
  s'.mqtt.pin obj.pin = !s.mqtt.pin obj.pin ∧
    ∃ value, ClickEffect.uploads effects = [value] ∧ (value = 1 ↔ s'.mqtt.pin obj.pin = pinLow)

/-- The event, if it is a click, is a good one. -/
def Lamps.EventGood (s : Lamps) : LampEvent → Prop
  | .click obj uploaded => ClickGood obj uploaded s
  | .command _ => True

/-- The event, if it is a click, is on a button whose flag is the level of its pin. -/
def Lamps.FlagAgrees (s : Lamps) : LampEvent → Prop
  | .click obj _ => s.flag obj = s.mqtt.pin obj.pin
  | .command _ => True

/-- A click writes the inverted flag to the pin, and uploads the flag from before. -/
theorem click_pin (obj : Btn) (uploaded : Bool) (s : Lamps) :
    (eventHandler obj uploaded s).2.mqtt.pin obj.pin = !s.flag obj ∧
      ClickEffect.uploads (eventHandler obj uploaded s).1 = [intOf (s.flag obj)] := by
  refine ⟨Function.update_self .., ?_⟩
  cases uploaded <;> simp [eventHandler, ClickEffect.uploads]

theorem clickGood_iff (obj : Btn) (uploaded : Bool) (s : Lamps) :
    ClickGood obj uploaded s ↔ s.flag obj = s.mqtt.pin obj.pin := by
  obtain ⟨hpin, hupload⟩ := click_pin obj uploaded s
  unfold ClickGood
  simp only [hpin, hupload, Bool.not_inj_iff]
  refine and_iff_left ⟨_, rfl, ?_⟩
  cases s.flag obj <;> simp [intOf, pinLow]

/-- **Lamp buttons.** In a run of clicks and commands from `main`, every click is good exactly if at
every click the flag of the button is the level of its pin. -/
theorem clicks_good_iff (cJsonParse : List UInt8 → Option CJson) (events : List LampEvent) :
    Along (Lamps.step cJsonParse) Lamps.EventGood .start events ↔
      Along (Lamps.step cJsonParse) Lamps.FlagAgrees .start events := by
  refine along_congr ?_ _ _
  intro s ev
  cases ev with
  | click obj uploaded => exact clickGood_iff obj uploaded s
  | command => exact Iff.rfl

/-- A click keeps the flags of the other buttons and the levels of their pins. -/
theorem click_agrees {obj btn : Btn} (uploaded : Bool) (h : s.flag btn = s.mqtt.pin btn.pin) :
    (eventHandler obj uploaded s).2.flag btn =
      (eventHandler obj uploaded s).2.mqtt.pin btn.pin := by
  have hpin : btn.pin = obj.pin ↔ btn = obj := by cases btn <;> cases obj <;> decide
  simp only [eventHandler, Mqtt.pinWrite, Function.update_apply, hpin]
  split
  · rfl
  · exact h

/-- Without commands, the first two buttons are always good. -/
theorem clicks_alone_good (cJsonParse : List UInt8 → Option CJson) (clicks : List (Btn × Bool))
    (hbtn : ∀ click ∈ clicks, click.1 ≠ .btn3) :
    Along (Lamps.step cJsonParse) Lamps.EventGood .start
      (clicks.map fun click => .click click.1 click.2) := by
  have hrun : ∀ s : Lamps, (∀ btn ≠ .btn3, s.flag btn = s.mqtt.pin btn.pin) →
      Along (Lamps.step cJsonParse) Lamps.EventGood s
        (clicks.map fun click => .click click.1 click.2) := by
    induction clicks with
    | nil =>
      intro _ _
      trivial
    | cons click clicks ih =>
      intro s hs
      obtain ⟨hobj, hrest⟩ := List.forall_mem_cons.mp hbtn
      refine ⟨(clickGood_iff _ _ s).mpr (hs _ hobj), ih hrest _ ?_⟩
      intro btn h
      exact click_agrees _ (hs btn h)
  exact hrun _ fun btn h => by cases btn <;> simp_all [Lamps.start, Btn.pin, pinHigh]

/-- The first click on the third button writes the level that its pin has. -/
theorem first_click_btn3 :
    Lamps.start.mqtt.pin .crtl = pinLow ∧
      (eventHandler .btn3 true .start).2.mqtt.pin .crtl = pinLow ∧
      ¬ Along (Lamps.step fun _ => none) Lamps.EventGood .start [.click .btn3 true] :=
  ⟨rfl, rfl, fun h => absurd h.1.1 (by decide)⟩

/-- A command lights the first lamp; a click on its button leaves it on. -/
example : (Lamps.step (fun _ => some (.mk .object 0 none [.mk .number 1 (some led1Key) [],
    .mk .number 0 (some led2Key) []])) .start (.command [])).mqtt.pin .led0 = pinLow ∧
      ((eventHandler .btn1 true (Lamps.step (fun _ => some (.mk .object 0 none
        [.mk .number 1 (some led1Key) [], .mk .number 0 (some led2Key) []])) .start
        (.command []))).2.mqtt.pin .led0 = pinLow) := by
  decide

end AtkOnenet
