import AtkOnenet.Lib.Run
import Mathlib.Logic.Function.Basic

/-!
# Lamp commands over MQTT (`applications/MQTT_APP.c`)

`mqttSubCallback` is the callback of the subscribed topic, on the two static variables of the module
and the levels of the output pins. The parser of the JSON package is an argument: a function from
the payload to the parsed tree. The search for a member is that of the package
(`cJsonGetObjectItem`).

`payloads_handled_iff`: in every run from start-up, every payload is handled as it should be
(`Handled`) exactly if every document has both members, and no number in them but 1 has the low byte
1. The callback reads the type of a member before it knows that there is one, and keeps the number
in eight bits.
-/

namespace AtkOnenet

open Run

/-! ## The JSON package (`packages/cJSON-v1.0.2`) -/

inductive CJsonType where
  | false
  | true
  | null
  | number
  | string
  | array
  | object
  deriving DecidableEq, Repr

/-- `cJSON`: an item, with its name in the object around it. `child` is the chain of the items in an
array or an object. -/
inductive CJson where
  | mk (type : CJsonType) (valueint : Int32) (string : Option (List UInt8)) (child : List CJson)

namespace CJson

def type : CJson → CJsonType
  | mk type _ _ _ => type

def valueint : CJson → Int32
  | mk _ valueint _ _ => valueint

def string : CJson → Option (List UInt8)
  | mk _ _ string _ => string

def child : CJson → List CJson
  | mk _ _ _ child => child

end CJson

/-- `tolower` of an ASCII character. -/
def toLower (ch : UInt8) : UInt8 := if 0x41 ≤ ch ∧ ch ≤ 0x5A then ch + 0x20 else ch

/-- The loop of `cJSON_strcasecmp`, over the characters in front of the NUL. -/
def strcasecmpLoop : List UInt8 → List UInt8 → Int
  | [], [] => 0
  | [], b :: _ => -(toLower b).toNat
  | a :: _, [] => (toLower a).toNat
  | a :: as, b :: bs =>
    if toLower a = toLower b then strcasecmpLoop as bs
    else (toLower a).toNat - (toLower b).toNat

/-- `cJSON_strcasecmp`, where the first string may be missing. -/
def cJsonStrcasecmp (s1 : Option (List UInt8)) (s2 : List UInt8) : Int :=
  match s1 with
  | none => 1
  | some s1 => strcasecmpLoop s1 s2

/-- `cJSON_GetObjectItem`. -/
def cJsonGetObjectItem (object : CJson) (string : List UInt8) : Option CJson :=
  object.child.find? fun c => cJsonStrcasecmp c.string string = 0

/-! ## The callback -/

/-- The output pins of the lamps: `LED0_PIN`, `LED1_PIN` and `CRTL_PIN`. -/
inductive Pin where
  | led0
  | led1
  | crtl
  deriving DecidableEq, Repr

def pinLow : Bool := false
def pinHigh : Bool := true

/-- The levels of the pins, and the static variables of `MQTT_APP.c`. -/
structure Mqtt where
  pin : Pin → Bool
  led1 : UInt8
  led2 : UInt8

/-- What the callback does to the outside. -/
inductive Effect where
  /-- `rt_kprintf` of the payload. -/
  | printPayload (payload : List UInt8)
  | print (text : String)
  | pinWrite (pin : Pin) (level : Bool)
  /-- `cJSON_Delete`, of nothing where the tree is missing. -/
  | delete (root : Option CJson)

/-- `"led1"` and `"led2"`. -/
def led1Key : List UInt8 := [0x6C, 0x65, 0x64, 0x31]
def led2Key : List UInt8 := [0x6C, 0x65, 0x64, 0x32]

/-- The conversion of an `int` to `uint8_t`. -/
def byteOf (v : Int32) : UInt8 := UInt8.ofInt v.toInt

def Mqtt.pinWrite (m : Mqtt) (pin : Pin) (level : Bool) : Mqtt :=
  { m with pin := Function.update m.pin pin level }

/-- `mqtt_sub_callback`. `none`: it reads a field through a null item. -/
def mqttSubCallback (cJsonParse : List UInt8 → Option CJson) (payload : List UInt8) (m : Mqtt) :
    Option (List Effect × Mqtt) :=
  match cJsonParse payload with
  | none => some ([.printPayload payload, .print "No memory for cJSON root!\n", .delete none], m)
  | some root => do
    let object ← cJsonGetObjectItem root led1Key
    let m := if object.type = .number then { m with led1 := byteOf object.valueint } else m
    let object ← cJsonGetObjectItem root led2Key
    let m := if object.type = .number then { m with led2 := byteOf object.valueint } else m
    let level1 := if m.led1 = 1 then pinLow else pinHigh
    let level2 := if m.led2 = 1 then pinLow else pinHigh
    let m := (m.pinWrite .led0 level1).pinWrite .led1 level2
    some ([.printPayload payload, .pinWrite .led0 level1, .pinWrite .led1 level2,
      .delete (some root)], m)

/-! ## Runs -/

/-- The number of the member, if there is one of that name. -/
def numberOf (root : CJson) (key : List UInt8) : Option Int32 :=
  (cJsonGetObjectItem root key).bind fun c => if c.type = .number then some c.valueint else none

/-- The module with the numbers received last for each lamp. -/
structure MqttRun where
  mqtt : Mqtt
  last1 : Option Int32
  last2 : Option Int32

variable {cJsonParse : List UInt8 → Option CJson}

/-- A payload comes in. Where the callback does not complete, the module is left as it was. -/
def MqttRun.step (cJsonParse : List UInt8 → Option CJson) (s : MqttRun) (payload : List UInt8) :
    MqttRun where
  mqtt := ((mqttSubCallback cJsonParse payload s.mqtt).map (·.2)).getD s.mqtt
  last1 := ((cJsonParse payload).bind (numberOf · led1Key)).or s.last1
  last2 := ((cJsonParse payload).bind (numberOf · led2Key)).or s.last2

/-- Start-up, with any levels of the pins. -/
def MqttRun.start (pin : Pin → Bool) : MqttRun := ⟨⟨pin, 0, 0⟩, none, none⟩

def Effect.pinWrites (effects : List Effect) : List (Pin × Bool) :=
  effects.filterMap fun
    | .pinWrite pin level => some (pin, level)
    | _ => none

/-- The trees that are deleted. -/
def Effect.deleted (effects : List Effect) : List CJson :=
  effects.filterMap fun
    | .delete root => root
    | _ => none

/-- The callback handles a payload: it completes, and does nothing on a parse failure. Otherwise a
lamp without a number keeps its variable, each pin is low exactly if the last number received for
its lamp is 1, and the tree is deleted once. -/
def Handled (cJsonParse : List UInt8 → Option CJson) (s : MqttRun) (payload : List UInt8) : Prop :=
  ∃ effects m, mqttSubCallback cJsonParse payload s.mqtt = some (effects, m) ∧
    match cJsonParse payload with
    | none => m = s.mqtt ∧ Effect.pinWrites effects = [] ∧ Effect.deleted effects = []
    | some root =>
      (numberOf root led1Key = none → m.led1 = s.mqtt.led1) ∧
      (numberOf root led2Key = none → m.led2 = s.mqtt.led2) ∧
      (m.pin .led0 = pinLow ↔ (s.step cJsonParse payload).last1 = some 1) ∧
      (m.pin .led1 = pinLow ↔ (s.step cJsonParse payload).last2 = some 1) ∧
      Effect.deleted effects = [root]

/-- The member is there, and if it is a number with the low byte 1, the number is 1. -/
def GoodMember (root : CJson) (key : List UInt8) : Prop :=
  (cJsonGetObjectItem root key).isSome ∧
    ∀ v, numberOf root key = some v → v.toInt % 256 = 1 → v = 1

/-- Both members of the document, if it is one, are good. -/
def GoodPayload (cJsonParse : List UInt8 → Option CJson) (payload : List UInt8) : Prop :=
  ∀ root, cJsonParse payload = some root → GoodMember root led1Key ∧ GoodMember root led2Key

/-! ## One payload -/

theorem byteOf_eq_one_iff (v : Int32) : byteOf v = 1 ↔ v.toInt % 256 = 1 := by
  have h : (byteOf v).toNat = (v.toInt % 256).toNat := by
    rw [byteOf, UInt8.ofInt]
    exact UInt8.toNat_ofNat_of_lt' (by simp [UInt8.size]; omega)
  rw [← UInt8.toNat_inj, h]
  simp
  omega

/-- A variable after a number for it has come in, or not. -/
def keep (old : UInt8) (n : Option Int32) : UInt8 := (n.map byteOf).getD old

/-- The variable goes on telling whether the last number is 1, exactly if the low byte of the number
tells it. -/
theorem keep_iff {old : UInt8} {last : Option Int32} (h : old = 1 ↔ last = some 1)
    (n : Option Int32) : (keep old n = 1 ↔ n.or last = some 1) ↔
      ∀ v, n = some v → v.toInt % 256 = 1 → v = 1 := by
  cases n with
  | none => simpa [keep] using h
  | some v =>
    have hone : v = 1 → v.toInt % 256 = 1 := by
      rintro rfl
      decide
    simp only [keep, Option.map_some, Option.getD_some, Option.some_or, Option.some.injEq,
      byteOf_eq_one_iff, forall_eq']
    constructor
    · intro h
      exact h.mp
    · intro h
      exact ⟨h, hone⟩

variable {payload : List UInt8} {root i₁ i₂ : CJson}

theorem callback_fault (hroot : cJsonParse payload = some root)
    (h : cJsonGetObjectItem root led1Key = none ∨ cJsonGetObjectItem root led2Key = none)
    (m : Mqtt) : mqttSubCallback cJsonParse payload m = none := by
  simp only [mqttSubCallback, hroot]
  rcases h with h | h
  · rw [h]
    rfl
  · rw [h]
    cases cJsonGetObjectItem root led1Key <;> rfl

/-- The level of a lamp's pin. -/
def lampLevel (led : UInt8) : Bool := if led = 1 then pinLow else pinHigh

theorem lampLevel_eq_low (led : UInt8) : lampLevel led = pinLow ↔ led = 1 := by
  unfold lampLevel
  split <;> simp_all [pinLow, pinHigh]

theorem callback_members (hroot : cJsonParse payload = some root)
    (h₁ : cJsonGetObjectItem root led1Key = some i₁)
    (h₂ : cJsonGetObjectItem root led2Key = some i₂) (m : Mqtt) :
    let v₁ := keep m.led1 (numberOf root led1Key)
    let v₂ := keep m.led2 (numberOf root led2Key)
    mqttSubCallback cJsonParse payload m = some ([.printPayload payload,
      .pinWrite .led0 (lampLevel v₁), .pinWrite .led1 (lampLevel v₂), .delete (some root)],
      ((⟨m.pin, v₁, v₂⟩ : Mqtt).pinWrite .led0 (lampLevel v₁)).pinWrite .led1 (lampLevel v₂)) := by
  simp only [mqttSubCallback, hroot, h₁, h₂, numberOf, Option.bind_some, Option.bind_eq_bind]
  by_cases t₁ : i₁.type = .number <;> by_cases t₂ : i₂.type = .number <;>
    simp only [t₁, t₂, if_true, if_false, keep, Option.map_some, Option.map_none, Option.getD_some,
      Option.getD_none, lampLevel, Mqtt.pinWrite]

/-- The variables tell whether the last numbers are 1. -/
def MqttRun.Inv (s : MqttRun) : Prop :=
  (s.mqtt.led1 = 1 ↔ s.last1 = some 1) ∧ (s.mqtt.led2 = 1 ↔ s.last2 = some 1)

/-- What a payload without a document does: nothing. -/
theorem step_no_root (hroot : cJsonParse payload = none) (s : MqttRun) :
    s.step cJsonParse payload = s := by
  simp [MqttRun.step, mqttSubCallback, hroot]

/-- What a document with both members does. -/
theorem step_members (hroot : cJsonParse payload = some root)
    (h₁ : cJsonGetObjectItem root led1Key = some i₁)
    (h₂ : cJsonGetObjectItem root led2Key = some i₂) (s : MqttRun) :
    (s.step cJsonParse payload).mqtt.led1 = keep s.mqtt.led1 (numberOf root led1Key) ∧
      (s.step cJsonParse payload).mqtt.led2 = keep s.mqtt.led2 (numberOf root led2Key) ∧
      (s.step cJsonParse payload).last1 = (numberOf root led1Key).or s.last1 ∧
      (s.step cJsonParse payload).last2 = (numberOf root led2Key).or s.last2 := by
  simp [MqttRun.step, callback_members hroot h₁ h₂, hroot, Mqtt.pinWrite]

theorem handled_of_members {s : MqttRun} (hroot : cJsonParse payload = some root)
    (h₁ : cJsonGetObjectItem root led1Key = some i₁)
    (h₂ : cJsonGetObjectItem root led2Key = some i₂) :
    Handled cJsonParse s payload ↔
      (keep s.mqtt.led1 (numberOf root led1Key) = 1 ↔
        (numberOf root led1Key).or s.last1 = some 1) ∧
      (keep s.mqtt.led2 (numberOf root led2Key) = 1 ↔
        (numberOf root led2Key).or s.last2 = some 1) := by
  obtain ⟨-, -, hlast₁, hlast₂⟩ := step_members hroot h₁ h₂ s
  have hrun := callback_members hroot h₁ h₂ s.mqtt
  unfold Handled
  simp only [hrun, hroot, hlast₁, hlast₂]
  constructor
  · rintro ⟨effects, m, heq, -, -, hp₁, hp₂, -⟩
    simp only [Option.some.injEq, Prod.mk.injEq] at heq
    obtain ⟨rfl, rfl⟩ := heq
    rw [← lampLevel_eq_low, ← lampLevel_eq_low]
    exact ⟨hp₁, hp₂⟩
  · rintro ⟨hp₁, hp₂⟩
    rw [← lampLevel_eq_low] at hp₁ hp₂
    refine ⟨_, _, rfl, ?_, ?_, hp₁, hp₂, rfl⟩
    · intro h
      rw [h]
      rfl
    · intro h
      rw [h]
      rfl

/-- A payload is handled exactly if it is good. -/
theorem handled_iff {s : MqttRun} (hs : s.Inv) (payload : List UInt8) :
    Handled cJsonParse s payload ↔ GoodPayload cJsonParse payload := by
  cases hroot : cJsonParse payload with
  | none =>
    refine iff_of_true ?_ fun root h => by rw [hroot] at h; cases h
    exact ⟨_, _, by rw [mqttSubCallback, hroot], by rw [hroot]; exact ⟨rfl, rfl, rfl⟩⟩
  | some root =>
    have hgood : GoodPayload cJsonParse payload ↔
        GoodMember root led1Key ∧ GoodMember root led2Key := by
      simp [GoodPayload, hroot]
    rw [hgood]
    by_cases hmem : (cJsonGetObjectItem root led1Key).isSome ∧
        (cJsonGetObjectItem root led2Key).isSome
    · obtain ⟨i₁, h₁⟩ := Option.isSome_iff_exists.mp hmem.1
      obtain ⟨i₂, h₂⟩ := Option.isSome_iff_exists.mp hmem.2
      rw [handled_of_members hroot h₁ h₂, keep_iff hs.1, keep_iff hs.2]
      exact and_congr (and_iff_right hmem.1).symm (and_iff_right hmem.2).symm
    · -- The callback reads the type of the missing member.
      refine iff_of_false ?_ fun h => hmem ⟨h.1.1, h.2.1⟩
      rintro ⟨effects, m, hrun, -⟩
      rw [callback_fault hroot ?_] at hrun
      · cases hrun
      · simpa only [not_and_or, Option.not_isSome_iff_eq_none] using hmem

theorem MqttRun.Inv.step {s : MqttRun} (hs : s.Inv) (payload : List UInt8)
    (hgood : GoodPayload cJsonParse payload) : (s.step cJsonParse payload).Inv := by
  cases hroot : cJsonParse payload with
  | none => rwa [step_no_root hroot]
  | some root =>
    obtain ⟨⟨hmem₁, hv₁⟩, hmem₂, hv₂⟩ := hgood root hroot
    obtain ⟨i₁, h₁⟩ := Option.isSome_iff_exists.mp hmem₁
    obtain ⟨i₂, h₂⟩ := Option.isSome_iff_exists.mp hmem₂
    obtain ⟨hled₁, hled₂, hlast₁, hlast₂⟩ := step_members hroot h₁ h₂ s
    unfold MqttRun.Inv
    rw [hled₁, hled₂, hlast₁, hlast₂]
    exact ⟨(keep_iff hs.1 _).mpr hv₁, (keep_iff hs.2 _).mpr hv₂⟩

/-- **Lamp commands.** In a run from start-up, all payloads are handled exactly if each is good. -/
theorem payloads_handled_iff (cJsonParse : List UInt8 → Option CJson) (pin : Pin → Bool)
    (payloads : List (List UInt8)) :
    Along (MqttRun.step cJsonParse) (Handled cJsonParse) (.start pin) payloads ↔
      ∀ payload ∈ payloads, GoodPayload cJsonParse payload := by
  have hstart : (MqttRun.start pin).Inv := ⟨by simp [MqttRun.start], by simp [MqttRun.start]⟩
  rw [← along_forall (MqttRun.step cJsonParse) (.start pin)]
  refine along_iff MqttRun.Inv ?_ ?_ hstart
  · intro s payload hs
    exact handled_iff hs payload
  · intro s payload hs hgood
    exact hs.step payload hgood

end AtkOnenet
