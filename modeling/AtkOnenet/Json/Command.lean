import AtkOnenet.App.SensorLog
import AtkOnenet.Json.Buffer

/-!
# Lamp commands as texts (`applications/MQTT_APP.c` with `packages/cJSON-v1.0.2`)

`receive` is the parser of the package as the callback uses it, on the payload up to its NUL.

* `lamp_command`: a command that the printer of the package has written, in either format and with any
  other members around, switches the lamps as it says.
* `led2_missing`: a command for the first lamp alone is not handled.
-/

namespace AtkOnenet

open Run Word

section Receive

variable {D : Type} [DoubleArith D]

/-- `cJSON_Parse` of a payload. Where the parser leaves the text there is no result; the results here
are about other payloads. -/
def receive (D : Type) [DoubleArith D] (payload : List UInt8) : Option CJson :=
  match cJsonParse (D := D) (cString payload) with
  | .ok item _ => some item.toCJson
  | .fail _ => none
  | .stray => none

theorem rereadMembers_eq (cs : List (CJsonItem D)) :
    rereadMembers cs = cs.map fun c => c.reread c.string := by
  induction cs with
  | nil => rfl
  | cons c cs ih => rw [rereadMembers, ih, List.map_cons]

omit [DoubleArith D] in
theorem toCJson_string (item : CJsonItem D) : item.toCJson.string = item.string := by
  obtain ⟨_, _, _, _, _, _⟩ := item
  rfl

omit [DoubleArith D] in
theorem toCJson_child (item : CJsonItem D) : item.toCJson.child = item.child.map CJsonItem.toCJson := by
  obtain ⟨_, _, _, _, _, child⟩ := item
  exact CJsonItem.toCJsons_eq child

/-- The number of an item is the same in the tree that comes back. -/
theorem number_reread (c : CJsonItem D) (s : Option (List UInt8)) :
    (if (c.reread s).toCJson.type = .number then some (c.reread s).toCJson.valueint else none) =
      if c.toCJson.type = .number then some c.toCJson.valueint else none := by
  obtain ⟨type, _, _, _, _, _⟩ := c
  cases type <;> rfl

/-- So are the numbers of the members of an object. -/
theorem numberOf_reread {item : CJsonItem D} (ho : item.type = .object) (key : List UInt8) :
    numberOf (item.reread none).toCJson key = numberOf item.toCJson key := by
  have hchild : (item.reread none).child = item.child.map fun c => c.reread c.string := by
    obtain ⟨type, _, _, _, _, child⟩ := item
    obtain rfl : type = .object := ho
    exact rereadMembers_eq child
  unfold numberOf cJsonGetObjectItem
  rw [toCJson_child, toCJson_child, hchild, List.map_map, List.find?_map, List.find?_map]
  have hsame : (fun c : CJson => decide (cJsonStrcasecmp c.string key = 0)) ∘
      (CJsonItem.toCJson ∘ fun c : CJsonItem D => c.reread c.string) =
      (fun c : CJson => decide (cJsonStrcasecmp c.string key = 0)) ∘ CJsonItem.toCJson := by
    funext c
    simp only [Function.comp_apply, toCJson_string, CJsonItem.reread_string]
  rw [hsame]
  cases item.child.find? _ with
  | none => rfl
  | some c => exact number_reread c c.string

end Receive

/-- **A printed command switches the lamps.** Any printable object with numbers for both lamps, in
either format: its text is parsed, and the callback drives the two pins by the numbers and no other
pin. -/
theorem lamp_command {D : Type} [DoubleArith D] [ExactInts D] {item : CJsonItem D}
    (hp : item.Printable) (ho : item.type = .object) {v₁ v₂ : Int32}
    (h₁ : numberOf item.toCJson led1Key = some v₁) (h₂ : numberOf item.toCJson led2Key = some v₂)
    (fmt : Bool) (m : Mqtt) :
    ∃ text effects m', printValue 0 fmt item = some text ∧
      mqttSubCallback (receive D) text m = some (effects, m') ∧
      (m'.pin .led0 = pinLow ↔ v₁.toInt % 256 = 1) ∧ (m'.pin .led1 = pinLow ↔ v₂.toInt % 256 = 1) ∧
      m'.pin .crtl = m.pin .crtl := by
  obtain ⟨text, root, ht, hparse, rfl, -⟩ := cJsonParse_print hp fmt
  have hfits := CJsonItem.PrintableWith.imp IsInt.fits item hp
  have htext : cString text = text :=
    List.takeWhile_eq_self_iff.mpr fun c hc =>
      decide_eq_true (printValue_ne_zero fmt item hfits ht c hc)
  have hroot : receive D text = some (item.reread none).toCJson := by
    rw [receive, htext, hparse]
  have hn₁ := (numberOf_reread ho led1Key).trans h₁
  have hn₂ := (numberOf_reread ho led2Key).trans h₂
  obtain ⟨i₁, hi₁, -⟩ := Option.bind_eq_some_iff.mp hn₁
  obtain ⟨i₂, hi₂, -⟩ := Option.bind_eq_some_iff.mp hn₂
  have hrun := callback_members hroot hi₁ hi₂ m
  simp only [hn₁, hn₂] at hrun
  refine ⟨text, _, _, ht, hrun, ?_, ?_, rfl⟩
  · rw [← byteOf_eq_one_iff]
    exact lampLevel_eq_low (byteOf v₁)
  · rw [← byteOf_eq_one_iff]
    exact lampLevel_eq_low (byteOf v₂)

/-- The first lamp on, the second one off, and a text for someone else. -/
theorem lamp_command_on_off :
    let text : CJsonItem Int := ⟨.string, some [0x68, 0x69], 0, 0, some [0x74, 0x6F], []⟩
    let led1 : CJsonItem Int := ⟨.number, none, 1, 1, some led1Key, []⟩
    let led2 : CJsonItem Int := ⟨.number, none, 0, 0, some led2Key, []⟩
    let object : CJsonItem Int := ⟨.object, none, 0, 0, none, [text, led2, led1]⟩
    ∃ payload effects m', printValue 0 false object = some payload ∧
      mqttSubCallback (receive Int) payload ⟨fun _ => pinHigh, 0, 0⟩ = some (effects, m') ∧
      (m'.pin .led0 = pinLow ↔ (1 : Int32).toInt % 256 = 1) ∧
      (m'.pin .led1 = pinLow ↔ (0 : Int32).toInt % 256 = 1) ∧ m'.pin .crtl = pinHigh := by
  intro text led1 led2 object
  have hp : object.Printable :=
    ⟨⟨[0x74, 0x6F], rfl, forall_mem rfl⟩, ⟨[0x68, 0x69], rfl, forall_mem rfl⟩,
      ⟨led2Key, rfl, forall_mem rfl⟩, rfl, ⟨led1Key, rfl, forall_mem rfl⟩, rfl, trivial⟩
  exact lamp_command hp rfl rfl rfl false ⟨fun _ => pinHigh, 0, 0⟩

/-- The text `led1: 1` in braces, without a member `led2`: the callback reads the type of the missing
member. -/
theorem led2_missing :
    let payload : List UInt8 := [0x7B, 0x22, 0x6C, 0x65, 0x64, 0x31, 0x22, 0x3A, 0x31, 0x7D]
    mqttSubCallback (receive Int) payload ⟨fun _ => pinHigh, 0, 0⟩ = none ∧
      ¬ Along (MqttRun.step (receive Int)) (Handled (receive Int)) (.start fun _ => pinHigh)
        [payload] := by
  intro payload
  have hroot : receive Int payload =
      some (.mk .object 0 none [.mk .number 1 (some led1Key) []]) := rfl
  have hfault : mqttSubCallback (receive Int) payload ⟨fun _ => pinHigh, 0, 0⟩ = none :=
    callback_fault hroot (.inr (by decide)) _
  refine ⟨hfault, fun h => ?_⟩
  obtain ⟨effects, m, hrun, -⟩ := h.1
  exact absurd (hfault.symm.trans hrun) nofun

end AtkOnenet
