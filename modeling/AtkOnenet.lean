import AtkOnenet.Lib.TwoWire
import AtkOnenet.Lib.RegisterSlave
import AtkOnenet.App.Lamps
import AtkOnenet.App.Light
import AtkOnenet.App.SensorLog
import AtkOnenet.Gui.Screen
import AtkOnenet.Json.Command
import AtkOnenet.Lcd.Draw
import AtkOnenet.Lcd.Refine
import AtkOnenet.Touch.Chip
import AtkOnenet.Touch.Config
import AtkOnenet.Touch.Frames
import AtkOnenet.Touch.Pad
import AtkOnenet.Touch.Polling
import AtkOnenet.Touch.Refusal
import AtkOnenet.At.Response
import AtkOnenet.Kernel.Heap
