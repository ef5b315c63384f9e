import ThreadSwitch.Lib.Machine
import ThreadSwitch.Lib.Window
import ThreadSwitch.Lib.Script
import ThreadSwitch.Lib.Bytes
import ThreadSwitch.Lib.Paged
import ThreadSwitch.Lib.Deltas
import ThreadSwitch.Zephyr
import ThreadSwitch.Heater.AppTask
import ThreadSwitch.Heater.Step
import ThreadSwitch.Heater.Standby
import ThreadSwitch.Heater.Pulse
import ThreadSwitch.Heater.Preempt
import ThreadSwitch.Heater.Serial
import ThreadSwitch.Heater.Timing
import ThreadSwitch.Heater.Sensing
import ThreadSwitch.Heater.Vote
import ThreadSwitch.Matter.Device
import ThreadSwitch.Matter.Feedback
import ThreadSwitch.Matter.Command
import ThreadSwitch.Matter.Sync
import ThreadSwitch.Matter.Served
import ThreadSwitch.Matter.OpenLoop
import ThreadSwitch.AwsIot.Codec
import ThreadSwitch.AwsIot.Integration
import ThreadSwitch.AwsIot.Attempts
import ThreadSwitch.AwsIot.Connection
import ThreadSwitch.AwsIot.Reconnect
import ThreadSwitch.AwsIot.Shadow
import ThreadSwitch.AwsIot.Delta
import ThreadSwitch.AwsIot.RoundTrip
import ThreadSwitch.AwsIot.Twin
import ThreadSwitch.AwsIot.Precedence
import ThreadSwitch.LightSwitch.AppTask
import ThreadSwitch.LightSwitch.Dimming
import ThreadSwitch.LightSwitch.Hold
import ThreadSwitch.LightSwitch.Command
import ThreadSwitch.Uf2.Block
import ThreadSwitch.Uf2.FromUf2
import ThreadSwitch.Uf2.Decode
import ThreadSwitch.Uf2.Pack
import ThreadSwitch.Uf2.ToUf2
import ThreadSwitch.Uf2.Hex
import ThreadSwitch.Uf2.HexToUf2
import ThreadSwitch.Uf2.Main
