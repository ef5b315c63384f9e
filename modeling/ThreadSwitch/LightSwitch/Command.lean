import Mathlib.Data.List.Forall2
import ThreadSwitch.LightSwitch.AppTask

/-!
# The commands to the bound lights

The `LightSwitch` fills a `BindingData` for each call, and the binding handler passes it to
`SwitchChangedHandler` once for each binding of its cluster (`PassedInOrder`).
`commands_delivered` follows the calls to one binding: each call that gets its memory arrives
as one command, in call order, and the `k`-th step of the brightness as the level
`3 * (k % 85)`. The device of the binding may be another one in each call of the handler.
-/

namespace ThreadSwitch.LightSwitch

open ThreadSwitch.Lib

/-- `Clusters::OnOff::Id`. -/
def onOffId : Nat := 6

/-- `Clusters::LevelControl::Id`. -/
def levelControlId : Nat := 8

/-- `OnOff::Commands::Off::Id`. -/
def offId : Nat := 0

/-- `OnOff::Commands::On::Id`. -/
def onId : Nat := 1

/-- `OnOff::Commands::Toggle::Id`. -/
def toggleId : Nat := 2

/-- `LevelControl::Commands::MoveToLevel::Id`. -/
def moveToLevelId : Nat := 0

/-- `Nrf::Matter::BindingHandler::BindingData`; its function is always `SwitchChangedHandler`. -/
structure BindingData where
  endpointId : Nat
  commandId : Nat
  clusterId : Nat
  value : BitVec 8
  deriving DecidableEq, Repr

/-- The `LightSwitch` of `GetInstance`. -/
structure Instance where
  mLightSwitchEndpoint : Nat
  /-- The static variable of `DimmerChangeBrightness`. -/
  sBrightness : BitVec 16
  deriving DecidableEq, Repr

def kOnePercentBrightnessApproximation : BitVec 16 := 3

def kMaximumBrightness : BitVec 16 := 254

namespace Instance

/-- `InitiateActionSwitch`: the data that is run, if there is memory for it. -/
def initiateActionSwitch (action : Action) (allocated : Bool) (l : Instance) : Option BindingData :=
  if allocated then
    let commandId := match action with
      | .toggle => toggleId
      | .on => onId
      | .off => offId
    some ⟨l.mLightSwitchEndpoint, commandId, onOffId, 0⟩
  else none

/-- `DimmerChangeBrightness`. -/
def dimmerChangeBrightness (allocated : Bool) (l : Instance) : Instance × Option BindingData :=
  if allocated then
    let brightness := l.sBrightness + kOnePercentBrightnessApproximation
    let brightness := if brightness > kMaximumBrightness then 0 else brightness
    ({ l with sBrightness := brightness },
      some ⟨l.mLightSwitchEndpoint, moveToLevelId, levelControlId, brightness.setWidth 8⟩)
  else (l, none)

end Instance

/-- The calls of the application, each with whether there is memory for its data. -/
def lightSwitch : Machine Instance (SwitchCall × Bool) BindingData where
  step l
    | (.initiateActionSwitch action, allocated) =>
      some (l, (l.initiateActionSwitch action allocated).toList)
    | (.dimmerChangeBrightness, allocated) =>
      let r := l.dimmerChangeBrightness allocated
      some (r.1, r.2.toList)

/-! ## The handler of a binding -/

/-- The types of a binding: `MATTER_UNUSED_BINDING` and so on. -/
inductive BindingType where
  | unused
  | unicast
  | multicast
  deriving DecidableEq, Repr

/-- `Binding::TableEntry`. -/
structure TableEntry where
  type : BindingType
  /-- The cluster the binding is for; `none` where it is for each. -/
  clusterId : Option Nat
  fabricIndex : Nat
  groupId : Nat
  remote : Nat
  deriving DecidableEq, Repr

structure OperationalDeviceProxy where
  connectionReady : Bool
  secureSession : Nat
  deriving DecidableEq, Repr

inductive Command where
  | off
  | on
  | toggle
  | moveToLevel (level : BitVec 8)
  deriving DecidableEq, Repr

inductive Invocation where
  /-- `InvokeCommandRequest` -/
  | commandRequest (session remote : Nat) (command : Command)
  /-- `InvokeGroupCommandRequest` -/
  | groupCommandRequest (fabricIndex groupId : Nat) (command : Command)
  deriving DecidableEq, Repr

/-- To the device, or to the binding's group where there is none. -/
def invoke (binding : TableEntry) (device : Option OperationalDeviceProxy) (command : Command) :
    Invocation :=
  match device with
  | some device => .commandRequest device.secureSession binding.remote command
  | none => .groupCommandRequest binding.fabricIndex binding.groupId command

/-- `VerifyOrDie(device->ConnectionReady())`, where there is a device. -/
def verifyConnection (device : Option OperationalDeviceProxy) : Option Unit :=
  if device.all (·.connectionReady) then some () else none

def onOffProcessCommand (commandId : Nat) (binding : TableEntry)
    (device : Option OperationalDeviceProxy) : Option (List Invocation) := do
  verifyConnection device
  if commandId = toggleId then return [invoke binding device .toggle]
  else if commandId = onId then return [invoke binding device .on]
  else if commandId = offId then return [invoke binding device .off]
  else return []

def levelControlProcessCommand (commandId : Nat) (binding : TableEntry)
    (device : Option OperationalDeviceProxy) (bindingData : BindingData) :
    Option (List Invocation) := do
  verifyConnection device
  if commandId = moveToLevelId then return [invoke binding device (.moveToLevel bindingData.value)]
  else return []

/-- `SwitchChangedHandler`; `none` where it dies. -/
def switchChangedHandler (binding : TableEntry) (deviceProxy : Option OperationalDeviceProxy)
    (bindingData : BindingData) : Option (List Invocation) :=
  let process (device : Option OperationalDeviceProxy) : Option (List Invocation) :=
    if bindingData.clusterId = onOffId then
      onOffProcessCommand bindingData.commandId binding device
    else if bindingData.clusterId = levelControlId then
      levelControlProcessCommand bindingData.commandId binding device bindingData
    else some []
  match binding.type with
  | .multicast => process none
  | .unicast => process deviceProxy
  | .unused => some []

/-! ## From the calls to the commands -/

/-- The device a binding is sent to: none for a group. -/
def recipient (binding : TableEntry) (deviceProxy : Option OperationalDeviceProxy) :
    Option OperationalDeviceProxy :=
  if binding.type = .unicast then deviceProxy else none

/-- A group, or a single device; the connection to a device is ready. -/
def Bound (binding : TableEntry) (deviceProxy : Option OperationalDeviceProxy) : Prop :=
  binding.type ≠ .unused ∧ ∀ device ∈ recipient binding deviceProxy, device.connectionReady = true

instance (binding : TableEntry) (deviceProxy : Option OperationalDeviceProxy) :
    Decidable (Bound binding deviceProxy) := inferInstanceAs (Decidable (_ ∧ _))

def Action.command : Action → Command
  | .toggle => .toggle
  | .on => .on
  | .off => .off

/-- The cluster of a command. -/
def Command.clusterId : Command → Nat
  | .off | .on | .toggle => onOffId
  | .moveToLevel _ => levelControlId

/-- The data that is run for a command. -/
def Command.data (endpointId : Nat) (command : Command) : BindingData :=
  match command with
  | .off => ⟨endpointId, offId, command.clusterId, 0⟩
  | .on => ⟨endpointId, onId, command.clusterId, 0⟩
  | .toggle => ⟨endpointId, toggleId, command.clusterId, 0⟩
  | .moveToLevel level => ⟨endpointId, moveToLevelId, command.clusterId, level⟩

@[simp] theorem Command.data_clusterId (endpointId : Nat) (command : Command) :
    (command.data endpointId).clusterId = command.clusterId := by cases command <;> rfl

/-- The commands of the calls that get their memory, when `steps` of the brightness came before. -/
def commandsFrom (steps : Nat) : List (SwitchCall × Bool) → List Command
  | [] => []
  | (_, false) :: calls => commandsFrom steps calls
  | (.initiateActionSwitch action, true) :: calls => action.command :: commandsFrom steps calls
  | (.dimmerChangeBrightness, true) :: calls =>
    .moveToLevel (BitVec.ofNat 8 (3 * ((steps + 1) % 85))) :: commandsFrom (steps + 1) calls

/-- A call of `SwitchChangedHandler` for a binding. -/
structure HandlerCall where
  deviceProxy : Option OperationalDeviceProxy
  bindingData : BindingData
  deriving DecidableEq, Repr

/-- The binding is for the cluster. -/
def TableEntry.isFor (binding : TableEntry) (clusterId : Nat) : Bool :=
  binding.clusterId.all (· == clusterId)

/-- What the binding handler, which is not among the sources, is relied on for: of the data
that are run, those of the binding's cluster are passed to `SwitchChangedHandler` once each, and
in order. Which device it passes is its own choice in each call. -/
def PassedInOrder (binding : TableEntry) (datas : List BindingData) (handled : List HandlerCall) :
    Prop :=
  handled.map (·.bindingData) = datas.filter fun data => binding.isFor data.clusterId

section handler
variable {binding : TableEntry} {deviceProxy : Option OperationalDeviceProxy}

theorem verifyConnection_recipient (hb : Bound binding deviceProxy) :
    verifyConnection (recipient binding deviceProxy) = some () := by
  rw [verifyConnection, if_pos]
  cases hdevice : recipient binding deviceProxy with
  | none => rfl
  | some device => exact hb.2 device hdevice

/-- A group is sent to without a device, even where there is one. -/
theorem switchChangedHandler_eq (hb : Bound binding deviceProxy) (data : BindingData) :
    switchChangedHandler binding deviceProxy data =
      if data.clusterId = onOffId then
        onOffProcessCommand data.commandId binding (recipient binding deviceProxy)
      else if data.clusterId = levelControlId then
        levelControlProcessCommand data.commandId binding (recipient binding deviceProxy) data
      else some [] := by
  have hused := hb.1
  unfold switchChangedHandler recipient
  cases htype : binding.type with
  | unused => exact absurd htype hused
  | unicast => rfl
  | multicast => rfl

/-- The handler turns the data of a command into this command, whatever the endpoint. -/
theorem switchChangedHandler_data (hb : Bound binding deviceProxy) (endpointId : Nat)
    (command : Command) :
    switchChangedHandler binding deviceProxy (command.data endpointId) =
      some [invoke binding (recipient binding deviceProxy) command] := by
  rw [switchChangedHandler_eq hb, Command.data_clusterId]
  unfold onOffProcessCommand levelControlProcessCommand
  rw [verifyConnection_recipient hb]
  cases command <;> rfl

end handler

section filled
variable {l₀ l : Instance} {calls : List (SwitchCall × Bool)} {datas : List BindingData}
  {steps : Nat}

theorem filled_action (action : Action) (l : Instance) :
    l.initiateActionSwitch action true = some (action.command.data l.mLightSwitchEndpoint) := by
  cases action <;> rfl

/-- The brightness after `steps` steps: 85 of them are a cycle. -/
def brightnessAfter (steps : Nat) : BitVec 16 := BitVec.ofNat 16 (3 * (steps % 85))

theorem brightnessAfter_succ (steps : Nat) :
    (if brightnessAfter steps + kOnePercentBrightnessApproximation > kMaximumBrightness then 0
      else brightnessAfter steps + kOnePercentBrightnessApproximation) =
        brightnessAfter (steps + 1) := by
  have hcycle : ∀ n < 85,
      (if BitVec.ofNat 16 (3 * n) + kOnePercentBrightnessApproximation > kMaximumBrightness then 0
        else BitVec.ofNat 16 (3 * n) + kOnePercentBrightnessApproximation) =
          BitVec.ofNat 16 (3 * if n = 84 then 0 else n + 1) := by decide
  have hnext : (steps + 1) % 85 = if steps % 85 = 84 then 0 else steps % 85 + 1 := by
    split <;> omega
  rw [brightnessAfter, brightnessAfter, hnext]
  exact hcycle _ (Nat.mod_lt _ (by omega))

theorem filled_step (hl : l.sBrightness = brightnessAfter steps) :
    l.dimmerChangeBrightness true =
      ({ l with sBrightness := brightnessAfter (steps + 1) },
        some (Command.data l.mLightSwitchEndpoint
          (.moveToLevel (BitVec.ofNat 8 (3 * ((steps + 1) % 85)))))) := by
  have hlevel : (brightnessAfter (steps + 1)).setWidth 8 =
      BitVec.ofNat 8 (3 * ((steps + 1) % 85)) := BitVec.setWidth_ofNat_of_le (by omega) _
  unfold Instance.dimmerChangeBrightness
  rw [if_pos rfl, hl]
  simp only [brightnessAfter_succ, hlevel]
  rfl

/-- What is run is the data of the commands. -/
theorem run_datas (hl : l₀.sBrightness = brightnessAfter steps)
    (h : lightSwitch.run l₀ calls = some (l, datas)) :
    datas = (commandsFrom steps calls).map (Command.data l₀.mLightSwitchEndpoint) := by
  induction calls generalizing l₀ datas steps with
  | nil => cases h; rfl
  | cons call calls ih =>
    obtain ⟨l₁, data, datas, hstep, hrest, rfl⟩ := Machine.run_cons_iff.mp h
    obtain ⟨call, allocated⟩ := call
    cases allocated with
    | false =>
      have hnone : l₁ = l₀ ∧ data = [] := by cases call <;> cases hstep <;> exact ⟨rfl, rfl⟩
      obtain ⟨rfl, rfl⟩ := hnone
      have hskip : commandsFrom steps ((call, false) :: calls) = commandsFrom steps calls := by
        cases call <;> rfl
      rw [hskip]
      exact ih hl hrest
    | true =>
      cases call with
      | initiateActionSwitch action =>
        simp only [lightSwitch, filled_action] at hstep
        cases hstep
        exact congrArg _ (ih hl hrest)
      | dimmerChangeBrightness =>
        simp only [lightSwitch, filled_step hl] at hstep
        cases hstep
        have htail := ih rfl hrest
        exact congrArg _ htail

end filled

/-- **Each call that gets its memory is one command to each light bound for its cluster**, in
call order: ON and toggle as called, and the steps of the brightness as levels that go up by 3
from 3 to 252, and then to 0 and up again. What gets no memory is left out, and takes no step.
Each command goes to the device the handler is called with, or to the binding's group. -/
theorem commands_delivered {binding : TableEntry} {calls : List (SwitchCall × Bool)}
    {l₀ l : Instance} {datas : List BindingData} {handled : List HandlerCall}
    (hl : l₀.sBrightness = 0) (h : lightSwitch.run l₀ calls = some (l, datas))
    (hd : PassedInOrder binding datas handled)
    (hb : ∀ call ∈ handled, Bound binding call.deviceProxy) :
    List.Forall₂ (fun call command =>
        switchChangedHandler binding call.deviceProxy call.bindingData =
          some [invoke binding (recipient binding call.deviceProxy) command])
      handled ((commandsFrom 0 calls).filter fun command => binding.isFor command.clusterId) := by
  have hdata : handled.map (·.bindingData) =
      ((commandsFrom 0 calls).filter fun command => binding.isFor command.clusterId).map
        (Command.data l₀.mLightSwitchEndpoint) := by
    have hfirst : l₀.sBrightness = brightnessAfter 0 := hl
    rw [hd, run_datas hfirst h, List.filter_map]
    simp [Function.comp_def]
  have hpairs : List.Forall₂
      (fun call command => call.bindingData = Command.data l₀.mLightSwitchEndpoint command)
      handled ((commandsFrom 0 calls).filter fun command => binding.isFor command.clusterId) := by
    rw [← List.forall₂_eq_eq_eq, List.forall₂_map_left_iff, List.forall₂_map_right_iff] at hdata
    exact hdata
  refine ((List.forall₂_and_left _ _).mpr ⟨hb, hpairs⟩).imp fun call command hcall => ?_
  rw [hcall.2]
  exact switchChangedHandler_data hcall.1 _ command

/-- 86 steps after an ON; the first step gets no memory. -/
def fullCycle : List (SwitchCall × Bool) :=
  (.initiateActionSwitch .on, true) :: (.dimmerChangeBrightness, false) ::
    List.replicate 86 (.dimmerChangeBrightness, true)

/-- A light that is bound for all of its clusters. -/
def boundLight : TableEntry := ⟨.unicast, none, 1, 0, 2⟩

/-- The light is reached over a new session after the ON. -/
def newSession (data : BindingData) : HandlerCall :=
  ⟨some ⟨true, if data.clusterId = onOffId then 3 else 4⟩, data⟩

theorem fullCycle_delivered :
    ∃ l datas, lightSwitch.run ⟨1, 0⟩ fullCycle = some (l, datas) ∧
      List.Forall₂ (fun call command =>
          switchChangedHandler boundLight call.deviceProxy call.bindingData =
            some [invoke boundLight (recipient boundLight call.deviceProxy) command])
        (datas.map newSession)
        ((commandsFrom 0 fullCycle).filter fun command => boundLight.isFor command.clusterId) := by
  obtain ⟨l, datas, hrun, -⟩ : ∃ l datas, lightSwitch.run ⟨1, 0⟩ fullCycle = some (l, datas) ∧ True :=
    Machine.run_eval (by decide +kernel)
  have hpassed : PassedInOrder boundLight datas (datas.map newSession) := by
    simp [PassedInOrder, TableEntry.isFor, boundLight, newSession, Function.comp_def]
  refine ⟨l, datas, hrun, commands_delivered rfl hrun hpassed ?_⟩
  rw [List.forall_mem_map]
  rintro data -
  exact ⟨by decide, by simp [recipient, boundLight, newSession]⟩

end ThreadSwitch.LightSwitch
