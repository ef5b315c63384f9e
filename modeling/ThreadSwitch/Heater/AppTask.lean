import ThreadSwitch.Zephyr
import ThreadSwitch.Lib.Window

/-!
# The bath heater task

`AppTask` holds the fields of the application task: the two pins wired to the
heater's buttons, the four delayable works, the sensing history with its vote,
and the two flags of a running action. The functions below are the methods of
`app_task.cpp`. `uptime` is the kernel clock that `k_work_reschedule` reads.
-/

namespace ThreadSwitch.Heater

open ThreadSwitch.Zephyr ThreadSwitch.Lib

structure AppTask where
  uptime : Nat
  /-- Momentary button of both directions. -/
  mCtrlPinOn : PinMode
  /-- Standby button, pulsed after OFF. -/
  mStandbyPin : PinMode
  mPulseWork : Delayable
  mStandbyWork : Delayable
  mStandbyReleaseWork : Delayable
  mSenseWork : Delayable
  mSenseHistory : BitVec 16
  mVotedIsOn : Bool
  mIsPulsing : Bool
  /-- True when the current action is OFF. -/
  mPendingOff : Bool
  deriving DecidableEq, Repr

/-- What a poll finds at the sense pin: whether its port is ready, and the
`int` that `gpio_pin_get_dt` returns (0, 1 or a negative errno). -/
structure SenseRead where
  ready : Bool
  raw : Int
  deriving DecidableEq, Repr

namespace AppTask

/-! ## Sensing -/

/-- `gpio_pin_get_dt(..) & 1`, as stored in a `uint8_t`. -/
def rawValue (raw : Int) : BitVec 8 := (BitVec.ofInt 32 raw &&& 1#32).setWidth 8

/-- `(mSenseHistory << 1) | rawValue`, computed in `int` and stored in a `uint16_t`. -/
def updateHistory (history : BitVec 16) (rawValue : BitVec 8) : BitVec 16 :=
  ((history.setWidth 32 <<< 1) ||| rawValue.setWidth 32).setWidth 16

/-- The voting loop: how many of the last 10 samples are LOW. -/
def lowCount (history : BitVec 16) : Nat :=
  (List.range 10).foldl
    (fun lowCount i => if (history >>> i) &&& 1#16 = 0#16 then lowCount + 1 else lowCount) 0

/-- ON only if 8 of the last 10 samples are LOW. -/
def vote (history : BitVec 16) : Bool := decide (8 ≤ lowCount history)

/-- `SensingPollHandler`: the task after the poll, and the vote captured by the
lambda it schedules, if it schedules one. -/
def sensingPollHandler (read : SenseRead) (t : AppTask) : AppTask × Option Bool :=
  if !read.ready then (t, none)
  else
    let history := updateHistory t.mSenseHistory (rawValue read.raw)
    let votedIsOn := vote history
    let t := { t with mSenseHistory := history, mVotedIsOn := votedIsOn }
    let lambda := if !t.mIsPulsing then some votedIsOn else none
    ({ t with mSenseWork := kWorkReschedule t.uptime 100 }, lambda)

/-! ## Actions -/

/-- `ControlPulseHandler`. -/
def controlPulseHandler (t : AppTask) : AppTask :=
  let t := { t with mCtrlPinOn := .input }
  if t.mPendingOff then { t with mStandbyWork := kWorkReschedule t.uptime 1000 }
  else { t with mIsPulsing := false }

/-- `StandbyPulseHandler`. -/
def standbyPulseHandler (t : AppTask) : AppTask :=
  let t := { t with mStandbyPin := .outputLow }
  { t with mStandbyReleaseWork := kWorkReschedule t.uptime 300 }

/-- `StandbyReleaseHandler`. -/
def standbyReleaseHandler (t : AppTask) : AppTask :=
  { t with mStandbyPin := .input, mIsPulsing := false, mPendingOff := false }

/-- `InitiateAction(actionOn)`. -/
def initiateAction (actionOn : Bool) (t : AppTask) : AppTask :=
  let t := { t with mIsPulsing := true }
  let t := { t with mPendingOff := !actionOn }
  let t := { t with mSenseHistory := if actionOn then 0x0000#16 else 0xFFFF#16 }
  let t := { t with mVotedIsOn := actionOn }
  let t := { t with mCtrlPinOn := .outputLow }
  { t with mPulseWork := kWorkReschedule t.uptime 300 }

/-! ## Initialization -/

end AppTask

/-- The `CHIP_ERROR` values that matter here. -/
inductive ChipError where
  | noError
  | incorrectState
  | other (code : Nat)
  deriving DecidableEq, Repr

/-- What the calls made by `Init` return. -/
structure InitEnv where
  prepareServer : ChipError
  boardInit : Bool
  registerEventHandler : ChipError
  identifyInit : ChipError
  startServer : ChipError
  ctrlPinReady : Bool
  standbyPinReady : Bool

namespace AppTask

/-- `Init`, run on whatever the fields hold before. -/
def init (env : InitEnv) (t : AppTask) : AppTask × ChipError :=
  if env.prepareServer ≠ .noError then (t, env.prepareServer)
  else if !env.boardInit then (t, .incorrectState)
  else if env.registerEventHandler ≠ .noError then (t, env.registerEventHandler)
  else if env.identifyInit ≠ .noError then (t, env.identifyInit)
  else
    let t := { t with
      mSenseHistory := 0xFFFF#16, mVotedIsOn := false, mIsPulsing := false, mPendingOff := false }
    let t :=
      if env.ctrlPinReady && env.standbyPinReady then
        { t with mCtrlPinOn := .input, mStandbyPin := .input }
      else t
    let t := { t with
      mPulseWork := none, mStandbyWork := none, mStandbyReleaseWork := none, mSenseWork := none }
    let t := { t with mSenseWork := kWorkSchedule t.uptime 0 t.mSenseWork }
    (t, env.startServer)

end AppTask

/-- The calls before the pin setup succeed. -/
def InitEnv.Proceeds (env : InitEnv) : Prop :=
  env.prepareServer = .noError ∧ env.boardInit = true ∧
    env.registerEventHandler = .noError ∧ env.identifyInit = .noError

/-- Both button pins are ready. -/
def InitEnv.PinsReady (env : InitEnv) : Prop :=
  env.ctrlPinReady = true ∧ env.standbyPinReady = true

/-- The states `Init` leaves when the pins are ready. -/
def Booted (t : AppTask) : Prop :=
  ∃ env before, env.Proceeds ∧ env.PinsReady ∧ (AppTask.init env before).1 = t

/-- The state `Init` leaves at `uptime`. -/
def bootedAt (uptime : Nat) : AppTask where
  uptime := uptime
  mCtrlPinOn := .input
  mStandbyPin := .input
  mPulseWork := none
  mStandbyWork := none
  mStandbyReleaseWork := none
  mSenseWork := some uptime
  mSenseHistory := 0xFFFF#16
  mVotedIsOn := false
  mIsPulsing := false
  mPendingOff := false

theorem booted_iff {t : AppTask} : Booted t ↔ ∃ uptime, t = bootedAt uptime := by
  constructor
  · rintro ⟨env, before, ⟨h1, h2, h3, h4⟩, ⟨h5, h6⟩, rfl⟩
    exact ⟨before.uptime, by simp [AppTask.init, h1, h2, h3, h4, h5, h6, bootedAt, kWorkSchedule]⟩
  · rintro ⟨uptime, rfl⟩
    exact ⟨⟨.noError, true, .noError, .noError, .noError, true, true⟩, bootedAt uptime,
      ⟨rfl, rfl, rfl, rfl⟩, ⟨rfl, rfl⟩, rfl⟩

theorem bootedAt_booted (uptime : Nat) : Booted (bootedAt uptime) := booted_iff.mpr ⟨uptime, rfl⟩

/-! ## The vote as a window -/

namespace AppTask

/-- The sample a read leaves in the history: HIGH for an odd value. -/
def sample (read : SenseRead) : Bool := decide (read.raw % 2 = 1)

theorem rawValue_eq (raw : Int) : rawValue raw = (BitVec.ofBool (decide (raw % 2 = 1))).setWidth 8 := by
  apply BitVec.eq_of_toNat_eq
  have h : (BitVec.ofInt 32 raw &&& 1#32).toNat = (raw % 2).toNat := by
    rw [BitVec.toNat_and, BitVec.toNat_ofInt, show (1#32).toNat = 1 from rfl, Nat.and_one_is_mod]
    omega
  rw [rawValue, BitVec.toNat_setWidth, h]
  rcases Int.emod_two_eq_zero_or_one raw with h0 | h1
  · simp [h0]
  · simp [h1]

theorem updateHistory_eq (history : BitVec 16) (read : SenseRead) :
    updateHistory history (rawValue read.raw) = shiftIn history (sample read) := by
  rw [rawValue_eq]
  unfold updateHistory shiftIn sample
  apply BitVec.eq_of_getLsbD_eq
  intro i hi
  cases decide (read.raw % 2 = 1) <;> simp [hi]

theorem lowCount_eq (history : BitVec 16) : lowCount history = (newest 10 history).count false := by
  unfold lowCount newest
  rw [foldl_count, Nat.zero_add, List.count, List.countP_map]
  refine List.countP_congr fun i _ => ?_
  have h : (history >>> i &&& 1#16 = 0#16) ↔ history.getLsbD i = false := by
    rw [BitVec.and_one_eq_setWidth_ofBool_getLsbD]
    cases hb : history.getLsbD i <;> simp [hb]
  simp [h]

end AppTask

end ThreadSwitch.Heater
