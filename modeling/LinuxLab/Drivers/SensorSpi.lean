import LinuxLab.Lib.Blocks
import LinuxLab.Lib.Decimal
import LinuxLab.Lib.UserCopy

/-!
# sensor_spi: the temperature sensor

`read_temperature` of `sensor_spi.c` with the SPI message it builds, the read of the
character device, the three sysfs attributes and the work item.  The outcomes of the
kernel calls of one `read_temperature` are a `SpiRead`.  The variant that is compiled out,
the time measurement and the kernel log are left out, and so is `sysfs_notify`, which wakes
the processes that poll an attribute.
-/

namespace LinuxLab
namespace SensorSpi

open Lib
open Lib.IntExpr (var lit)

def eIo : Int := 5

def eNoMem : Int := 12

def eFault : Int := 14

/-! ## Compensation -/

/-- The variables of the compensation formula. -/
inductive Var where
  | rawTemp
  | digT1
  | digT2
  | digT3
deriving DecidableEq, Repr

def var1 : IntExpr Var :=
  ((var .rawTemp >>> 3 - var .digT1 <<< 1) * var .digT2) >>> 11

def var2 : IntExpr Var :=
  (((var .rawTemp >>> 4 - var .digT1) * (var .rawTemp >>> 4 - var .digT1)) >>> 12 *
    var .digT3) >>> 14

/-- What `read_temperature` returns after a transfer. -/
def temperature : IntExpr Var := ((var1 + var2) * lit 5 + lit 128) >>> 8

/-- The globals `dig_T1`, `dig_T2` and `dig_T3`, with the ranges of the `u16` and `s16`
that they are loaded from. -/
structure Calibration where
  digT1 : Int
  digT2 : Int
  digT3 : Int
  digT1_u16 : 0 ≤ digT1 ∧ digT1 < 65536
  digT2_s16 : -32768 ≤ digT2 ∧ digT2 < 32768
  digT3_s16 : -32768 ≤ digT3 ∧ digT3 < 32768

/-- `calib[0] | (calib[1] << 8)`. -/
def calibWord (calib : UInt8 × UInt8) : Nat := calib.1.toNat ||| calib.2.toNat <<< 8

def toU16 (n : Int) : Int := n % 65536

def toS16 (n : Int) : Int := n.bmod 65536

theorem toU16_range (n : Int) : 0 ≤ toU16 n ∧ toU16 n < 65536 := by
  unfold toU16
  omega

theorem toS16_range (n : Int) : -32768 ≤ toS16 n ∧ toS16 n < 32768 := by
  have hle := @Int.le_bmod n 65536 (by decide)
  have hlt := @Int.bmod_lt n 65536 (by decide)
  unfold toS16
  omega

/-- What `k_module_init` makes of the bytes read at the registers 0x88, 0x8A and 0x8C. -/
def loadCalibration (calib1 calib2 calib3 : UInt8 × UInt8) : Calibration where
  digT1 := toU16 (calibWord calib1)
  digT2 := toS16 (calibWord calib2)
  digT3 := toS16 (calibWord calib3)
  digT1_u16 := toU16_range _
  digT2_s16 := toS16_range _
  digT3_s16 := toS16_range _

def Calibration.env (c : Calibration) (rawTemp : Int) : Var → Int
  | .rawTemp => rawTemp
  | .digT1 => c.digT1
  | .digT2 => c.digT2
  | .digT3 => c.digT3

/-- `((raw_data[0] << 16) | (raw_data[1] << 8) | raw_data[2]) >> 4`. -/
def rawTemp (rawData : List UInt8) : Int :=
  (((rawData.getD 0 0).toNat <<< 16 ||| (rawData.getD 1 0).toNat <<< 8 |||
    (rawData.getD 2 0).toNat) >>> 4 : Nat)

def compensate (c : Calibration) (rawData : List UInt8) : Int :=
  temperature.run (c.env (rawTemp rawData))

/-! ## The SPI message -/

/-- A transfer.  `rxBuf` is the offset in the receive buffer; `none` is a NULL pointer. -/
structure SpiTransfer where
  txBuf : Option (List UInt8)
  rxBuf : Option Nat
  len : Nat
deriving DecidableEq, Repr

/-- The array `txfers`, and the indices that were added to the message. -/
structure SpiMessage where
  txfers : Nat → SpiTransfer
  queue : List Nat

def SpiMessage.init : SpiMessage := ⟨fun _ => ⟨none, none, 0⟩, []⟩

/-- Fill `txfers[i]` and add it at the tail. -/
def SpiMessage.addTail (msg : SpiMessage) (i : Nat) (t : SpiTransfer) : SpiMessage :=
  ⟨Function.update msg.txfers i t, msg.queue ++ [i]⟩

def SpiMessage.transfers (msg : SpiMessage) : List SpiTransfer := msg.queue.map msg.txfers

def targetByte : Nat := 512

/-- The locals of the PIO loop. -/
structure PioLoop where
  remain : Nat
  offset : Nat
  i : Nat
  msg : SpiMessage

def pioStep (s : PioLoop) : PioLoop :=
  let chunk := if s.remain > 95 then 95 else s.remain
  { remain := s.remain - chunk
    offset := s.offset + chunk
    i := s.i + 1
    msg := s.msg.addTail s.i ⟨none, some s.offset, chunk⟩ }

/-- The `while` loop.  A pass takes at least one byte off `remain`, so `remain` is fuel
enough. -/
def pioLoop : Nat → PioLoop → PioLoop
  | 0, s => s
  | fuel + 1, s => if s.remain > 0 then pioLoop fuel (pioStep s) else s

/-- The message with the command byte. -/
def commandMessage : SpiMessage := SpiMessage.init.addTail 0 ⟨some [0xFA ||| 0x80], none, 1⟩

def dmaMessage (n : Nat) : SpiMessage := commandMessage.addTail 1 ⟨none, some 0, n⟩

def pioMessage (n : Nat) : SpiMessage := (pioLoop n ⟨n, 0, 1, commandMessage⟩).msg

/-- The message for `n` bytes.  `dmaMode` is 0 for PIO. -/
def buildMessage (dmaMode : Int) (n : Nat) : SpiMessage :=
  if dmaMode ≠ 0 then dmaMessage n else pioMessage n

/-- The receive buffer after the transfers, clocked back to back: the device sends `stream`,
`pos` bytes of which are gone, and a transfer without receive buffer drops its part. -/
def clock (stream : Nat → UInt8) : Nat → List SpiTransfer → List UInt8 → List UInt8
  | _, [], rx => rx
  | pos, t :: ts, rx =>
    let bytes := (List.range' pos t.len).map stream
    clock stream (pos + t.len) ts (match t.rxBuf with
      | none => rx
      | some offset => putAt rx offset bytes)

/-- What the kernel calls of one `read_temperature` do: whether the two allocations
succeed, what `spi_sync` returns and what the device sends. -/
structure SpiRead where
  txAlloc : Bool
  rxAlloc : Bool
  ret : Int
  stream : Nat → UInt8

/-- `rx_buf` after `spi_sync` of a message for `n` bytes. -/
def receive (dmaMode : Int) (n : Nat) (stream : Nat → UInt8) : List UInt8 :=
  clock stream 0 (buildMessage dmaMode n).transfers (List.replicate n 0)

def readTemperature (dmaMode : Int) (c : Calibration) (r : SpiRead) : Int :=
  if r.txAlloc = false ∨ r.rxAlloc = false then -eNoMem
  else
    let rxBuf := receive dmaMode targetByte r.stream
    let rawData := if r.ret = 0 then rxBuf.take 3 else [0, 0, 0]
    if r.ret < 0 then -eIo else compensate c rawData

/-! ## The device and the attributes -/

/-- `"%d.%02d\n"` of `value / 100` and `value % 100`. -/
def temperatureText (value : Int) : CString :=
  formatSigned (value.tdiv 100) ++ '.' :: (formatPadded 2 (value.tmod 100) ++ ['\n'])

/-- The values of the three attributes, and `dma_mode`. -/
structure Sensor where
  calibration : Calibration
  notify : Int
  trigger : Int
  useDma : Int
  dmaMode : Int

/-- `k_driver_read` of `count` bytes, with its call of `copy_to_user`. -/
def kDriverRead (r : SpiRead) {room count : Nat} (u : UserCopy 20 room count) (s : Sensor) :
    FileOp Sensor :=
  let outString := printedCells 20 (temperatureText (readTemperature s.dmaMode s.calibration r))
  { ret := if u.bytesLeft ≠ 0 then -eFault else count
    reach := u.touched
    delivered := outString.upTo u.copied
    copyFailed := u.bytesLeft ≠ 0
    state := s }

/-- `k_driver_write` does not look at what is written. -/
def kDriverWrite (count : Nat) (s : Sensor) : FileOp Sensor := ⟨count, 0, [], false, s⟩

inductive TempAttr where
  | notify
  | trigger
  | useDma
deriving DecidableEq, Repr

def Sensor.value (s : Sensor) : TempAttr → Int
  | .notify => s.notify
  | .trigger => s.trigger
  | .useDma => s.useDma

def pageSize : Nat := 4096

/-- `show`: the text of an attribute. -/
def showAttr (attr : TempAttr) (s : Sensor) : CString :=
  snprintf pageSize (temperatureText (s.value attr))

/-- `store`: the value is kept when the text is no number. -/
def storeAttr (attr : TempAttr) (buf : CString) (s : Sensor) : Sensor :=
  let value := (scanInt buf).getD (s.value attr)
  match attr with
  | .notify => { s with notify := value }
  | .trigger => { s with trigger := value }
  | .useDma => { s with useDma := value, dmaMode := value }

def workqueueFn (r : SpiRead) (s : Sensor) : Sensor :=
  { s with notify := readTemperature s.dmaMode s.calibration r }

/-- `toy_temp` of the command line, on what it reads from the attribute. -/
def toyTemp (text : CString) : Option ℚ := scanFloat (stringAt (text.take 99))

end SensorSpi
end LinuxLab
