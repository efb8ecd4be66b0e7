import Aitsm.Firmware.Sparkplug

/-!
# Measuring (`sensor.c` and `measurement_source.c`)

Both firmware versions measure in the same way; only the Original asks for the battery
device each time. What the modem and the battery answer is a `Readout`. The numbers are
those of the C code: the milliseconds are divided towards zero, and the temperature is
multiplied in 32 bits.
-/

namespace Aitsm

/-- The answers to one measurement; an error is a negative number. -/
structure Readout where
  /-- `device_is_ready` -/
  batteryReady : Bool := true
  /-- `date_time_now`, in milliseconds -/
  timestampMs : Except ℤ Int64
  /-- `modem_info_get_temperature` -/
  temperatureCelsius : Except ℤ Int32
  /-- `sensor_sample_fetch` and `sensor_channel_get`, in millivolts -/
  voltageMv : Except ℤ Int64

/-- `BATTERY_EMPTY_MV`. -/
def batteryEmptyMv : Int64 := 3200

/-- `BATTERY_FULL_MV`. -/
def batteryFullMv : Int64 := 4200

/-- `battery_percent_from_voltage`. -/
def batteryPercentFromVoltage (voltageMv : Int64) : UInt16 :=
  if voltageMv ≤ batteryEmptyMv then 0
  else if batteryFullMv ≤ voltageMv then 10000
  else ((voltageMv - batteryEmptyMv) * 10000 / (batteryFullMv - batteryEmptyMv)).toUInt64.toUInt16

/-- `aitsm_sensor_read`. -/
def sensorRead (readout : Readout) : Except ℤ Measurement := do
  let timestampMs ← readout.timestampMs
  let temperatureCelsius ← readout.temperatureCelsius
  let voltageMv ← readout.voltageMv
  return {
    timestamp := timestampMs / 1000
    temperatureCentiCelsius := temperatureCelsius * 100
    batteryCentiPercent := batteryPercentFromVoltage voltageMv }

end Aitsm
