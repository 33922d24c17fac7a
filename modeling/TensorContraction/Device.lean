import TensorContraction.SafeName

/-!
# Devices

A problem is bound to a **profile**: the list of devices that it is meant to run
on. A device has a name and three figures – compute units, clock, operations per
clock – from which its peak throughput follows. The device named `cpu` stands for
the reference implementation, which needs no figures.

Profiles are totally ordered, by the number of devices first and then device by
device; devices by name, code point by code point, and then by their figures in
the order above.
-/

namespace TensorContraction

/-! ### Devices -/

/-- A compute device. -/
structure Device where
  /-- The name, any text. -/
  name : String
  /-- How many compute units the device has. -/
  computeUnits : UInt32
  /-- The clock frequency in MHz. -/
  clockMHz : UInt32
  /-- The floating-point operations of one unit in one clock cycle. -/
  flopsPerClock : UInt32
deriving DecidableEq, Hashable

namespace Device

/-- The name of the device that runs the reference implementation. -/
def referenceName : String := "cpu"

/-- The device that runs the reference implementation. -/
def reference : Device :=
  ⟨referenceName, 1, 0, 0⟩

/-- The peak throughput in GFLOP/s: units times clock times operations per clock,
over a thousand. Each of the three steps is rounded. -/
def peakGflops (d : Device) : Float :=
  d.computeUnits.toFloat * d.clockMHz.toFloat * d.flopsPerClock.toFloat / 1000.0

/-- The same device under a safe name. -/
def withSafeName (d : Device) : Device :=
  { d with name := safeName d.name }

/-- Devices are ordered by name, units, clock and operations per clock. -/
instance : Ord Device :=
  ⟨compareLex (compareOn Device.name)
    (compareLex (compareOn Device.computeUnits)
      (compareLex (compareOn Device.clockMHz) (compareOn Device.flopsPerClock)))⟩

instance : Std.TransOrd Device :=
  inferInstanceAs (Std.TransCmp (compareLex (compareOn Device.name)
    (compareLex (compareOn Device.computeUnits)
      (compareLex (compareOn Device.clockMHz) (compareOn Device.flopsPerClock)))))

instance : Std.LawfulEqOrd Device where
  eq_of_compare {x y} h := by
    obtain ⟨hname, h⟩ := compareLex_eq_eq.1 h
    obtain ⟨hunits, h⟩ := compareLex_eq_eq.1 h
    obtain ⟨hclock, hflops⟩ := compareLex_eq_eq.1 h
    cases x
    cases y
    cases Std.LawfulEqOrd.eq_of_compare hname
    cases Std.LawfulEqOrd.eq_of_compare hunits
    cases Std.LawfulEqOrd.eq_of_compare hclock
    cases Std.LawfulEqOrd.eq_of_compare hflops
    rfl

end Device

/-! ### Profiles -/

/-- The devices that a problem is meant to run on. -/
structure DeviceProfile where
  /-- The devices, in order. -/
  devices : List Device
deriving DecidableEq, Hashable

namespace DeviceProfile

/-- A profile without devices, which is what a profile is unless devices are
named. -/
instance : Inhabited DeviceProfile := ⟨⟨[]⟩⟩

/-- How many devices a profile may hold, unless a validation says otherwise. -/
def maxDevices : Nat := 1

/-- The profile with the reference device alone. -/
def reference : DeviceProfile :=
  ⟨[Device.reference]⟩

/-- The number of devices. -/
def numDevices (p : DeviceProfile) : Nat :=
  p.devices.length

/-- Whether the first device is the one named for the reference
implementation. -/
def isReference (p : DeviceProfile) : Bool :=
  p.devices.head?.any fun device => device.name == Device.referenceName

/-- The safe names of the devices, joined by `_`: the name of a library that is
generated for the profile. -/
def libraryName (p : DeviceProfile) : String :=
  "_".intercalate (p.devices.map fun device => safeName device.name)

/-- The same profile with every device under a safe name. -/
def withSafeNames (p : DeviceProfile) : DeviceProfile :=
  ⟨p.devices.map Device.withSafeName⟩

/-- Profiles are ordered by the number of devices, then by the devices. -/
instance : Ord DeviceProfile :=
  ⟨compareLex (compareOn DeviceProfile.numDevices) (compareOn DeviceProfile.devices)⟩

instance : Std.TransOrd DeviceProfile :=
  inferInstanceAs (Std.TransCmp
    (compareLex (compareOn DeviceProfile.numDevices) (compareOn DeviceProfile.devices)))

instance : Std.LawfulEqOrd DeviceProfile where
  eq_of_compare {x y} h := by
    obtain ⟨-, hdevices⟩ := compareLex_eq_eq.1 h
    cases x
    cases y
    cases Std.LawfulEqOrd.eq_of_compare hdevices
    rfl

end DeviceProfile

end TensorContraction
