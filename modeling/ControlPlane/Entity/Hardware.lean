import ControlPlane.Json.Record

/-!
# Hardware of a node

What a node declares about its memory, its storage and its compute devices. The control plane keeps
these records and hands them out; it does not interpret them.
-/

namespace ControlPlane

/-! ## Memory -/

/-- The kind of a node's memory. -/
inductive MemoryKind where
  | unknown
  | ddr3
  | ddr4
  | ddr5
  | lpddr3
  | lpddr4
  | lpddr4x
  | lpddr5
  | lpddr5x
  deriving DecidableEq, Repr

/-- The kinds of memory by name. -/
def MemoryKind.names : List (String × MemoryKind) :=
  [("unknown", .unknown), ("ddr3", .ddr3), ("ddr4", .ddr4), ("ddr5", .ddr5), ("lpddr3", .lpddr3),
    ("lpddr4", .lpddr4), ("lpddr4x", .lpddr4x), ("lpddr5", .lpddr5), ("lpddr5x", .lpddr5x)]

/-- The name of a kind of memory. -/
def MemoryKind.name : MemoryKind → String
  | .unknown => "unknown"
  | .ddr3 => "ddr3"
  | .ddr4 => "ddr4"
  | .ddr5 => "ddr5"
  | .lpddr3 => "lpddr3"
  | .lpddr4 => "lpddr4"
  | .lpddr4x => "lpddr4x"
  | .lpddr5 => "lpddr5"
  | .lpddr5x => "lpddr5x"

/-- Kinds of memory as text. -/
def MemoryKind.codec : Codec MemoryKind :=
  .enumeration names name

/-- The memory of a node. -/
structure Memory where
  total : UInt64 := 0
  free : UInt64 := 0
  used : UInt64 := 0
  kind : MemoryKind := .unknown
  deriving DecidableEq, Repr

namespace Memory

/-- Memory as text. -/
def codec : Codec Memory :=
  .record "MemoryInfo"
    (.cons (.required "total" .u64) <| .cons (.required "free" .u64) <|
      .cons (.required "used" .u64) <| .cons (.orElse "type" .unknown MemoryKind.codec) .nil)
    (fun (total, free, used, kind, ()) => ⟨total, free, used, kind⟩)
    (fun m => (m.total, m.free, m.used, m.kind, ()))

end Memory

/-! ## Storage -/

/-- The storage of a node. -/
structure Storage where
  total : UInt64 := 0
  free : UInt64 := 0
  used : UInt64 := 0
  readSpeed : UInt64 := 0
  writeSpeed : UInt64 := 0
  deriving DecidableEq, Repr

/-- Storage as text. -/
def Storage.codec : Codec Storage :=
  .record "StorageInfo"
    (.cons (.required "total" .u64) <| .cons (.required "free" .u64) <|
      .cons (.required "used" .u64) <| .cons (.orElse "read_speed" 0 .u64) <|
      .cons (.orElse "write_speed" 0 .u64) .nil)
    (fun (total, free, used, readSpeed, writeSpeed, ()) =>
      ⟨total, free, used, readSpeed, writeSpeed⟩)
    (fun s => (s.total, s.free, s.used, s.readSpeed, s.writeSpeed, ()))

/-! ## Compute devices -/

/-- The kind of a compute device. -/
inductive DeviceKind where
  | cpu
  | gpu
  | npu
  | tpu
  | dsp
  | vpu
  | fpga
  | integratedGpu
  deriving DecidableEq, Repr

/-- The kinds of devices by name. -/
def DeviceKind.names : List (String × DeviceKind) :=
  [("cpu", .cpu), ("gpu", .gpu), ("npu", .npu), ("tpu", .tpu), ("dsp", .dsp), ("vpu", .vpu),
    ("fpga", .fpga), ("integrated_gpu", .integratedGpu)]

/-- The name of a kind of device. -/
def DeviceKind.name : DeviceKind → String
  | .cpu => "cpu"
  | .gpu => "gpu"
  | .npu => "npu"
  | .tpu => "tpu"
  | .dsp => "dsp"
  | .vpu => "vpu"
  | .fpga => "fpga"
  | .integratedGpu => "integrated_gpu"

/-- Kinds of devices as text. -/
def DeviceKind.codec : Codec DeviceKind :=
  .enumeration names name

/-- A compute device of a node. -/
structure Device where
  kind : DeviceKind
  vendor : String := ""
  model : String := ""
  memoryMb : UInt64 := 0
  computeUnits : UInt32 := 0
  tops : Double := .zero false
  powerDrawWatts : Option UInt32 := none
  isAvailable : Bool := true
  deriving DecidableEq, Repr

/-- Compute devices as text. -/
def Device.codec : Codec Device :=
  .record "ComputeDevice"
    (.cons (.required "type" DeviceKind.codec) <| .cons (.orElse "vendor" "" .string) <|
      .cons (.orElse "model" "" .string) <| .cons (.orElse "memory_mb" 0 .u64) <|
      .cons (.orElse "compute_units" 0 .u32) <| .cons (.orElse "tops" (.zero false) .double) <|
      .cons (.optional "power_draw_watts" .u32) <| .cons (.orElse "is_available" true .bool) .nil)
    (fun (kind, vendor, model, memoryMb, computeUnits, tops, powerDrawWatts, isAvailable, ()) =>
      ⟨kind, vendor, model, memoryMb, computeUnits, tops, powerDrawWatts, isAvailable⟩)
    (fun d => (d.kind, d.vendor, d.model, d.memoryMb, d.computeUnits, d.tops, d.powerDrawWatts,
      d.isAvailable, ()))

/-! ## All of it -/

/-- The hardware that a node declares. -/
structure Capabilities where
  memory : Memory := {}
  storage : Storage := {}
  devices : List Device := []
  deriving DecidableEq, Repr

/-- Capabilities as text. -/
def Capabilities.codec : Codec Capabilities :=
  .record "ResourceCapabilities"
    (.cons (.orElse "memory" {} Memory.codec) <| .cons (.orElse "storage" {} Storage.codec) <|
      .cons (.orElse "compute_devices" [] (.list Device.codec)) .nil)
    (fun (memory, storage, devices, ()) => ⟨memory, storage, devices⟩)
    (fun c => (c.memory, c.storage, c.devices, ()))

end ControlPlane
