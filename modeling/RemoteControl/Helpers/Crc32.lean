import RemoteControl.Std.Bytes

/-!
# CRC-32

The table-driven CRC of `crc32.cpp`, on 32-bit registers.
-/

namespace RemoteControl

/-- One of the eight shifts that fill a table entry. -/
def crcShift (c : BitVec 32) : BitVec 32 :=
  if c &&& 1 = 1 then 0xEDB88320 ^^^ (c >>> 1) else c >>> 1

/-- Entry `i` of `kTable`. -/
def kTable (i : BitVec 32) : BitVec 32 := (List.range 8).foldl (fun c _ => crcShift c) i

/-- The loop body: the register after one more byte. -/
def crcByte (crc : BitVec 32) (b : UInt8) : BitVec 32 :=
  kTable ((crc ^^^ b.toBitVec.setWidth 32) &&& 0xFF) ^^^ (crc >>> 8)

/-- `Crc32Update`. -/
def crc32Update (crc : BitVec 32) (data : Bytes) : BitVec 32 :=
  data.foldl crcByte (crc ^^^ 0xFFFFFFFF) ^^^ 0xFFFFFFFF

example : crc32Update 0 (ascii "123456789") = 0xCBF43926 := by decide +kernel

end RemoteControl
