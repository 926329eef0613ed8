import Mathlib

/-!
What every forwarder of the repository shares: byte streams, the size given to
`read`, and the line that is logged whenever the running total reaches a whole
number of megabytes.
-/
namespace ByteStream

abbrev Bytes := List UInt8

/-- The argument of every `reader.read(8192)`. -/
def readSize : Nat := 8192

def megabyte : Nat := 1024 * 1024

/-- `if total_bytes % (1024 * 1024) == 0`: the number of megabytes that the line reports. -/
def progressLine (totalBytes : Nat) : Option Nat :=
  if totalBytes % megabyte = 0 then some (totalBytes / megabyte) else none

def logProgress (lines : List Nat) (totalBytes : Nat) : List Nat :=
  lines ++ (progressLine totalBytes).toList

end ByteStream
