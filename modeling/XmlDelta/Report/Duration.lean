import XmlDelta.Number.Binary64
import XmlDelta.Compare.Results

set_option autoImplicit false

namespace XmlDelta.Report

open XmlDelta.Compare (Micros)
open XmlDelta.Number

def microsPerSecond : Nat := 1000000

def seconds (d : Micros) : Option Binary64 := do
  let whole ← Binary64.ofNat (d / microsPerSecond)
  let fraction ← Binary64.ofRatio (d % microsPerSecond) microsPerSecond
  whole.add fraction

def milliseconds (d : Micros) : Nat :=
  d / 1000

def minutesText (s : Binary64) : String :=
  let minutes := ((Binary64.ofNat 60).bind s.div).map Binary64.floor
  let (n, d) := s.modNat 60
  Nat.repr (minutes.getD 0) ++ "m" ++ fixedDecimal 1 n d ++ "s"

def durationText (d : Micros) : String :=
  if d < microsPerSecond then Nat.repr (milliseconds d) ++ "ms"
  else
    let s := (seconds d).getD Binary64.zero
    if d < 60 * microsPerSecond then fixedDecimal 2 s.ratio.1 s.ratio.2 ++ "s" else minutesText s

end XmlDelta.Report
