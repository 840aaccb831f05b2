import EnetTcp.Config

/-!
# The state of the daemon

A data item meets the daemon's state at three moments: its constructor runs in
a receiver thread, its `Go` runs in the action thread, and its reply payload is
built when the message is sent.

* `Globals`: what a constructor can reach.
* `Machine`: what a `Go` can reach. The claim on the ADC stream is not part of
  it: only a constructor and the streaming worker touch it.
* `Platform`: what the daemon finds fixed around it.
-/

namespace EnetTcp

/-- The globals that data item constructors read and write. -/
structure Globals where
  Config : TConfig
  /-- The connection that has claimed the ADC stream, -1 when there is none. -/
  AdcStreamingConnection : Int32
  deriving DecidableEq

/-- The `std::ofstream` and the file name that the upload items share. -/
structure Upload where
  is_open : Bool := false
  fail : Bool := false
  filename : TBytes := []
  deriving DecidableEq

/-- The state that a `Go` works on. -/
structure Machine (ε : Type) where
  Config : TConfig
  done : Bool := false
  AdcStreamTerminate : Bool := false
  AdcWorkerThreadID : Int := -1
  upload : Upload := {}
  sys : Sys ε

/-- What does not change while the daemon runs: the memory behind the table of
message ids, the working directory, what the target makes of NaN, and the fuel
that loops without a bound of their own get. -/
structure Platform where
  /-- The bytes that follow the seven entries of `ValidMessageIDs` in memory. -/
  pastMessageIDs : Nat → UInt8
  currentPath : TBytes
  /-- `static_cast<__u16>(std::lround(NAN))`; the standard leaves it open. -/
  lroundNaN : UInt16
  fuel : Nat

/-- A platform for concrete runs. -/
def exPlatform : Platform where
  pastMessageIDs _ := 81
  currentPath := text "/root"
  lroundNaN := 0
  fuel := 8

/-- The globals of a daemon that has just started. -/
def exGlobals : Globals := { Config := InitConfig, AdcStreamingConnection := -1 }

section

variable {ε α : Type}

/-- Run a program that talks to the outside only. -/
def io (p : Prog Exn (Sys ε) α) : Prog Exn (Machine ε) α :=
  p.zoom Machine.sys fun s m => { m with sys := s }

end

end EnetTcp
