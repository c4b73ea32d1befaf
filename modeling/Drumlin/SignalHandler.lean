import Drumlin.ApplicationShutdown
import Drumlin.Metatypes

/-!
# Signals

`SignalHandler` (signalhandler.cpp) installs a handler for the signals of its mask.  The handler
punts a shutdown to the application, under the name of the signal.  Signals are numbered as on
Linux.
-/

namespace Drumlin

open ApplicationLoop MetaEnum

/-! ## The code -/

namespace SignalHandler

def sigHup : Int := 1
def sigInt : Int := 2
def sigSegv : Int := 11
def sigTerm : Int := 15

/-- `POSIX_logicalToPhysical`. -/
def logicalToPhysical (signal : Int) : Int :=
  if signal = 2 then sigInt
  else if signal = 4 then sigTerm
  else if signal = 8 then sigTerm
  else if signal = 16 then sigHup
  else if signal = 32 then sigSegv
  else -1

/-- `SignalHandler::numSignals`. -/
def numSignals : Nat := 5

/-- What the constructor does: the signals it installs its handler for, and what it logs where that
fails. -/
structure Installed where
  handled : List Int
  failed : List String
deriving DecidableEq, Repr

/-- One turn of the loop of `SignalHandler::SignalHandler`. -/
def install (mask : BitVec 32) (installed : Installed) (i : Nat) : Installed :=
  let logical := 1#32 <<< i
  if mask &&& logical ≠ 0 then
    let sig := logicalToPhysical logical.toNat
    if sig = -1 then
      { installed with
        failed := installed.failed ++
          [signalType.toString logical.toNat ++ "failed to assign handler."] }
    else { installed with handled := installed.handled ++ [sig] }
  else installed

/-- `SignalHandler::SignalHandler`. -/
def construct (mask : BitVec 32) : Installed :=
  (List.range numSignals).foldl (install mask) ⟨[], []⟩

/-- The locks that the handler takes: of the logger, of the application, in its queue, and those of
the libraries, such as that of `malloc`. -/
inductive Lock
  | logger | application | queue | library
deriving DecidableEq, Repr

variable {first last : Nat} {app later : ApplicationLoop}

end SignalHandler

end Drumlin
