import Mathlib.Data.List.Basic

/-!
# AmlService.Core.State

The AML005 settings held by the service (`core/state.c`): raw bytes, in the order of
the settings reply.
-/

namespace AmlService

/-- The last settings read or written; they mean nothing until `known`. -/
structure AmlState where
  known : Bool
  display : UInt8
  date : UInt8
  time : UInt8
  feedback : UInt8
  fade : UInt8
  deriving Repr, DecidableEq

/-- `state_init` -/
def stateInit : AmlState :=
  { known := false, display := 0, date := 0, time := 0, feedback := 0, fade := 0 }

/-- `state_update_settings`: every field is replaced. -/
def stateUpdateSettings (display date time feedback fade : UInt8) : AmlState :=
  { known := true, display, date, time, feedback, fade }

/-- Time mode `auto`, the first choice of `Settings/Time`. -/
def AmlState.auto (state : AmlState) : Bool := state.known && state.time == 0

end AmlService
