import Zapper.Tables

/-!
# The requests to the graphics controller

The functions by which the other threads tell the graphics controller what to draw
(`graphics_controller.c`). Each is one critical section of `render_fnp_mutex`. Drawing itself is
not modelled: of the program list, the render loop reads `program_list[i]` for
`i < program_count` while `print_prog_list` is set.
-/

namespace Zapper

open Memory

/-- `flags_and_params`; the fields that are only ever `0` or `1` are `Bool`. -/
structure FlagsAndParams where
  wait : Bool
  programCount : ℕ
  radioProgram : Bool
  volume : ℕ
  orderProgNum : ℕ
  hasTeletext : Bool
  progNum : ℕ
  audioPid : ℕ
  videoPid : ℕ
  printVolume : Bool
  printProgNum : Bool
  printInfoBanner : Bool
  printProgList : Bool
  volumeKeypress : Bool
  progNumKeypress : Bool
  infoBannerKeypress : Bool
  deriving DecidableEq

/-- `render_fnp` and the list to print, which is reached through `program_list`. -/
structure Graphics where
  renderFnp : FlagsAndParams
  programList : Block ServiceInfo

namespace Graphics

/-- Static memory. -/
def zero : Graphics where
  renderFnp := ⟨false, 0, false, 0, 0, false, 0, 0, 0, false, false, false, false, false, false,
    false⟩
  programList := malloc (fun _ => default) 0

/-- `print_volume`: the level is stored in a `uint8_t`. -/
def printVolume (volume : ℕ) (g : Graphics) : Graphics :=
  { g with renderFnp := { g.renderFnp with
      volume := volume % 2 ^ 8
      printVolume := true
      volumeKeypress := true } }

/-- `print_prog_num`: the callback that announces a program. -/
def printProgNum (progNum : ℕ) (radio : Bool) (g : Graphics) : Graphics :=
  { g with renderFnp := { g.renderFnp with
      radioProgram := radio
      orderProgNum := progNum
      printProgNum := true
      progNumKeypress := true
      wait := false } }

/-- `print_info_banner`. -/
def printInfoBanner (progNum audioPid videoPid : ℕ) (ttx : Bool) (g : Graphics) : Graphics :=
  { g with renderFnp := { g.renderFnp with
      hasTeletext := ttx
      progNum := progNum
      audioPid := audioPid
      videoPid := videoPid
      printInfoBanner := true
      infoBannerKeypress := true
      printProgNum := true
      progNumKeypress := true } }

/-- `print_black_screen`. -/
def printBlackScreen (g : Graphics) : Graphics :=
  { g with renderFnp := { g.renderFnp with
      wait := true
      printProgList := false
      printProgNum := false
      printInfoBanner := false
      printVolume := false } }

/-- `print_prog_list`: the list is shown from where it lies, it is not copied. -/
def printProgList (serviceList : Block ServiceInfo) (count : ℕ) (g : Graphics) : Graphics where
  renderFnp := { g.renderFnp with programCount := count, printProgList := true }
  programList := serviceList

/-- `remove_prog_list`. -/
def removeProgList (g : Graphics) : Graphics :=
  { g with renderFnp := { g.renderFnp with printProgList := false } }

end Graphics

end Zapper
