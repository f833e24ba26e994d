import Rvmi.Isa.SizeFields
import Rvmi.Isa.Expansion
import Rvmi.Isa.Failures
import Rvmi.Isa.NormalForm
import Rvmi.Isa.TokenOrder
import Rvmi.Log.Carry
import Rvmi.Log.Names
import Rvmi.Elf.StopLabel
import Rvmi.Elf.Partial
import Rvmi.Launch.Verdict
import Rvmi.Launch.Interrupt
import Rvmi.Launch.Simulators
import Rvmi.Launch.LogIndependence
import Rvmi.Launch.Played
import Rvmi.Launch.Outputs
import Rvmi.Launch.Transcript
import Rvmi.Launch.InterruptProgram
import Rvmi.Launch.Traced
