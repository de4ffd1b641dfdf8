import Dsp56300.Emu.MemoryPaths
import Dsp56300.Emu.PromotedRegisters
import Dsp56300.Disasm.Length
import Dsp56300.Asm.Resolve
import Dsp56300.Asm.Evaluators
import Dsp56300.Emu.Screening
import Dsp56300.Emu.BlockCycles
import Dsp56300.Emu.SaveRestore
import Dsp56300.Emu.FaultRuns
import Dsp56300.Emu.FaultArmSites
import Dsp56300.Emu.ModuloUpdate
import Dsp56300.Emu.DirtyRuns
import Dsp56300.Emu.CacheRuns
import Dsp56300.Emu.AccRounding
import Dsp56300.Emu.StackRuns
import Dsp56300.Emu.WaitWake
import Dsp56300.Emu.HardwareDo
import Dsp56300.Emu.BlockSkips
import Dsp56300.Emu.Limiting
import Dsp56300.Emu.RoundForms
import Dsp56300.Emu.ArithShifts
import Dsp56300.Emu.LogicalShifts
import Dsp56300.Emu.Normalize
import Dsp56300.Emu.Division
import Dsp56300.Emu.DoublePrecision
import Dsp56300.Emu.MultiplyForms
import Dsp56300.Emu.BitFieldOps
import Dsp56300.Emu.Compare
import Dsp56300.Emu.Maxima
import Dsp56300.Emu.SaturationExact
import Dsp56300.Emu.LongMoves
import Dsp56300.Asm.Leftover
import Dsp56300.Disasm.Sweep
import Dsp56300.Asm.Includes
import Dsp56300.Asm.SourceLines
import Dsp56300.Emu.CompiledBlocks
import Dsp56300.Emu.WidthRuns
import Dsp56300.Emu.WidthSteps
import Dsp56300.Emu.LazyFlags
import Dsp56300.Emu.LoadLod
import Dsp56300.Asm.Binary
