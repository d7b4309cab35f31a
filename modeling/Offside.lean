import Offside.Main
import Offside.Proofs.SessionRun
import Offside.Proofs.MeasureRun
import Offside.Proofs.TabStops
import Offside.Proofs.LineReading
import Offside.Proofs.WidthsDecide
import Offside.Proofs.BlockRun
import Offside.Proofs.BlockStructure
import Offside.Proofs.LineStarts
import Offside.Proofs.ReachedStates
import Offside.Proofs.Snapshots
import Offside.Proofs.LineOutcome
import Offside.Proofs.ClampedWidths
import Offside.Proofs.EventLines
import Offside.Proofs.LexemeTiling
import Offside.Proofs.LexemeJoin
import Offside.Proofs.StateBuffer
import Offside.Proofs.StackCalls
import Offside.Proofs.JsonReading
import Offside.Proofs.LastLayerWins
import Offside.Proofs.FlagSettings
import Offside.Proofs.OverrideOrder
import Offside.Proofs.LeafOrder
import Offside.Proofs.CommandOutcome
import Offside.Proofs.SparedSettings
import Offside.Proofs.TabWidthRange
import Offside.Proofs.ColumnLimit
import Offside.Proofs.CounterBounds
