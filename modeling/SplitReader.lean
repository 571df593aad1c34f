import SplitReader.Codec
import SplitReader.Main
import SplitReader.Proofs.ByteStrings
import SplitReader.Proofs.HasNext
import SplitReader.Proofs.HeldReports
import SplitReader.Proofs.Independence
import SplitReader.Proofs.ItemAcceptance
import SplitReader.Proofs.ItemJson
import SplitReader.Proofs.ItemRoundTrip
import SplitReader.Proofs.JsonText
import SplitReader.Proofs.JsonWritten
import SplitReader.Proofs.LineFleet
import SplitReader.Proofs.LineRange
import SplitReader.Proofs.LineRetry
import SplitReader.Proofs.LineText
import SplitReader.Proofs.QuietExecution
import SplitReader.Proofs.ReadEnd
import SplitReader.Proofs.Reassembly
import SplitReader.Proofs.RecordExecution
import SplitReader.Proofs.RecordFleet
import SplitReader.Proofs.RecordHistory
import SplitReader.Proofs.ReportOrder
import SplitReader.Proofs.Separation
import SplitReader.Proofs.SplitRace
import SplitReader.Proofs.TextReader
import SplitReader.TrackerHistory
import SplitReader.Wire.Binary
import SplitReader.Work.ItemBinary
import SplitReader.Proofs.ObserverTotals
import SplitReader.Proofs.FinishedRead
import SplitReader.Proofs.OpenedCursor
import SplitReader.Proofs.ChangedLength
import SplitReader.Proofs.PrefixCode
import SplitReader.Proofs.ProgressBinary
import SplitReader.Proofs.ProgressJson
import SplitReader.Proofs.JsonSpelling
import SplitReader.Proofs.JsonMembers
import SplitReader.Proofs.ItemSpelling
import SplitReader.Proofs.SplitDecision
import SplitReader.Proofs.TrackerRuns
import SplitReader.Proofs.RunLength
import SplitReader.Proofs.Resolution
import SplitReader.Proofs.SafeReads
import SplitReader.Proofs.Consumption
import SplitReader.Proofs.TextCodec
import SplitReader.Proofs.PositionOrder
import SplitReader.Proofs.FaultyReads
