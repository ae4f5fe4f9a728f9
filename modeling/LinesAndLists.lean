import LinesAndLists.Chain.Store
import LinesAndLists.Grid.Request
import LinesAndLists.Main
import LinesAndLists.Proofs.Exactness
import LinesAndLists.Proofs.LinePrinting
import LinesAndLists.Proofs.Reading
import LinesAndLists.Proofs.Spelling
import LinesAndLists.Proofs.Spreading
import LinesAndLists.Proofs.ListPrinting
import LinesAndLists.Proofs.Storing
import LinesAndLists.Proofs.ListCommand
import LinesAndLists.Proofs.LineCommand
import LinesAndLists.Proofs.Splitting
import LinesAndLists.Proofs.Halving
import LinesAndLists.Proofs.Ordering
import LinesAndLists.Proofs.Rendering
import LinesAndLists.Proofs.Searching
import LinesAndLists.Proofs.Traversing
import LinesAndLists.Proofs.Retracing
