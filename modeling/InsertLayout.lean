import InsertLayout.Main
import InsertLayout.Proofs.Seek
import InsertLayout.Proofs.Split
import InsertLayout.Proofs.Parts
import InsertLayout.Proofs.Rows
import InsertLayout.Proofs.Locate
import InsertLayout.Proofs.Cells
import InsertLayout.Proofs.Sound
import InsertLayout.Proofs.Layout
import InsertLayout.Proofs.Reparse
import InsertLayout.Proofs.Idempotence
import InsertLayout.Proofs.Reading
import InsertLayout.Proofs.Squeeze
import InsertLayout.Proofs.Conservation
import InsertLayout.Proofs.StatementEnd
import InsertLayout.Proofs.Compose
import InsertLayout.Proofs.Rewrap
import InsertLayout.Proofs.Literals
import InsertLayout.Proofs.Alike
import InsertLayout.Proofs.TwoRuns
import InsertLayout.Proofs.Splice
import InsertLayout.Proofs.Selection
import InsertLayout.Proofs.Events
import InsertLayout.Proofs.Session
import InsertLayout.Proofs.Outline
import InsertLayout.Proofs.PathOrder
import InsertLayout.Proofs.Resolution
import InsertLayout.Proofs.Reach
import InsertLayout.Proofs.Walk
import InsertLayout.Proofs.Arguments
import InsertLayout.Proofs.Execution
import InsertLayout.Proofs.Prediction
import InsertLayout.Proofs.Effects
import InsertLayout.Proofs.Alignment
import InsertLayout.Proofs.Places
import InsertLayout.Proofs.OneScan
import InsertLayout.Proofs.Spanned
import InsertLayout.Proofs.Cuts
import InsertLayout.Proofs.Outcome
import InsertLayout.Proofs.Utf8
import InsertLayout.Proofs.Occurrences
import InsertLayout.Proofs.Accepted
import InsertLayout.Proofs.Offsets.Search
import InsertLayout.Proofs.Offsets.Statement
import InsertLayout.Proofs.Offsets.Document
