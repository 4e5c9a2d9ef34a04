import TabletopDice.Main
import TabletopDice.Record.Tool
import TabletopDice.Session
import TabletopDice.Proofs.Layout
import TabletopDice.Proofs.Numeral
import TabletopDice.Proofs.Traversal
import TabletopDice.Proofs.Term
import TabletopDice.Proofs.Grammar
import TabletopDice.Proofs.Canonical
import TabletopDice.Proofs.Plan
import TabletopDice.Proofs.Throw
import TabletopDice.Proofs.Refusal
import TabletopDice.Proofs.Answers
import TabletopDice.Proofs.Calls
import TabletopDice.Proofs.Account
import TabletopDice.Proofs.Range
import TabletopDice.Proofs.HalfEven
import TabletopDice.Proofs.Alignment
import TabletopDice.Proofs.Rounding
import TabletopDice.Proofs.Statistics
import TabletopDice.Proofs.Magnitude
import TabletopDice.Proofs.Fulfilment
import TabletopDice.Proofs.Agreement
import TabletopDice.Proofs.Output
import TabletopDice.Proofs.PieceAtFault
import TabletopDice.Proofs.Decimal
import TabletopDice.Proofs.PrintedMean
import TabletopDice.Proofs.Join
import TabletopDice.Proofs.Contrast
import TabletopDice.Proofs.Legible
import TabletopDice.Proofs.Explanation
import TabletopDice.Proofs.PlainOutput
import TabletopDice.Proofs.Addition
import TabletopDice.Proofs.Script
import TabletopDice.Proofs.Rearrangement
import TabletopDice.Proofs.Splitting
import TabletopDice.Proofs.Replay
import TabletopDice.Proofs.Priority
import TabletopDice.Proofs.Redundancy
import TabletopDice.Proofs.PairedDraws
import TabletopDice.Proofs.Log
import TabletopDice.Proofs.ErrorLines
import TabletopDice.Proofs.Pieces
import TabletopDice.Proofs.Labels
import TabletopDice.Proofs.Spelling
import TabletopDice.Proofs.Taking
import TabletopDice.Proofs.Exclusion
import TabletopDice.Proofs.Arrangement
