import SqlScript.Archive.Pool
import SqlScript.Config.Printer
import SqlScript.Connection.Recorded
import SqlScript.Connection.Scripted
import SqlScript.Main
import SqlScript.Script.Label
import SqlScript.Scan.Token
import SqlScript.Proofs.Archive.Filings
import SqlScript.Proofs.Archive.Length
import SqlScript.Proofs.Archive.Listing
import SqlScript.Proofs.Archive.Parallel
import SqlScript.Proofs.Archive.Reopen
import SqlScript.Proofs.Command.Overriding
import SqlScript.Proofs.Config.RoundTrip
import SqlScript.Proofs.Connection.Agreement
import SqlScript.Proofs.Connection.Budget
import SqlScript.Proofs.Connection.Calls
import SqlScript.Proofs.Connection.Exchange
import SqlScript.Proofs.Connection.Steady
import SqlScript.Proofs.Delimited
import SqlScript.Proofs.Json.Layout
import SqlScript.Proofs.Json.Numeral
import SqlScript.Proofs.Json.Quoted
import SqlScript.Proofs.Json.Reader
import SqlScript.Proofs.Retry.Calls
import SqlScript.Proofs.Retry.Exhausted
import SqlScript.Proofs.Retry.Report
import SqlScript.Proofs.Retry.Residue
import SqlScript.Proofs.Retry.Rounds
import SqlScript.Proofs.Retry.Units
import SqlScript.Proofs.Runner.Aborted
import SqlScript.Proofs.Runner.Accounting
import SqlScript.Proofs.Runner.Calls
import SqlScript.Proofs.Runner.Counts
import SqlScript.Proofs.Runner.Exclusion
import SqlScript.Proofs.Runner.FirstRound
import SqlScript.Proofs.Runner.Passes
import SqlScript.Proofs.Runner.Prepared
import SqlScript.Proofs.Runner.Settled
import SqlScript.Proofs.Runner.Stripped
import SqlScript.Proofs.Runner.Trail
import SqlScript.Proofs.Scan.Concat
import SqlScript.Proofs.Scan.Content
import SqlScript.Proofs.Scan.Ends
import SqlScript.Proofs.Scan.Grammar
import SqlScript.Proofs.Scan.Opaque
import SqlScript.Proofs.Scan.Rejoin
import SqlScript.Proofs.Scan.Shape
import SqlScript.Proofs.Scan.Silent
import SqlScript.Proofs.Scan.Simple
import SqlScript.Proofs.Scan.Unit
