import SumExpr.Catalog
import SumExpr.Main
import SumExpr.Member
import SumExpr.Scan.Record
import SumExpr.Session
import SumExpr.Table.Workbench
import SumExpr.Proofs.Arguments.Event
import SumExpr.Proofs.Arguments.Items
import SumExpr.Proofs.Arguments.Parts
import SumExpr.Proofs.Arguments.Phrase
import SumExpr.Proofs.Atom
import SumExpr.Proofs.Limit
import SumExpr.Proofs.Matrix
import SumExpr.Proofs.Report
import SumExpr.Proofs.Report.ReadBack
import SumExpr.Proofs.Scan.Basic
import SumExpr.Proofs.Scan.Grammar
import SumExpr.Proofs.Scan.Kind
import SumExpr.Proofs.Scan.Mistake
import SumExpr.Proofs.Scan.Residual
import SumExpr.Proofs.Scan.Split
import SumExpr.Proofs.Session.Agreement
import SumExpr.Proofs.Session.Delivery
import SumExpr.Proofs.Session.History
import SumExpr.Proofs.Session.LineByLine
import SumExpr.Proofs.Session.Outcome
import SumExpr.Proofs.Session.Reading
import SumExpr.Proofs.Session.Refusal
import SumExpr.Proofs.Session.Verbosity
import SumExpr.Proofs.Table.Basic
import SumExpr.Proofs.Table.Change
import SumExpr.Proofs.Table.Check
import SumExpr.Proofs.Table.Desk
import SumExpr.Proofs.Table.Entries
import SumExpr.Proofs.Table.History
import SumExpr.Proofs.Table.InPlace
import SumExpr.Proofs.Table.Order
import SumExpr.Proofs.Table.Run
import SumExpr.Proofs.Table.Site
import SumExpr.Proofs.Table.Stop
import SumExpr.Proofs.Table.Walk
import SumExpr.Proofs.Text.Returns
import SumExpr.Proofs.Text.Segments
import SumExpr.Proofs.Text.Utf8
