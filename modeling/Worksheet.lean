import Worksheet.Address.Order
import Worksheet.Binary64.Numeral
import Worksheet.Session
import Worksheet.Format.Nonfinite
import Worksheet.Proofs.Traced
import Worksheet.Proofs.Traversal
import Worksheet.Proofs.Mapping
import Worksheet.Proofs.Table
import Worksheet.Proofs.Selection
import Worksheet.Proofs.Extraction.Reference
import Worksheet.Proofs.Extraction.Locality
import Worksheet.Proofs.Leniency
import Worksheet.Proofs.Extraction.Stepwise
import Worksheet.Proofs.Decimal
import Worksheet.Proofs.Extraction.Leniency
import Worksheet.Proofs.Format.Layout
import Worksheet.Proofs.Format.Fraction
import Worksheet.Proofs.Format.Scientific
import Worksheet.Proofs.Format.NegativeSection
import Worksheet.Proofs.Column
import Worksheet.Proofs.Address.Reference
import Worksheet.Proofs.Address.Order
import Worksheet.Proofs.Reports
import Worksheet.Proofs.Session
import Worksheet.Proofs.Nesting
import Worksheet.Proofs.Binary64
import Worksheet.Proofs.Serial
import Worksheet.Proofs.Calendar
import Worksheet.Proofs.Format.DateText
import Worksheet.Proofs.Format.Number
import Worksheet.Proofs.Approximation
import Worksheet.Proofs.Exactness
import Worksheet.Proofs.Numeral
import Worksheet.Proofs.Significant
import Worksheet.Proofs.Format.General
import Worksheet.Proofs.Format.Filling
import Worksheet.Proofs.Format.Fixed
import Worksheet.Proofs.Format.Normalized
import Worksheet.Proofs.Format.Mixed
import Worksheet.Proofs.Format.Denominator
import Worksheet.Proofs.Format.Brackets
import Worksheet.Proofs.Format.LeadingPoint
import Worksheet.Proofs.Format.Literal
import Worksheet.Proofs.Format.QuotedText
import Worksheet.Proofs.Format.Surroundings
import Worksheet.Proofs.Format.Scan
import Worksheet.Proofs.Format.Rounded
import Worksheet.Proofs.Format.Scaling
import Worksheet.Proofs.Format.Grouping
import Worksheet.Proofs.Format.Cells
import Worksheet.Proofs.Format.Insertion
import Worksheet.Proofs.Address.Offset
import Worksheet.Proofs.Bounds
import Worksheet.Proofs.Format.Escaped
import Worksheet.Proofs.Format.SingleSection
import Worksheet.Proofs.Column.Order
import Worksheet.Proofs.Serial.Order
import Worksheet.Proofs.Format.DateScan
import Worksheet.Proofs.Format.DateKept
import Worksheet.Proofs.Format.MonthMinute
import Worksheet.Proofs.Numeral.Grammar
import Worksheet.Proofs.Extraction.SharedString
import Worksheet.Proofs.Session.Prefixes
import Worksheet.Proofs.Format.Visible
import Worksheet.Proofs.Format.Cleaning
import Worksheet.Proofs.Format.NumberPiece
import Worksheet.Proofs.Format.FilledTokens
import Worksheet.Proofs.DecimalPlaces
