import DirectionField.CommandLine.Run
import DirectionField.Form.Text
import DirectionField.Main
import DirectionField.Proofs.Except
import DirectionField.Proofs.Grammar
import DirectionField.Proofs.GrammarComplete
import DirectionField.Proofs.ParseCorrect
import DirectionField.Proofs.Report
import DirectionField.Proofs.SessionStep
import DirectionField.Proofs.SessionHistory
import DirectionField.Proofs.Broadcast
import DirectionField.Proofs.Elementwise
import DirectionField.Proofs.FieldSampling
import DirectionField.Proofs.DecimalCorrect
import DirectionField.Proofs.FloatBits
import DirectionField.Proofs.NumeralText
import DirectionField.Proofs.NumberText
import DirectionField.Proofs.ParsedTree
import DirectionField.Proofs.CanonicalText
import DirectionField.Proofs.WalkOutcome
import DirectionField.Proofs.EulerRecurrence
import DirectionField.Proofs.VocabularyLookup
import DirectionField.Proofs.CompileFailure
import DirectionField.Proofs.FloatKinds
import DirectionField.Proofs.TraceOutcome
import DirectionField.Proofs.JsonText
import DirectionField.Proofs.SummaryNumbers
import DirectionField.Proofs.CanonicalMeaning
import DirectionField.Proofs.EventLog
import DirectionField.Proofs.PhaseTrace
import DirectionField.Proofs.GraphOutcome
import DirectionField.Proofs.ScanAppend
import DirectionField.Proofs.Composition
import DirectionField.Proofs.FloatOrder
import DirectionField.Proofs.TreeSize
import DirectionField.Proofs.ArrayEvaluation
import DirectionField.Proofs.NumeralReading
import DirectionField.Proofs.ErrorPosition
import DirectionField.Proofs.LatticeSpan
import DirectionField.Proofs.StepCount
import DirectionField.Proofs.WalkPrefix
import DirectionField.Proofs.NonfiniteOrdinates
import DirectionField.Proofs.Declarations
import DirectionField.Proofs.SignatureAgreement
import DirectionField.Proofs.CanonicalTokens
import DirectionField.Proofs.SegmentPlaces
import DirectionField.Proofs.SegmentExtent
import DirectionField.Proofs.MovedTokens
import DirectionField.Proofs.TextLayout
import DirectionField.Proofs.Listing
import DirectionField.Proofs.LongestLexeme
import DirectionField.Proofs.Tiling
import DirectionField.Proofs.VocabularyAnswers
