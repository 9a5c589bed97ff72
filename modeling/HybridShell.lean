import HybridShell.Main
import HybridShell.Proofs.AliasHeads
import HybridShell.Proofs.BareCommandLine
import HybridShell.Proofs.ChainBoundary
import HybridShell.Proofs.ChainRendering
import HybridShell.Proofs.CommandSearch
import HybridShell.Proofs.DecisionTextualScope
import HybridShell.Proofs.ErrorLines
import HybridShell.Proofs.FixedText
import HybridShell.Proofs.FloorDivision
import HybridShell.Proofs.InterruptDelivery
import HybridShell.Proofs.JobOperations
import HybridShell.Proofs.LexerContinuation
import HybridShell.Proofs.LoopEndsOfCalls
import HybridShell.Proofs.PipelineStatus
import HybridShell.Proofs.PlainTemplates
import HybridShell.Proofs.Representations
import HybridShell.Proofs.SplicedExpressions
import HybridShell.Proofs.StageWiring
import HybridShell.Proofs.StreamedLines
import HybridShell.Proofs.StrictUnits
import HybridShell.Proofs.UnfinishedUnits
import HybridShell.Proofs.UnitGrammar
import HybridShell.Proofs.ValueOrder
import HybridShell.Proofs.WordProduct
import HybridShell.Proofs.AliasStatus
