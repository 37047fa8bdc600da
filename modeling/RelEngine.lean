import RelEngine.Main
import RelEngine.Proofs.Results
import RelEngine.Proofs.Reachability
import RelEngine.Proofs.StoreInvariant
import RelEngine.Proofs.StatementErrors
import RelEngine.Proofs.Delivery
import RelEngine.Proofs.Atomicity
import RelEngine.Proofs.CrossProduct
import RelEngine.Proofs.NameResolution
import RelEngine.Proofs.PrintedQuery
import RelEngine.Proofs.TreeGrammar
import RelEngine.Proofs.TreeRoundTrip
import RelEngine.Proofs.References
import RelEngine.Proofs.Lowering
import RelEngine.Proofs.ConditionMeaning
import RelEngine.Proofs.TableLayout
import RelEngine.Proofs.PickedRows
import RelEngine.Proofs.Transfers
import RelEngine.Proofs.History
import RelEngine.Proofs.CutOutput
import RelEngine.Proofs.PrintedStatements
import RelEngine.Proofs.Dump
import RelEngine.Proofs.QueryMismatches
import RelEngine.Proofs.NamedValues
import RelEngine.Proofs.SourceOrder
import RelEngine.Proofs.BatchRuns
import RelEngine.Proofs.Locality
import RelEngine.Proofs.JoinedTables
import RelEngine.Proofs.Numerals
import RelEngine.Proofs.InsertedRows
import RelEngine.Proofs.LineFeeds
import RelEngine.Proofs.StatementOutput
import RelEngine.Proofs.OutputLines
import RelEngine.Proofs.Dialogues
import RelEngine.Proofs.PartialOperations
import RelEngine.Proofs.Definedness
import RelEngine.Proofs.GivenLiterals
import RelEngine.Proofs.JoinedNames
import RelEngine.Proofs.FirstOccurrences
import RelEngine.Proofs.WholeRows
import RelEngine.Proofs.ListsAndConditions
import RelEngine.Proofs.CellColumns
import RelEngine.Proofs.AmbiguousOperands
import RelEngine.Proofs.TableLoading
import RelEngine.Proofs.ReadFaults
import RelEngine.Proofs.ColumnLists
import RelEngine.Proofs.KeywordCase
