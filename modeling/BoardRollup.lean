import BoardRollup.Main
import BoardRollup.Proofs.Contributions
import BoardRollup.Proofs.CrossBoard
import BoardRollup.Proofs.Pass
import BoardRollup.Proofs.Repetition
import BoardRollup.Proofs.ByteOrder
import BoardRollup.Proofs.References
import BoardRollup.Proofs.Lookups
import BoardRollup.Proofs.Requests
import BoardRollup.Proofs.Batching
import BoardRollup.Proofs.WrittenStrings
import BoardRollup.Proofs.SortedFields
import BoardRollup.Proofs.Rollup
import BoardRollup.Proofs.Runs
import BoardRollup.Proofs.Stability
import BoardRollup.Proofs.LastTexts
import BoardRollup.Proofs.Positions
import BoardRollup.Proofs.FailedQueries
import BoardRollup.Proofs.RecordShape
import BoardRollup.Proofs.Loading
import BoardRollup.Proofs.Schema
import BoardRollup.Proofs.Wire
import BoardRollup.Proofs.KeptReferences
import BoardRollup.Proofs.BatchOrder
import BoardRollup.Proofs.DistinctKeys
import BoardRollup.Proofs.Rounding
import BoardRollup.Proofs.WrittenDecimals
import BoardRollup.Proofs.WrittenNumbers
import BoardRollup.Proofs.WrittenValues
import BoardRollup.Proofs.WrittenItems
import BoardRollup.Proofs.Envelopes
import BoardRollup.Proofs.Reports
import BoardRollup.Proofs.Stages
import BoardRollup.Proofs.Boards
import BoardRollup.Proofs.Responses
import BoardRollup.Proofs.MappedColumns
import BoardRollup.Proofs.RepeatedKeys
import BoardRollup.Proofs.RelationSettings
import BoardRollup.Proofs.NearestRanks
import BoardRollup.Proofs.TrimmedTexts
import BoardRollup.Proofs.DecimalNumerals
import BoardRollup.Proofs.WrittenNumerals
import BoardRollup.Proofs.RereadSums
import BoardRollup.Proofs.WholeNumbers
import BoardRollup.Proofs.WrittenWholeNumbers
import BoardRollup.Proofs.WholeSums
import BoardRollup.Proofs.OutputModes
import BoardRollup.Proofs.Rows
