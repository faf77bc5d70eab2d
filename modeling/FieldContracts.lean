import FieldContracts.Hierarchy.Ascent
import FieldContracts.Json.Quoting
import FieldContracts.Main
import FieldContracts.Proofs.Program.Runs
import FieldContracts.Proofs.Hierarchy.NearestField
import FieldContracts.Proofs.Hierarchy.DepthFirst
import FieldContracts.Proofs.Hierarchy.OverrideSearch
import FieldContracts.Proofs.Contract.Declaration
import FieldContracts.Proofs.Hierarchy.Coherence
import FieldContracts.Proofs.Check.Silence
import FieldContracts.Proofs.Check.SuperclassChain
import FieldContracts.Proofs.Check.Renaming
import FieldContracts.Proofs.Program.WellFormed
import FieldContracts.Proofs.Program.Layout
import FieldContracts.Proofs.Hierarchy.MethodOrder
import FieldContracts.Proofs.Hierarchy.Representation
import FieldContracts.Proofs.Program.Description
import FieldContracts.Proofs.Program.Reload
import FieldContracts.Proofs.Hierarchy.Growth
import FieldContracts.Proofs.Program.Acceptance
import FieldContracts.Proofs.Check.Location
import FieldContracts.Proofs.Check.Coverage
import FieldContracts.Proofs.Program.ExitFacts
import FieldContracts.Proofs.Program.Rebuilding
import FieldContracts.Proofs.Program.StatedFacts
import FieldContracts.Proofs.Program.Reordering
import FieldContracts.Proofs.Json.Numeral
import FieldContracts.Proofs.Json.Reading
import FieldContracts.Proofs.Json.Record
import FieldContracts.Proofs.Json.Documents
import FieldContracts.Proofs.CommandLine.Arguments
import FieldContracts.Proofs.CommandLine.Outcome
import FieldContracts.Proofs.Hierarchy.Persistence
import FieldContracts.Proofs.Check.Locality
import FieldContracts.Proofs.Check.Policy
import FieldContracts.Proofs.Hierarchy.Restatement
import FieldContracts.Proofs.Check.Restatement
import FieldContracts.Proofs.Hierarchy.SearchTurns
import FieldContracts.Proofs.Hierarchy.OverrideChain
import FieldContracts.Proofs.Hierarchy.RedefinedBetween
import FieldContracts.Proofs.Check.TwoReadings
import FieldContracts.Proofs.Contract.FirstFault
import FieldContracts.Proofs.Hierarchy.NewEdge
import FieldContracts.Proofs.Hierarchy.LookupTurns
import FieldContracts.Proofs.Check.SharedNames
